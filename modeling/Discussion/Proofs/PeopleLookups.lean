import Discussion.Proofs.AreaPages
import Discussion.Proofs.ListingSteps
import Discussion.Proofs.Yield

namespace Discussion

variable {α β σ : Type} {s : Store} {w : World}

namespace Program

/-- The calls that a run makes, in order, each with whether it is carried out. -/
def made (faults : Faults σ) : Program α → σ → World → List (Call × Bool)
  | .done _, _, _ => []
  | .tell event next, state, world =>
    next.made faults state { world with events := world.events ++ [event] }
  | .call request next, state, world =>
    match faults state request with
    | (some failure, state) => (request, false) :: (next (.error failure)).made faults state world
    | (none, state) =>
      let (answer, world) := world.answer request
      (request, true) :: (next answer).made faults state world

theorem made_bind (faults : Faults σ) (p : Program α) (f : α → Program β) (state : σ) (w : World) :
    (p >>= f).made faults state w = p.made faults state w ++
      (f (p.run faults state w).1).made faults (p.run faults state w).2.1
        (p.run faults state w).2.2 := by
  induction p generalizing state w with
  | done a => rfl
  | tell event next ih => exact ih state _
  | call c next ih =>
    change (Program.call c fun answer => next answer >>= f).made faults state w = _
    cases hc : faults state c with
    | mk failed state' =>
      simp only [made, run, hc]
      cases failed with
      | some failure => exact congrArg (_ :: ·) (ih _ _ _)
      | none => exact congrArg (_ :: ·) (ih _ _ _)

theorem carried_eq (faults : Faults σ) (p : Program α) (state : σ) (w : World) :
    p.carried faults state w = ((p.made faults state w).filter (·.2)).map (·.1) := by
  induction p generalizing state w with
  | done a => rfl
  | tell event next ih => exact ih state _
  | call c next ih =>
    cases hc : faults state c with
    | mk failed state' =>
      simp only [made, carried, hc]
      cases failed with
      | some failure => exact ih _ _ _
      | none => exact congrArg (c :: ·) (ih _ _ _)

end Program

/-- The lookups of people among calls: whom they ask for, and whether the store answers. -/
def lookups (made : List (Call × Bool)) : List (List UserId × Bool) :=
  made.filterMap fun c => c.1.asked?.map (·, c.2)

theorem countP_lookups (made : List (Call × Bool)) :
    (lookups made).countP (·.2) =
      ((made.filter (·.2)).map (·.1)).countP (·.asked?.isSome) := by
  induction made with
  | nil => rfl
  | cons c rest ih =>
    obtain ⟨c, answered⟩ := c
    unfold lookups at ih ⊢
    rw [List.filterMap_cons]
    cases hasked : c.asked? with
    | none =>
      cases answered with
      | true =>
        rw [List.filter_cons_of_pos rfl, List.map_cons, List.countP_cons_of_neg]
        · exact ih
        · rw [hasked]
          exact Bool.false_ne_true
      | false => exact ih
    | some ids =>
      cases answered with
      | true =>
        rw [List.filter_cons_of_pos rfl, List.map_cons, List.countP_cons_of_pos, ← ih]
        · exact List.countP_cons_of_pos rfl
        · rw [hasked]
          rfl
      | false => exact (List.countP_cons_of_neg Bool.false_ne_true).trans ih

/-- Somebody stored has the id, or nobody has. -/
def Store.Registers (s : Store) (id : UserId) : Option Person → Prop
  | some p => p ∈ s.people ∧ p.id = id
  | none => ∀ p ∈ s.people, p.id ≠ id

theorem Store.registers_person? (s : Store) (id : UserId) : s.Registers id (s.person? id) := by
  unfold person?
  cases hfound : (s.people.filter (·.id == id)).getLast? with
  | none =>
    intro p hp heq
    have hnone := List.getLast?_eq_none_iff.1 hfound
    exact List.filter_eq_nil_iff.1 hnone p hp (beq_iff_eq.2 heq)
  | some p =>
    obtain ⟨hp, hid⟩ := List.mem_filter.1 (List.mem_of_getLast? hfound)
    exact ⟨hp, beq_iff_eq.1 hid⟩

namespace PeopleCache

variable {c : PeopleCache} {id u : UserId} {batch : List UserId}

theorem pairwise_place (n : Int) {l : List Int} (h : l.Pairwise (· < ·)) :
    (place n l).Pairwise (· < ·) := by
  induction l with
  | nil => exact List.pairwise_singleton _ _
  | cons m rest ih =>
    obtain ⟨hm, hrest⟩ := List.pairwise_cons.1 h
    unfold place
    split
    next hlt => exact List.pairwise_cons.2 ⟨List.forall_mem_cons.2 ⟨hlt, fun k hk =>
      Int.lt_trans hlt (hm k hk)⟩, h⟩
    next hge =>
      split
      · exact h
      next hne =>
        refine List.pairwise_cons.2 ⟨fun k hk => ?_, ih hrest⟩
        rcases mem_place.1 hk with rfl | hk
        · lia
        · exact hm k hk

theorem pairwise_wanted (c : PeopleCache) (id : UserId) (batch : List UserId) :
    (c.wanted id batch).Pairwise (· < ·) := by
  suffices hloop : ∀ l found : List Int, found.Pairwise (· < ·) →
      (l.foldl (fun ids u => place u ids) found).Pairwise (· < ·) from hloop _ [] .nil
  intro l
  induction l with
  | nil => exact fun _ h => h
  | cons n rest ih => exact fun found h => ih _ (pairwise_place n h)

theorem mem_wanted_iff : u ∈ c.wanted id batch ↔ (u ∈ batch ∨ u = id) ∧ c.knows u = false := by
  rw [wanted, mem_foldl_place, List.mem_filter, List.mem_append, List.mem_singleton,
    Bool.not_eq_true']
  exact or_iff_left List.not_mem_nil

theorem find?_learn_of_missing {ids : List UserId} (hids : ∀ u ∈ ids, c.knows u = false)
    (h : ∀ u ∈ c.missing, c.find? u = none) :
    ∀ u ∈ (c.learn ids (s.peopleByIds ids)).missing,
      (c.learn ids (s.peopleByIds ids)).find? u = none := by
  intro u hu
  rcases List.mem_append.1 hu with hmissing | habsent
  · have hknows : c.knows u = true := by
      rw [knows, List.contains_iff_mem.2 hmissing, Bool.or_true]
    rw [find?_learn_of_not_mem fun hmem => Bool.false_ne_true ((hids u hmem).symm.trans hknows)]
    exact h u hmissing
  · have hnobody := (Bool.and_eq_true_iff.1 (List.mem_filter.1 habsent).2).1
    rw [Bool.not_eq_true', ← Bool.not_eq_true, List.any_eq_true] at hnobody
    exact List.find?_eq_none.2 fun p hp heq => hnobody ⟨p, hp, heq⟩

theorem get_known (h : c.knows id) (batch : List UserId) : c.get id batch = pure (c.find? id, c) := by
  rw [get, if_pos h]

theorem get_unknown (h : c.knows id = false) (batch : List UserId) : c.get id batch = do
    let people ← Action.store (.peopleByIds (c.wanted id batch))
    let c := c.learn (c.wanted id batch) people
    return (c.find? id, c) := by
  rw [get, h]
  rfl

/-- A question to a cache. -/
structure Inquiry where
  id : UserId
  batch : List UserId

/-- Asks for somebody together with others. A failure leaves the cache as it was. -/
def inquire (q : Inquiry) : StateT PeopleCache Program (Except Error (Option Person)) := fun c => do
  match ← (c.get q.id q.batch).run with
  | .ok (person, c) => return (.ok person, c)
  | .error e => return (.error e, c)

theorem inquire_known {q : Inquiry} (h : c.knows q.id) :
    (inquire q).run c = .done (.ok (c.find? q.id), c) := by
  change ((c.get q.id q.batch).run >>= _) = _
  rw [get_known h]
  rfl

theorem inquire_unknown {q : Inquiry} (h : c.knows q.id = false) :
    (inquire q).run c = .call (.store (.peopleByIds (c.wanted q.id q.batch))) fun
      | .ok people =>
        let c := c.learn (c.wanted q.id q.batch) people
        .done (.ok (c.find? q.id), c)
      | .error failure => .done (.error (.storage failure), c) := by
  change ((c.get q.id q.batch).run >>= _) = _
  rw [get_unknown h]
  refine congrArg (Program.call _) (funext fun answer => ?_)
  cases answer <;> rfl

/-- The cache knows those of its lookups that were answered, and has never asked again for one of
them. -/
structure Kept (s : Store) (log : List (List UserId × Bool)) (c : PeopleCache) : Prop where
  trueTo : c.TrueTo s
  knows_iff : ∀ id, c.knows id ↔ ∃ a ∈ log, a.2 ∧ id ∈ a.1
  disjoint : ∀ id ∈ c.missing, c.find? id = none
  once : log.Pairwise fun a b => a.2 → ∀ id ∈ a.1, id ∉ b.1
  increasing : ∀ a ∈ log, a.1.Pairwise (· < ·)

theorem kept_empty : Kept s [] {} where
  trueTo := trueTo_empty
  knows_iff := fun _ => iff_of_false Bool.false_ne_true fun ⟨_, h, _⟩ => nomatch h
  disjoint := fun _ h => nomatch h
  once := .nil
  increasing := fun _ h => nomatch h

namespace Kept

variable {log : List (List UserId × Bool)}

theorem append (h : Kept s log c) {ids : List UserId} (hids : ∀ u ∈ ids, c.knows u = false)
    (hincreasing : ids.Pairwise (· < ·)) {answered : Bool} {c' : PeopleCache} (htrue : c'.TrueTo s)
    (hknows : ∀ id, c'.knows id ↔ c.knows id ∨ answered ∧ id ∈ ids)
    (hdisjoint : ∀ id ∈ c'.missing, c'.find? id = none) : Kept s (log ++ [(ids, answered)]) c' where
  trueTo := htrue
  knows_iff := by
    intro id
    rw [hknows, h.knows_iff]
    constructor
    · rintro (⟨a, ha, hid⟩ | hid)
      · exact ⟨a, List.mem_append_left _ ha, hid⟩
      · exact ⟨_, List.mem_append_right _ (List.mem_singleton_self _), hid⟩
    · rintro ⟨a, ha, hid⟩
      rcases List.mem_append.1 ha with ha | ha
      · exact .inl ⟨a, ha, hid⟩
      · rw [List.mem_singleton.1 ha] at hid
        exact .inr hid
  disjoint := hdisjoint
  once := by
    refine List.pairwise_append.2 ⟨h.once, List.pairwise_singleton _ _, ?_⟩
    intro a ha b hb hanswered id hid hmem
    rw [List.mem_singleton.1 hb] at hmem
    have hknown := (h.knows_iff id).2 ⟨a, ha, hanswered, hid⟩
    exact Bool.false_ne_true ((hids id hmem).symm.trans hknown)
  increasing := List.forall_mem_append.2 ⟨h.increasing, List.forall_mem_singleton.2 hincreasing⟩

theorem failed (h : Kept s log c) (q : Inquiry) :
    Kept s (log ++ [(c.wanted q.id q.batch, false)]) c := by
  refine h.append (fun _ hu => (mem_wanted_iff.1 hu).2) (pairwise_wanted _ _ _) h.trueTo ?_ h.disjoint
  exact fun id => (or_iff_left fun hnever => Bool.false_ne_true hnever.1).symm

theorem answered (h : Kept s log c) (q : Inquiry) :
    Kept s (log ++ [(c.wanted q.id q.batch, true)])
      (c.learn (c.wanted q.id q.batch) (s.peopleByIds (c.wanted q.id q.batch))) := by
  have hids : ∀ u ∈ c.wanted q.id q.batch, c.knows u = false := fun _ hu => (mem_wanted_iff.1 hu).2
  refine h.append hids (pairwise_wanted _ _ _) (h.trueTo.learn _) ?_
    (find?_learn_of_missing hids h.disjoint)
  exact fun id => knows_learn.trans (or_congr_right (and_iff_right rfl).symm)

/-- One question: the cache makes one lookup at most, and an answer is the store's. -/
theorem inquire (h : Kept w.store log c) (q : Inquiry) (faults : Faults σ) (state : σ) :
    let p := (PeopleCache.inquire q).run c
    (p.run faults state w).2.2 = w ∧
      (∀ found, (p.run faults state w).1.1 = .ok found → found = w.store.person? q.id) ∧
      Kept w.store (log ++ lookups (p.made faults state w)) (p.run faults state w).1.2 := by
  cases hknows : c.knows q.id with
  | true =>
    rw [inquire_known hknows]
    refine ⟨rfl, ?_, (List.append_nil log).symm ▸ h⟩
    rintro _ ⟨⟩
    exact h.trueTo q.id hknows
  | false =>
    rw [inquire_unknown hknows]
    cases hfailed : faults state (.store (.peopleByIds (c.wanted q.id q.batch))) with
    | mk failed state' =>
      simp only [Program.run, Program.made, hfailed]
      cases failed with
      | some failure =>
        refine ⟨rfl, ?_, h.failed q⟩
        rintro _ ⟨⟩
      | none =>
        refine ⟨rfl, ?_, h.answered q⟩
        rintro _ ⟨⟩
        exact h.trueTo.find?_learn (mem_wanted hknows q.batch)

theorem inquireAll (h : Kept w.store log c) (inquiries : List Inquiry) (faults : Faults σ)
    (state : σ) :
    let p := (inquiries.mapM PeopleCache.inquire).run c
    (p.run faults state w).2.2 = w ∧
      List.Forall₂ (fun q reply => ∀ found, reply = .ok found → found = w.store.person? q.id)
        inquiries (p.run faults state w).1.1 ∧
      Kept w.store (log ++ lookups (p.made faults state w)) (p.run faults state w).1.2 := by
  -- By induction on the questions: the cache that one leaves behind is kept with the longer log.
  induction inquiries generalizing log c state with
  | nil => exact ⟨rfl, .nil, (List.append_nil log).symm ▸ h⟩
  | cons q inquiries ih =>
    obtain ⟨hw, hreply, hc⟩ := h.inquire q faults state
    have hsplit : ((q :: inquiries).mapM PeopleCache.inquire).run c =
        (PeopleCache.inquire q).run c >>= fun r =>
          (inquiries.mapM PeopleCache.inquire).run r.2 >>= fun rs => pure (r.1 :: rs.1, rs.2) := by
      rw [List.mapM_cons]
      rfl
    rw [hsplit]
    simp only [Program.run_bind, Program.made_bind, hw]
    obtain ⟨hw', hreplies, hkept⟩ := ih hc (((PeopleCache.inquire q).run c).run faults state w).2.1
    refine ⟨hw', .cons hreply hreplies, ?_⟩
    rw [lookups, List.filterMap_append, List.filterMap_append, ← List.append_assoc]
    exact (List.append_nil _).symm ▸ hkept

end Kept

end PeopleCache

end Discussion
