import Discussion.Proofs.Look

namespace Discussion

/-- The person with an id, as the store knows them. -/
def Store.person? (s : Store) (id : UserId) : Option Person :=
  (s.people.filter (·.id == id)).getLast?

theorem Store.person?_congr {s t : Store} (h : t.people = s.people) : t.person? = s.person? := by
  unfold person?
  rw [h]

namespace PeopleCache

/-- Whom the cache knows it knows from the store. -/
def TrueTo (s : Store) (c : PeopleCache) : Prop :=
  ∀ id, c.knows id → c.find? id = s.person? id

variable {s : Store} {c : PeopleCache} {id : UserId} {ids : List UserId}

theorem trueTo_empty : TrueTo s {} := fun _ h => nomatch h

theorem mem_place {n m : Int} {l : List Int} : m ∈ place n l ↔ m = n ∨ m ∈ l := by
  induction l with
  | nil => exact List.mem_cons
  | cons k rest ih =>
    unfold place
    split
    · exact List.mem_cons
    · split
      next hsame => rw [hsame, List.mem_cons, ← or_assoc, or_self]
      next => rw [List.mem_cons, ih, List.mem_cons, or_left_comm]

theorem mem_foldl_place {l found : List Int} {m : Int} :
    m ∈ l.foldl (fun ids u => place u ids) found ↔ m ∈ l ∨ m ∈ found := by
  induction l generalizing found with
  | nil => simp only [List.foldl_nil, List.not_mem_nil, false_or]
  | cons n rest ih => rw [List.foldl_cons, ih, mem_place, List.mem_cons, or_left_comm, or_assoc]

theorem mem_wanted (h : c.knows id = false) (batch : List UserId) : id ∈ c.wanted id batch := by
  refine mem_foldl_place.2 (.inl (List.mem_filter.2 ⟨?_, ?_⟩))
  · exact List.mem_append_right _ (List.mem_singleton_self id)
  · rw [h]
    rfl

theorem find?_learned (found people : List Person) (id : UserId) :
    (people.foldl (fun found p => found.filter (·.id != p.id) ++ [p]) found).find? (·.id == id) =
      (people.filter (·.id == id)).getLast?.or (found.find? (·.id == id)) := by
  induction people generalizing found with
  | nil => rfl
  | cons p rest ih =>
    rw [List.foldl_cons, ih, List.find?_append, List.filter_cons]
    by_cases hp : p.id = id
    · have hold : (found.filter (·.id != p.id)).find? (·.id == id) = none := by
        rw [List.find?_eq_none]
        intro q hq
        rw [hp] at hq
        exact (Bool.not_eq_true' _).mp (List.mem_filter.1 hq).2 ▸ Bool.false_ne_true
      rw [hold, Option.none_or, beq_iff_eq.2 hp, if_pos rfl, List.getLast?_cons]
      cases (rest.filter (·.id == id)).getLast? with
      | some q => rfl
      | none =>
        change List.find? (·.id == id) [p] = some p
        exact List.find?_cons_of_pos (beq_iff_eq.2 hp)
    · have hold : (found.filter (·.id != p.id)).find? (·.id == id) = found.find? (·.id == id) := by
        rw [List.find?_filter]
        congr 1
        funext q
        rw [Bool.eq_iff_iff, decide_eq_true_iff, bne_iff_ne, beq_iff_eq]
        exact and_iff_right_of_imp fun hq heq => hp (heq.symm.trans hq)
      have hnew : List.find? (·.id == id) [p] = none :=
        List.find?_cons_of_neg (fun heq => hp (beq_iff_eq.1 heq))
      rw [hold, hnew, Option.or_none, beq_false_of_ne hp, if_neg Bool.false_ne_true]

theorem TrueTo.find?_learn (h : c.TrueTo s) (hid : id ∈ ids) :
    (c.learn ids (s.peopleByIds ids)).find? id = s.person? id := by
  have hasked : (s.peopleByIds ids).filter (·.id == id) = s.people.filter (·.id == id) := by
    rw [Store.peopleByIds, List.filter_filter]
    apply List.filter_congr
    intro p _
    rw [Bool.and_eq_left_iff_imp]
    intro hp
    rw [beq_iff_eq.1 hp]
    exact List.contains_iff_mem.2 hid
  rw [find?, learn, find?_learned, hasked]
  change (s.person? id).or (c.find? id) = s.person? id
  cases hperson : s.person? id with
  | some p => rfl
  | none =>
    -- The cache has nobody under the id, as it could only have them from the store.
    cases hknown : c.find? id with
    | none => rfl
    | some p =>
      have hknows : c.knows id := by rw [knows, hknown]; rfl
      rw [h id hknows, hperson] at hknown
      cases hknown

theorem find?_learn_of_not_mem (hid : id ∉ ids) :
    (c.learn ids (s.peopleByIds ids)).find? id = c.find? id := by
  have hnobody : (s.peopleByIds ids).filter (·.id == id) = [] := by
    rw [List.filter_eq_nil_iff]
    intro p hp hpid
    rw [Store.peopleByIds, List.mem_filter, List.contains_iff_mem, beq_iff_eq.1 hpid] at hp
    exact hid hp.2
  rw [find?, learn, find?_learned, hnobody]
  rfl

theorem knows_learn : (c.learn ids (s.peopleByIds ids)).knows id ↔ c.knows id ∨ id ∈ ids := by
  by_cases hid : id ∈ ids
  · refine iff_of_true ?_ (.inr hid)
    rw [knows, Bool.or_eq_true, List.contains_iff_mem, or_iff_not_imp_left]
    intro hnobody
    refine List.mem_append.2 (or_iff_not_imp_left.2 fun hnew => List.mem_filter.2 ⟨hid, ?_⟩)
    rw [Bool.and_eq_true, Bool.not_eq_true', Bool.not_eq_true', ← Bool.not_eq_true,
      ← Bool.not_eq_true, List.contains_iff_mem]
    refine ⟨fun hany => hnobody ?_, hnew⟩
    rw [find?, List.find?_isSome]
    exact List.any_eq_true.1 hany
  · rw [or_iff_left hid, knows, knows, find?_learn_of_not_mem hid, Bool.or_eq_true, Bool.or_eq_true,
      List.contains_iff_mem, List.contains_iff_mem, learn, List.mem_append]
    exact or_congr_right (or_iff_left fun habsent => hid (List.mem_of_mem_filter habsent))

theorem TrueTo.learn (h : c.TrueTo s) (ids : List UserId) :
    (c.learn ids (s.peopleByIds ids)).TrueTo s := by
  intro id hknows
  by_cases hid : id ∈ ids
  · exact h.find?_learn hid
  · rw [find?_learn_of_not_mem hid]
    exact h id ((knows_learn.1 hknows).resolve_right hid)

theorem look_get_congr {t : Store} (h : t.people = s.people) (c : PeopleCache) (id : UserId)
    (batch : List UserId) : (c.get id batch).look t = (c.get id batch).look s := by
  unfold get
  cases c.knows id with
  | true => rfl
  | false =>
    have hasked (ids : List UserId) : t.peopleByIds ids = s.peopleByIds ids := by
      rw [Store.peopleByIds, h, Store.peopleByIds]
    change Except.ok (_, c.learn _ (t.peopleByIds _)) = Except.ok (_, c.learn _ (s.peopleByIds _))
    rw [hasked]

/-- Whoever else is asked for along, the answer is who the store has under the id. -/
theorem TrueTo.look_get (h : c.TrueTo s) (id : UserId) (batch : List UserId) :
    ∃ c', (c.get id batch).look s = .ok (s.person? id, c') ∧ c'.TrueTo s := by
  unfold get
  cases hknows : c.knows id with
  | true =>
    refine ⟨c, ?_, h⟩
    rw [← h id hknows]
    rfl
  | false =>
    refine ⟨_, ?_, h.learn (c.wanted id batch)⟩
    rw [← h.find?_learn (mem_wanted hknows batch)]
    rfl

end PeopleCache

end Discussion
