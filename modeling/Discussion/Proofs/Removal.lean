import Discussion.Proofs.RemovedThreads

namespace Discussion

-- The zero of a sum is that of the core library, whatever else is in scope.
attribute [local instance (high)] Zero.ofOfNat0

attribute [ext] World

/-- What is asked of the store to remove a comment. -/
def StoredComment.removal (x : StoredComment) : Call :=
  .store (.removeThread x.id x.replyTo)

/-- Of the calls that are carried out, those that are no questions. -/
def writesOf (calls : List Call) : List Call :=
  calls.filter fun c => !c.isQuestion

theorem writesOf_append {asked : List Call} (hasked : ∀ c ∈ asked, c.isQuestion)
    (calls : List Call) : writesOf (asked ++ calls) = writesOf calls := by
  have hnone : writesOf asked = [] := by
    apply List.filter_eq_nil_iff.2
    intro c hc
    rw [hasked c hc]
    exact Bool.false_ne_true
  rw [writesOf, List.filter_append]
  exact (congrArg (· ++ writesOf calls) hnone).trans (List.nil_append _)

theorem writesOf_removals (done : List StoredComment) :
    writesOf (done.map (·.removal)) = done.map (·.removal) := by
  apply List.filter_eq_self.2
  intro c hc
  obtain ⟨x, -, rfl⟩ := List.mem_map.1 hc
  rfl

/-- What is told of removed comments: each is named unless the one that it replies to is listed. -/
def deletions (ids : List CommentId) (records : List StoredComment) : List Event :=
  (records.filter fun x => !x.repliesToAny ids).map fun x => .deleted x.key x.id

theorem deletions_congr {a b : List CommentId} {records : List StoredComment}
    (h : ∀ x ∈ records, x.repliesToAny a = x.repliesToAny b) :
    deletions a records = deletions b records := by
  refine congrArg _ (List.filter_congr fun x hx => ?_)
  rw [h x hx]

variable {s : Store} {w : World} {faulty : Call → Prop}

theorem Section.delete_ends (sec : Section) (x : StoredComment)
    {Q : Except Error Nat → List Call → World → Prop}
    (hfail : ∀ failure, faulty x.removal → Q (.error (.storage failure)) [] w)
    (hdone : Q (.ok (w.store.removeThread x.id x.replyTo).1) [x.removal]
      { store := (w.store.removeThread x.id x.replyTo).2
        events := w.events ++ if 0 < (w.store.removeThread x.id x.replyTo).1
          then [.deleted sec.key x.id] else [] }) :
    (sec.delete (.ofStored x)).run.Ends faulty w Q := by
  change (Action.store (.removeThread x.id x.replyTo) >>= _).run.Ends faulty w Q
  rw [Action.ends_bind]
  refine Action.ends_store hfail ?_
  dsimp only
  split
  next hpos =>
    have hpos : 0 < (w.store.removeThread x.id x.replyTo).1 := hpos
    rw [if_pos hpos] at hdone
    exact hdone
  next hzero =>
    have hzero : ¬0 < (w.store.removeThread x.id x.replyTo).1 := hzero
    rw [if_neg hzero, List.append_nil] at hdone
    exact hdone

/-- Of ids in increasing order only smaller ones can be the target of a reply. -/
theorem Store.Forest.repliesToAny_append (h : s.Forest) {x : StoredComment}
    (hx : x ∈ s.comments) {earlier later : List CommentId} (hearlier : ∀ d ∈ earlier, d < x.id)
    (hlater : ∀ d ∈ later, x.id ≤ d) :
    x.repliesToAny (earlier ++ later) = x.goesWith earlier := by
  have hself : earlier.contains x.id = false := by
    rw [Bool.eq_false_iff]
    exact fun hmem => Int.lt_irrefl _ (hearlier _ (List.contains_iff_mem.1 hmem))
  rw [StoredComment.goesWith, hself, Bool.false_or]
  cases hreply : x.replyTo with
  | none => simp only [StoredComment.repliesToAny, hreply, Option.any_none]
  | some p =>
    obtain ⟨_, _, _, _, _, hlt⟩ := h.rooted x hx p hreply
    have hp : later.contains p = false := by
      rw [Bool.eq_false_iff]
      intro hmem
      have := hlater p (List.contains_iff_mem.1 hmem)
      lia
    simp only [StoredComment.repliesToAny, hreply, Option.any_some, List.contains_append, hp,
      Bool.or_false]

/-- What a batch of removals has come to, when a first part of it is done. -/
structure Removed (s : Store) (before : List CommentId) (w : World)
    (records done left : List StoredComment) (calls : List Call) (w' : World) : Prop where
  split : records = done ++ left
  store : w'.store = s.without (before ++ done.map (·.id))
  events : w'.events = w.events ++ deletions (before ++ done.map (·.id)) done
  calls : calls = done.map (·.removal)

theorem Removed.none (records : List StoredComment) :
    Removed w.store [] w records [] records [] w where
  split := rfl
  store := w.store.without_nil.symm
  events := (List.append_nil _).symm
  calls := rfl

theorem Store.Forest.deletions_cons (h : s.Forest) {x : StoredComment} (hx : x ∈ s.comments)
    {before later : List CommentId} (hbefore : ∀ d ∈ before, d < x.id)
    (hlater : ∀ d ∈ later, x.id ≤ d) (records : List StoredComment) :
    deletions (before ++ later) (x :: records) =
      (if 0 < ((s.without before).removeThread x.id x.replyTo).1 then [.deleted x.key x.id]
        else []) ++ deletions (before ++ later) records := by
  rw [deletions, List.filter_cons, h.repliesToAny_append hx hbefore hlater]
  cases hgone : x.goesWith before with
  | true =>
    rw [if_neg (mt (h.removeThread_without_pos hx before).1 (by rw [hgone]; exact nofun))]
    rfl
  | false =>
    rw [if_pos ((h.removeThread_without_pos hx before).2 hgone)]
    rfl

theorem Removed.cons (h : s.Forest) {x : StoredComment} (hx : x ∈ s.comments)
    {before : List CommentId} (hbefore : ∀ d ∈ before, d < x.id)
    {records done left : List StoredComment} (hlater : ∀ y ∈ records, x.id < y.id)
    {w₁ w' : World} {calls : List Call}
    (hevents : w₁.events = w.events ++
      if 0 < ((s.without before).removeThread x.id x.replyTo).1 then [.deleted x.key x.id] else [])
    (hr : Removed s (before ++ [x.id]) w₁ records done left calls w') :
    Removed s before w (x :: records) (x :: done) left (x.removal :: calls) w' where
  split := by rw [hr.split, List.cons_append]
  store := by rw [hr.store, List.append_assoc, List.singleton_append, List.map_cons]
  events := by
    have hmore : ∀ d ∈ x.id :: done.map (·.id), x.id ≤ d := by
      refine List.forall_mem_cons.2 ⟨Int.le_refl _, fun d hd => ?_⟩
      obtain ⟨y, hy, rfl⟩ := List.mem_map.1 hd
      exact Int.le_of_lt (hlater y (hr.split ▸ List.mem_append_left left hy))
    have hids : before ++ [x.id] ++ done.map (·.id) = before ++ x.id :: done.map (·.id) :=
      List.append_assoc _ _ _
    rw [hr.events, hevents, hids, List.append_assoc, ← h.deletions_cons hx hbefore hmore]
    rfl
  calls := by rw [hr.calls, List.map_cons]

theorem Store.Forest.deleteAll_ends (h : s.Forest) {records : List StoredComment}
    {targets : List (Section × Comment)} (before : List CommentId)
    (htargets : List.Forall₂ (fun x t => t.1.key = x.key ∧ t.2 = .ofStored x) records targets)
    (hstored : ∀ x ∈ records, x ∈ s.comments) (hordered : records.Pairwise (·.id < ·.id))
    (hbefore : ∀ d ∈ before, ∀ x ∈ records, d < x.id)
    (hw : w.store = s.without before) :
    (targets.mapM fun t : Section × Comment => t.1.delete t.2).run.Ends faulty w fun r calls w' =>
      ∃ done left, Removed s before w records done left calls w' ∧
        match r with
        | .ok counts => left = [] ∧ counts.sum + s.comments.countP (·.goesWith before) =
            s.comments.countP (·.goesWith (before ++ records.map (·.id)))
        | .error _ => ∃ x ∈ left.head?, faulty x.removal := by
  -- The induction is on the targets that are left; those before them are gone already.
  induction htargets generalizing before w with
  | nil =>
    refine ⟨[], [], ⟨rfl, ?_, (List.append_nil _).symm, rfl⟩, rfl, ?_⟩
    · rw [hw, List.map_nil, List.append_nil]
    · rw [List.map_nil, List.append_nil]
      exact Nat.zero_add _
  | @cons x t records targets hx htargets ih =>
    obtain ⟨sec, comment⟩ := t
    obtain ⟨hkey, rfl⟩ := hx
    obtain ⟨hmem, hstored⟩ := List.forall_mem_cons.1 hstored
    obtain ⟨hlater, hordered⟩ := List.pairwise_cons.1 hordered
    obtain ⟨hfirst, hbefore⟩ : (∀ d ∈ before, d < x.id) ∧
        ∀ d ∈ before ++ [x.id], ∀ y ∈ records, d < y.id := by
      refine ⟨fun d hd => hbefore d hd x List.mem_cons_self, fun d hd y hy => ?_⟩
      rcases List.mem_append.1 hd with hd | hd
      · exact hbefore d hd y (List.mem_cons_of_mem x hy)
      · rw [List.mem_singleton.1 hd]
        exact hlater y hy
    have hcount := s.removeThread_without_fst before x
    rw [List.mapM_cons, Action.ends_bind]
    refine sec.delete_ends x ?_ ?_
    · intro failure hf
      refine ⟨[], x :: records, ⟨rfl, ?_, (List.append_nil _).symm, rfl⟩, x, rfl, hf⟩
      rw [hw, List.map_nil, List.append_nil]
    · rw [hw, h.removeThread_without hmem, hkey]
      refine Action.ends_bind_of (ih (before ++ [x.id]) hstored hordered hbefore rfl) ?_ ?_
      · rintro counts calls w' ⟨done, left, hremoved, rfl, hsum⟩
        have hremoved := hremoved.cons h hmem hfirst hlater rfl
        rw [← List.append_nil calls] at hremoved
        refine ⟨x :: done, [], hremoved, rfl, ?_⟩
        rw [List.sum_cons, List.map_cons, ← List.singleton_append, ← List.append_assoc, ← hsum]
        omega
      · rintro e calls w' ⟨done, left, hremoved, hfailed⟩
        exact ⟨x :: done, left, hremoved.cons h hmem hfirst hlater rfl, hfailed⟩

/-- What it is to remove the listed comments with the replies to them. -/
structure RemovesExactly (w : World) (ids : List CommentId) (n : Nat) (w' : World) : Prop where
  listed : ∀ id ∈ ids, ∃ c ∈ w.store.comments, c.id = id
  count : n = w.store.comments.countP (·.goesWith ids)
  store : w'.store = w.store.without ids
  choices : ∀ t ∈ w.store.choices, t.comment = 0 → t ∈ w'.store.choices
  events : w'.events = w.events ++ deletions ids (w.store.commentsByIds ids)
  ascending : (w.store.commentsByIds ids).Pairwise (·.id < ·.id)

theorem Removed.nothing {records left : List StoredComment} {calls : List Call} {w' : World}
    (hr : Removed w.store [] w records [] left calls w') : w' = w := by
  refine World.ext ?_ ?_
  · exact hr.store.trans w.store.without_nil
  · exact hr.events.trans (List.append_nil _)

theorem Store.Numbered.choices_without (h : s.Numbered) (ids : List CommentId) {t : Choice}
    (ht : t ∈ s.choices) (hsection : t.comment = 0) : t ∈ (s.without ids).choices := by
  refine List.mem_filter.2 ⟨ht, ?_⟩
  rw [hsection, Bool.not_eq_true', Store.anyWithId, List.any_eq_false]
  intro c hc hgone
  have hid := beq_iff_eq.1 (Bool.and_eq_true_iff.1 hgone).2
  have hpos := (h.issued _ (mem_identities hc)).1
  exact absurd hid (Int.ne_of_gt hpos)

theorem Removed.everything {ids : List CommentId} (h : w.store.Forest)
    {done : List StoredComment} {calls : List Call} {w' : World}
    (hr : Removed w.store [] w (w.store.commentsByIds ids) done [] calls w')
    (hlisted : ∀ id ∈ ids, ∃ c ∈ w.store.comments, c.id = id) :
    RemovesExactly w ids (w.store.comments.countP (·.goesWith ids)) w' := by
  obtain rfl : w.store.commentsByIds ids = done := hr.split.trans (List.append_nil done)
  have hstore : w'.store = w.store.without ids :=
    hr.store.trans (Store.without_congr fun c hc => h.goesWith_commentsByIds hc ids)
  have hascending := h.pairwise.sublist (List.filter_sublist (p := fun c => ids.contains c.id))
  refine ⟨hlisted, rfl, hstore, fun t ht hsection => ?_, ?_, hascending⟩
  · rw [hstore]
    exact h.choices_without ids ht hsection
  · refine hr.events.trans (congrArg _ (deletions_congr fun x hx => ?_))
    exact h.repliesToAny_commentsByIds (List.mem_of_mem_filter hx) ids

namespace Forum

variable {ids : List CommentId}

theorem eraseReps_eq_nil {l : List CommentId} : l.eraseReps = [] ↔ l = [] := by
  have hloop (a : CommentId) (l found : List CommentId) :
      List.eraseRepsBy.loop (· == ·) a l found ≠ [] := by
    induction l generalizing a found with
    | nil => exact List.reverse_ne_nil_iff.2 (List.cons_ne_nil a found)
    | cons b l ih =>
      unfold List.eraseRepsBy.loop
      split
      · exact ih a found
      · exact ih b (a :: found)
  cases l with
  | nil => exact ⟨fun _ => rfl, fun _ => rfl⟩
  | cons a l => exact ⟨fun h => absurd h (hloop a l []), fun h => absurd h (List.cons_ne_nil a l)⟩

theorem missingIds_isEmpty {records : List StoredComment} :
    (missingIds ids records).isEmpty ↔ ∀ id ∈ ids, ∃ c ∈ records, c.id = id := by
  rw [List.isEmpty_iff, missingIds, eraseReps_eq_nil, List.filter_eq_nil_iff]
  simp only [Bool.not_eq_true', Bool.not_eq_false, List.any_eq_true, beq_iff_eq]

/-- What remains to do of a removal when the comments are read. -/
def removeAll (f : Forum) (user : UserId) (records : List StoredComment) : Action Nat := do
  let targets ← records.mapM (f.prepareRemoval user)
  let counts ← targets.mapM fun t => t.1.delete t.2
  return counts.sum

def removeListed (f : Forum) (user : UserId) (ids : List CommentId)
    (records : List StoredComment) : Action Nat :=
  if (missingIds ids records).isEmpty then f.removeAll user records
  else throw (.missing (missingIds ids records))

theorem remove_eq (f : Forum) (user : Option UserId) (ids : List CommentId) :
    f.remove user ids = match f.memberOf user .delete with
      | .error e => throw e
      | .ok user => Action.store (.commentsByIds ids) >>= f.removeListed user ids := by
  unfold remove
  cases f.memberOf user .delete with
  | error e => rfl
  | ok user =>
    change Action.store (.commentsByIds ids) >>= _ = _
    congr 1
    funext records
    unfold removeListed
    dsimp only
    cases (missingIds ids records).isEmpty <;> rfl

/-- A removal that fails is stuck at one of the comments; before that it can fail without having
removed anything. -/
theorem removeAll_ends (h : w.store.Forest) (f : Forum) (user : UserId) (ids : List CommentId) :
    (f.removeAll user (w.store.commentsByIds ids)).run.Ends faulty w fun r calls w' =>
      ∃ done left, Removed w.store [] w (w.store.commentsByIds ids) done left
          (writesOf calls) w' ∧
        match r with
        | .ok n => left = [] ∧ n = w.store.comments.countP (·.goesWith ids)
        | .error _ => done = [] ∨ ∃ x ∈ left.head?, faulty x.removal := by
  refine Action.ends_ask (fun asked hasked r calls w' hend => ?_)
    (Action.Reads.mapM (f.prepareRemoval_reads user) _).observes
    (fun _ => ⟨[], _, .none _, .inl rfl⟩) fun targets htargets => ?_
  · rw [writesOf_append hasked]
    exact hend
  · -- The comments come in the order of their ids, so that targets come before the replies to them.
    have hordered := h.pairwise.sublist (List.filter_sublist (p := fun c => ids.contains c.id))
    refine Action.ends_bind_of (h.deleteAll_ends [] htargets (fun x hx => List.mem_of_mem_filter hx)
      hordered (fun d hd => nomatch hd) w.store.without_nil.symm) ?_ ?_
    · rintro counts calls w' ⟨done, left, hremoved, rfl, hsum⟩
      refine ⟨done, [], { hremoved with calls := ?_ }, rfl, ?_⟩
      · rw [List.append_nil, hremoved.calls, writesOf_removals]
      · simp only [StoredComment.goesWith_nil, List.countP_false, Function.const_apply,
          Nat.add_zero, List.nil_append] at hsum
        rw [hsum]
        apply List.countP_congr
        intro c hc
        rw [h.goesWith_commentsByIds hc]
    · rintro e calls w' ⟨done, left, hremoved, hfailed⟩
      refine ⟨done, left, { hremoved with calls := ?_ }, .inr hfailed⟩
      rw [hremoved.calls, writesOf_removals]

theorem remove_ends (h : w.store.Forest) (f : Forum) (user : Option UserId)
    (ids : List CommentId) : (f.remove user ids).run.Ends faulty w fun r calls w' =>
      ∃ done left, Removed w.store [] w (w.store.commentsByIds ids) done left
          (writesOf calls) w' ∧
        match r with
        | .ok n => left = [] ∧ (∀ id ∈ ids, ∃ c ∈ w.store.comments, c.id = id) ∧
            n = w.store.comments.countP (·.goesWith ids)
        | .error _ => done = [] ∨ ∃ x ∈ left.head?, faulty x.removal := by
  rw [remove_eq]
  cases f.memberOf user .delete with
  | error e => exact ⟨[], _, .none _, .inl rfl⟩
  | ok user =>
    refine Action.ends_ask (fun asked hasked r calls w' hend => ?_)
      (.question (c := .commentsByIds ids) rfl) (fun _ => ⟨[], _, .none _, .inl rfl⟩) ?_
    · rw [writesOf_append hasked]
      exact hend
    · rintro _ rfl
      change (f.removeListed user ids (w.store.commentsByIds ids)).run.Ends faulty w _
      unfold removeListed
      split
      next hlisted =>
        rw [missingIds_isEmpty] at hlisted
        apply (removeAll_ends h f user ids).mono
        rintro r calls w' ⟨done, left, hremoved, hr⟩
        refine ⟨done, left, hremoved, ?_⟩
        cases r with
        | error e => exact hr
        | ok n =>
          refine ⟨hr.1, fun id hid => ?_, hr.2⟩
          obtain ⟨c, hc, hcid⟩ := hlisted id hid
          exact ⟨c, List.mem_of_mem_filter hc, hcid⟩
      · exact ⟨[], _, .none _, .inl rfl⟩

theorem remove_run_of {σ : Type} {faults : Faults σ}
    (hfaults : ∀ state c, (faults state (.store c)).1 = none) (f : Forum)
    (user : Option UserId) (ids : List CommentId) (state : σ) (w : World) :
    (f.remove user ids).run.run faults state w =
      match f.memberOf user .delete with
      | .error e => (.error e, state, w)
      | .ok user => (f.removeListed user ids (w.store.commentsByIds ids)).run.run faults
          (faults state (.store (.commentsByIds ids))).2 w := by
  rw [remove_eq]
  cases f.memberOf user .delete with
  | error e => rfl
  | ok user =>
    have hanswered := hfaults state (.commentsByIds ids)
    change Program.run faults (.call (.store (.commentsByIds ids)) _) state w = _
    cases hasked : faults state (.store (.commentsByIds ids)) with
    | mk failure later =>
      rw [hasked] at hanswered
      obtain rfl : failure = none := hanswered
      simp only [Program.run, hasked]
      rfl

theorem remove_run {σ : Type} {faults : Faults σ}
    (hfaults : ∀ state c, faults state (.store c) = (none, state)) (f : Forum)
    (user : Option UserId) (ids : List CommentId) (state : σ) (w : World) :
    (f.remove user ids).run.run faults state w =
      match f.memberOf user .delete with
      | .error e => (.error e, state, w)
      | .ok user =>
        (f.removeListed user ids (w.store.commentsByIds ids)).run.run faults state w := by
  rw [remove_run_of fun state c => congrArg Prod.fst (hfaults state c), hfaults]

/-- Where no call to the store fails, a removal does everything or nothing. The order of the ids and
their repetitions make no difference, as long as the failures of components do not depend on calls
to the store. -/
theorem remove_exact {σ : Type} (faults : Faults σ)
    (hfaults : ∀ state c, (faults state (.store c)).1 = none)
    {allowed : Forum → Operation → Prop} (hw : Reached allowed w) (f : Forum)
    (user : Option UserId) (ids : List CommentId) (state : σ) :
    let run (ids : List CommentId) := (f.remove user ids).run.run faults state w
    (match (run ids).1 with
      | .error _ => (run ids).2.2 = w
      | .ok n => RemovesExactly w ids n (run ids).2.2) ∧
    ∀ ids', (∀ id, id ∈ ids' ↔ id ∈ ids) → (∀ state c, (faults state (.store c)).2 = state) →
      (run ids').1.toOption = (run ids).1.toOption ∧ (run ids').2.2 = (run ids).2.2 := by
  intro run
  have h := Store.forest_of_reached hw
  constructor
  · obtain ⟨done, left, hremoved, hr⟩ :=
      Program.ends_run (Faults.isHost_of_isSome hfaults) (remove_ends h f user ids) state
    split
    next e he =>
      rw [he] at hr
      rcases hr with rfl | ⟨x, -, hx⟩
      · exact hremoved.nothing
      · exact hx.elim
    next n hn =>
      rw [hn] at hr
      obtain ⟨rfl, hlisted, rfl⟩ := hr
      exact hremoved.everything h hlisted
  · intro ids' hids hunaware
    have hnever (state : σ) (c : StoreCall) : faults state (.store c) = (none, state) :=
      Prod.ext (hfaults state c) (hunaware state c)
    have hrecords : w.store.commentsByIds ids' = w.store.commentsByIds ids := by
      apply List.filter_congr
      intro c _
      rw [Bool.eq_iff_iff, List.contains_iff_mem, List.contains_iff_mem, hids]
    have hmissing : (missingIds ids' (w.store.commentsByIds ids)).isEmpty =
        (missingIds ids (w.store.commentsByIds ids)).isEmpty := by
      rw [Bool.eq_iff_iff, missingIds_isEmpty, missingIds_isEmpty]
      exact forall_congr' fun id => imp_congr (hids id) Iff.rfl
    simp only [run, remove_run hnever, hrecords]
    cases f.memberOf user .delete with
    | error e => exact ⟨rfl, rfl⟩
    | ok user =>
      simp only [removeListed, hmissing]
      split
      · exact ⟨rfl, rfl⟩
      · exact ⟨rfl, rfl⟩

/-- Two threads, with two replies in the second of them. -/
def twoThreads : World :=
  ((World.after {} (.wiki .wiki) (.postToWiki 4 [none, none])).after (.wiki .wiki)
    (.postToWiki 5 [some 1, some 2, some 2])).after (.wiki .wiki)
      (.vote (some 6) { key := ⟨"wiki", "talk", 1, 1⟩, comment := 4, upvote := true })

theorem reached_twoThreads : Reached (fun _ _ => True) twoThreads :=
  ((Reached.start.after trivial).after trivial).after trivial

theorem remove_exact_twoThreads :
    let w' := (((Forum.wiki .wiki).remove (some 7) [4, 1, 3, 4]).run.run Faults.never ()
      twoThreads).2.2
    Reached (fun _ _ => True) twoThreads ∧ RemovesExactly twoThreads [4, 1, 3, 4] 3 w' ∧
      w'.store.comments.map (fun c => (c.id, c.replies)) = [(2, 1), (5, 0)] := by
  have h := (remove_exact Faults.never (fun _ _ => rfl) reached_twoThreads
    (.wiki .wiki) (some 7) [4, 1, 3, 4] ()).1
  exact ⟨reached_twoThreads, h, by decide⟩

/-- A removal that ends with an error has removed the first of the comments with their replies, and
told of them, and there are others left. It has left everything as it was just when no call to the
store was carried out that removes anything. -/
theorem remove_failed {σ : Type} (faults : Faults σ) {allowed : Forum → Operation → Prop}
    (hw : Reached allowed w) (f : Forum) (user : Option UserId) (ids : List CommentId) (state : σ)
    {e : Error} (he : ((f.remove user ids).run.run faults state w).1 = .error e) :
    let w' := ((f.remove user ids).run.run faults state w).2.2
    let writes := writesOf ((f.remove user ids).run.carried faults state w)
    (∃ done left, Removed w.store [] w (w.store.commentsByIds ids) done left writes w' ∧
      (done ≠ [] → left ≠ [])) ∧
    ((w'.store.comments = w.store.comments ∧ w'.store.votes = w.store.votes ∧
      w'.store.choices = w.store.choices) ↔ writes = []) := by
  intro w' writes
  have h := Store.forest_of_reached hw
  obtain ⟨done, left, hremoved, hr⟩ := (remove_ends h f user ids).run_any faults state
  rw [he] at hr
  refine ⟨⟨done, left, hremoved, ?_⟩, ?_, ?_⟩
  · rintro hdone rfl
    rcases hr with hnone | ⟨x, hx, -⟩
    · exact hdone hnone
    · cases hx
  · rintro ⟨hcomments, -, -⟩
    rw [show writes = _ from hremoved.calls]
    cases done with
    | nil => rfl
    | cons x done =>
      have hx : x ∈ w.store.comments := by
        have hmem : x ∈ w.store.commentsByIds ids := hremoved.split ▸ List.mem_cons_self
        exact List.mem_of_mem_filter hmem
      rw [← hcomments, hremoved.store] at hx
      exact absurd hx (Store.not_mem_without List.mem_cons_self)
  · intro hnone
    have hdone : done = [] := List.map_eq_nil_iff.1 (hremoved.calls.symm.trans hnone)
    subst hdone
    rw [show w' = w from hremoved.nothing]
    exact ⟨rfl, rfl, rfl⟩

/-- The second removal from the store fails. -/
def secondRemovalFails : Faults Nat := fun seen c =>
  match c with
  | .store (.removeThread _ _) => (if seen = 1 then some "disk full" else none, seen + 1)
  | _ => (none, seen)

theorem remove_failed_twoThreads :
    let run := ((Forum.wiki .wiki).remove (some 7) [1, 2]).run.run secondRemovalFails 0 twoThreads
    Reached (fun _ _ => True) twoThreads ∧ run.1 = .error (.storage "disk full") ∧
      ∃ done left calls, Removed twoThreads.store [] twoThreads
        (twoThreads.store.commentsByIds [1, 2]) done left calls run.2.2 ∧
          (done ≠ [] → left ≠ []) := by
  intro run
  have herror : run.1 = .error (.storage "disk full") := rfl
  obtain ⟨⟨done, left, hremoved⟩, -⟩ := remove_failed secondRemovalFails reached_twoThreads
    (.wiki .wiki) (some 7) [1, 2] 0 herror
  exact ⟨reached_twoThreads, herror, done, left, _, hremoved⟩

/-- The first thread is gone although the removal of both threads ends with an error. -/
theorem remove_stuck_twoThreads :
    let run := ((Forum.wiki .wiki).remove (some 7) [1, 2]).run.run secondRemovalFails 0 twoThreads
    Reached (fun _ _ => True) twoThreads ∧ run.1 = .error (.storage "disk full") ∧
      run.2.2.store.comments ≠ twoThreads.store.comments := by
  intro run
  have hleft : run.2.2.store.comments.map (·.id) = [2, 4, 5] := by decide
  have hall : twoThreads.store.comments.map (·.id) = [1, 2, 3, 4, 5] := by decide
  refine ⟨reached_twoThreads, rfl, fun hsame => ?_⟩
  rw [hsame, hall] at hleft
  exact absurd hleft (by decide)

end Forum

end Discussion
