import Discussion.Proofs.Refusals

namespace Discussion

section Repetitions

variable {α : Type} {l : List α}

theorem eraseRepsBy_loop (r : α → α → Bool) (a : α) (l found : List α) :
    List.eraseRepsBy.loop r a l found = found.reverse ++ List.eraseRepsBy.loop r a l [] := by
  induction l generalizing a found with
  | nil => exact List.reverse_cons
  | cons b l ih =>
    unfold List.eraseRepsBy.loop
    split
    · exact ih a found
    · rw [ih b (a :: found), ih b [a], List.reverse_cons, List.append_assoc]
      rfl

/-- No other element stands between two equal ones. -/
def Gathered (l : List α) : Prop :=
  ∀ a b, [a, b, a].Sublist l → a = b

theorem gathered_cons_self {a : α} : Gathered (a :: a :: l) ↔ Gathered (a :: l) := by
  constructor
  · exact fun h b c hbc => h b c (hbc.cons a)
  · intro h b c hbc
    rcases List.cons_sublist_cons'.1 hbc with hbc | ⟨rfl, hcb⟩
    · exact h b c hbc
    · rcases List.cons_sublist_cons'.1 hcb with hcb | ⟨rfl, -⟩
      · exact h b c (hcb.cons_cons b)
      · rfl

theorem gathered_cons_cons {a b : α} (hab : a ≠ b) :
    Gathered (a :: b :: l) ↔ a ∉ b :: l ∧ Gathered (b :: l) := by
  constructor
  · intro h
    refine ⟨fun hmem => hab (h a b ?_), fun c d hcd => h c d (hcd.cons a)⟩
    have hlater : a ∈ l := (List.mem_cons.1 hmem).resolve_left hab
    exact .cons_cons a (.cons_cons b (List.singleton_sublist.2 hlater))
  · rintro ⟨hmem, h⟩ c d hcd
    rcases List.cons_sublist_cons'.1 hcd with hcd | ⟨rfl, hdc⟩
    · exact h c d hcd
    · exact (hmem (hdc.subset (List.mem_cons_of_mem d (List.mem_singleton_self c)))).elim

variable [BEq α] [LawfulBEq α]

theorem eraseReps_cons_self (a : α) (l : List α) :
    (a :: a :: l).eraseReps = (a :: l).eraseReps := by
  change List.eraseRepsBy.loop (· == ·) a (a :: l) [] = _
  unfold List.eraseRepsBy.loop
  rw [BEq.rfl]
  rfl

theorem eraseReps_cons_cons {a b : α} (hab : a ≠ b) (l : List α) :
    (a :: b :: l).eraseReps = a :: (b :: l).eraseReps := by
  change List.eraseRepsBy.loop (· == ·) a (b :: l) [] = _
  unfold List.eraseRepsBy.loop
  rw [beq_eq_false_iff_ne.2 hab]
  exact eraseRepsBy_loop _ b l [a]

theorem mem_eraseReps {a : α} : a ∈ l.eraseReps ↔ a ∈ l := by
  induction l with
  | nil => rfl
  | cons b l ih =>
    cases l with
    | nil => rfl
    | cons c l =>
      by_cases hbc : b = c
      · subst hbc
        rw [eraseReps_cons_self, ih]
        simp only [List.mem_cons, or_self_left]
      · rw [eraseReps_cons_cons hbc, List.mem_cons, ih, List.mem_cons (b := b)]

theorem eraseReps_eq_eraseDups_iff : l.eraseReps = l.eraseDups ↔ Gathered l := by
  induction l with
  | nil => exact ⟨fun _ a b h => (nomatch h), fun _ => rfl⟩
  | cons a l ih =>
    cases l with
    | nil =>
      refine ⟨fun _ b c h => ?_, fun _ => rfl⟩
      have hlength := h.length_le
      exact absurd hlength (by simp)
    | cons b l =>
      by_cases hab : a = b
      · subst hab
        rw [eraseReps_cons_self, gathered_cons_self, ← ih, List.eraseDups_cons,
          List.eraseDups_cons, List.filter_cons_of_neg (by simp)]
      · have hapart (h : a ∉ b :: l) : (b :: l).filter (fun c => !c == a) = b :: l := by
          apply List.filter_eq_self.2
          rintro c hc
          rw [beq_eq_false_iff_ne.2 (ne_of_mem_of_not_mem hc h)]
          rfl
        rw [eraseReps_cons_cons hab, gathered_cons_cons hab, List.eraseDups_cons, List.cons.injEq,
          ← ih, eq_self, true_and]
        constructor
        · intro h
          have hmem : a ∉ b :: l := by
            rw [← mem_eraseReps, h, List.mem_eraseDups, List.mem_filter, BEq.rfl]
            exact fun hmem => Bool.false_ne_true hmem.2
          rw [hapart hmem] at h
          exact ⟨hmem, h⟩
        · rintro ⟨hmem, h⟩
          rw [hapart hmem]
          exact h

end Repetitions

namespace Forum

variable {s : Store} {ids : List CommentId}

/-- Of the listed ids those under which nothing is stored, in the order of the list. -/
def absentIds (s : Store) (ids : List CommentId) : List CommentId :=
  ids.filter fun id => (s.comment? id).isNone

theorem mem_absentIds {id : CommentId} :
    id ∈ absentIds s ids ↔ id ∈ ids ∧ s.comment? id = none := by
  rw [absentIds, List.mem_filter, Option.isNone_iff_eq_none]

theorem missingIds_commentsByIds :
    missingIds ids (s.commentsByIds ids) = (absentIds s ids).eraseReps := by
  refine congrArg List.eraseReps (List.filter_congr fun id hid => ?_)
  rw [Bool.eq_iff_iff, Bool.not_eq_true', List.any_eq_false, Option.isNone_iff_eq_none,
    Store.comment?, List.find?_eq_none]
  constructor
  · intro h c hc hcid
    refine h c (List.mem_filter.2 ⟨hc, ?_⟩) hcid
    rw [beq_iff_eq.1 hcid]
    exact List.contains_iff_mem.2 hid
  · exact fun h c hc => h c (List.mem_of_mem_filter hc)

/-- When the comments are read, nothing is missing any more. -/
theorem removeAll_failsOnly (f : Forum) (user : UserId) (records : List StoredComment) :
    (f.removeAll user records).FailsOnly fun e => ∀ missing, e ≠ .missing missing := by
  have hstorage (failure : String) (missing : List CommentId) :
      Error.storage failure ≠ .missing missing := nofun
  have hsection (key : SectionKey) :
      (f.sectionOf key).FailsOnly fun e => ∀ missing, e ≠ .missing missing := by
    refine .bind (.lift ?_) fun a => .bind (.host hstorage _ _) fun host => .pure _
    unfold area
    split
    · exact nofun
    · rintro _ ⟨⟩ missing
      exact nofun
  have hcapability (sec : Section) (e : Error) :
      sec.capability f.site (some user) = .error e → ∀ missing, e ≠ .missing missing := by
    unfold Section.capability Settings.editingTime
    dsimp only
    split
    · exact nofun
    · rintro ⟨⟩ missing
      exact nofun
  refine .bind (.mapM (fun record => ?_) _) fun targets =>
    .bind (.mapM (fun t => t.1.delete_failsOnly hstorage t.2) _) fun counts => .pure _
  refine .bind (hsection _) fun sec => .bind (.lift (hcapability sec)) fun cap => ?_
  dsimp only
  split
  · exact .throw nofun
  · exact .pure _

/-- Where no call to the store fails, a user's removal from a site with comments enabled ends with
missing comments just when something that is listed is not stored, whatever the user may remove of
the rest, and then nothing has changed. The error names what is missing in the order of the list,
and nothing else. Of equal ids in a row it names one; so it names each once, by where it is listed
first, just where no other missing id stands between two that are equal. -/
theorem remove_missing_iff {σ : Type} (faults : Faults σ)
    (hfaults : ∀ state c, (faults state (.store c)).1 = none) (f : Forum)
    (henabled : f.site.settings.enabled) (user : UserId) (ids : List CommentId) (state : σ)
    (w : World) :
    let run := (f.remove (some user) ids).run.run faults state w
    let absent := absentIds w.store ids
    (∀ missing, run.1 = .error (.missing missing) ↔
      absent ≠ [] ∧ missing = absent.eraseReps) ∧
    (absent ≠ [] → run.2.2 = w) ∧
    (∀ id, id ∈ absent.eraseReps ↔ id ∈ ids ∧ w.store.comment? id = none) ∧
    (absent.eraseReps = absent.eraseDups ↔ Gathered absent) := by
  intro run absent
  have hmember : f.memberOf (some user) .delete = .ok user := if_pos henabled
  have hrun : run = (f.removeListed user ids (w.store.commentsByIds ids)).run.run faults
      (faults state (.store (.commentsByIds ids))).2 w := by
    change (f.remove (some user) ids).run.run faults state w = _
    rw [remove_run_of hfaults, hmember]
  rw [removeListed, missingIds_commentsByIds] at hrun
  have hempty : absent.eraseReps.isEmpty ↔ absent = [] := List.isEmpty_iff.trans eraseReps_eq_nil
  refine ⟨fun missing => ?_, fun habsent => ?_, fun id => ?_, eraseReps_eq_eraseDups_iff⟩
  · by_cases habsent : absent = []
    · rw [if_pos (hempty.2 habsent)] at hrun
      rw [hrun]
      refine ⟨fun he => ?_, fun h => (h.1 habsent).elim⟩
      exact ((f.removeAll_failsOnly user _).run faults _ he missing rfl).elim
    · rw [if_neg (mt hempty.1 habsent)] at hrun
      rw [hrun]
      constructor
      · rintro ⟨⟩
        exact ⟨habsent, rfl⟩
      · rintro ⟨-, rfl⟩
        rfl
  · rw [if_neg (mt hempty.1 habsent)] at hrun
    rw [hrun]
    rfl
  · exact mem_eraseReps.trans mem_absentIds

theorem remove_missing_iff_twoThreads :
    let f := Forum.wiki .wiki
    let run := (f.remove (some 7) [9, 1, 9, 8]).run.run Faults.never () twoThreads
    f.site.settings.enabled ∧ (∀ state c, (Faults.never state (.store c)).1 = none) ∧
      run.1 = .error (.missing [9, 8]) ∧ run.2.2 = twoThreads := by
  intro f run
  have henabled : f.site.settings.enabled := rfl
  obtain ⟨hmissing, hsame, -⟩ := remove_missing_iff Faults.never (fun _ _ => rfl) f henabled 7
    [9, 1, 9, 8] () twoThreads
  exact ⟨henabled, fun _ _ => rfl, (hmissing [9, 8]).2 ⟨by decide, by decide⟩, hsame (by decide)⟩

/-- A missing id is named twice, as another missing one stands between. -/
theorem remove_missing_repeated :
    let run := ((Forum.wiki .wiki).remove (some 7) [9, 8, 9]).run.run Faults.never () twoThreads
    Reached (fun _ _ => True) twoThreads ∧ run.1 = .error (.missing [9, 8, 9]) ∧
      ¬[9, 8, 9].Nodup :=
  ⟨reached_twoThreads, rfl, by decide⟩

end Forum

end Discussion
