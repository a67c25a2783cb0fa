import Discussion.Proofs.Thread

namespace Discussion

variable {s t : Store}

/-- The stores hold the same, the votes perhaps in another order. -/
structure Store.Matches (s t : Store) : Prop where
  comments : t.comments = s.comments
  lastId : t.lastId = s.lastId
  votes : t.votes.Perm s.votes
  choices : t.choices = s.choices
  people : t.people = s.people

namespace Store.Matches

theorem eq_with (h : s.Matches t) : t = { s with votes := t.votes } := by
  cases s
  cases t
  obtain ⟨rfl, rfl, -, rfl, rfl⟩ := h
  rfl

theorem of_perm {votes : List Vote} (h : votes.Perm s.votes) : s.Matches { s with votes } :=
  ⟨rfl, rfl, h, rfl, rfl⟩

theorem answer (h : s.Matches t) (c : StoreCall) :
    (t.answer c).1 = (s.answer c).1 ∧ (s.answer c).2.Matches (t.answer c).2 := by
  obtain ⟨votes, rfl⟩ : ∃ votes, t = { s with votes } := ⟨t.votes, h.eq_with⟩
  replace h : votes.Perm s.votes := h.votes
  have hupvoted : { s with votes }.upvoted = s.upvoted := by
    funext id user
    exact h.contains_eq
  have hfilter (p : Vote → Bool) : (votes.filter p).Perm (s.votes.filter p) := h.filter p
  cases c with
  | add r =>
    simp only [Store.answer, Store.add]
    cases r.replyTo with
    | none => exact ⟨rfl, rfl, rfl, h, rfl, rfl⟩
    | some parent => exact ⟨rfl, rfl, rfl, h, rfl, rfl⟩
  | removeThread id replyTo =>
    have hlast (s : Store) : (s.removeThread id replyTo).2.lastId = s.lastId :=
      (s.lastId_answer (.removeThread id replyTo)).trans (Int.add_zero _)
    refine ⟨rfl, ?_, (hlast _).trans (hlast s).symm, ?_, ?_, ?_⟩
    · exact (comments_removeThread _ _ _).trans (comments_removeThread s _ _).symm
    · simp only [Store.answer, votes_removeThread]
      exact hfilter _
    · exact (choices_removeThread _ _ _).trans (choices_removeThread s _ _).symm
    · exact (people_removeThread _ _ _).trans (people_removeThread s _ _).symm
  | removeSelected f => exact ⟨rfl, rfl, rfl, hfilter _, rfl, rfl⟩
  | removeComponent component => exact ⟨rfl, rfl, rfl, hfilter _, rfl, rfl⟩
  | removeContexts contexts => exact ⟨rfl, rfl, rfl, hfilter _, rfl, rfl⟩
  | castVote id user upvote =>
    simp only [Store.answer, Store.castVote, hupvoted]
    split
    · exact ⟨rfl, .of_perm h⟩
    · split
      · exact ⟨rfl, rfl, rfl, h.append_right _, rfl, rfl⟩
      · exact ⟨rfl, rfl, rfl, hfilter _, rfl, rfl⟩
  | upvoted id user => exact ⟨congrFun (congrFun hupvoted id) user, .of_perm h⟩
  | withdrawVotes user =>
    refine ⟨h.countP_eq _, ?_, rfl, hfilter _, rfl, rfl⟩
    simp only [Store.answer, Store.withdrawVotes, hupvoted]
  | choose user key comment status =>
    refine ⟨rfl, ?_⟩
    simp only [Store.answer, Store.choose]
    split
    · exact ⟨rfl, rfl, h, rfl, rfl⟩
    · exact ⟨rfl, rfl, h, rfl, rfl⟩
  | _ => exact ⟨rfl, rfl, rfl, h, rfl, rfl⟩

/-- So nothing that is ever asked comes out differently. -/
theorem run {α σ : Type} (p : Program α) (faults : Faults σ) (state : σ) {w : World}
    (h : w.store.Matches t) :
    let run := p.run faults state w
    let run' := p.run faults state { w with store := t }
    run'.1 = run.1 ∧ run'.2.2.events = run.2.2.events ∧ run.2.2.store.Matches run'.2.2.store := by
  induction p generalizing state w t with
  | done a => exact ⟨rfl, rfl, h⟩
  | tell event next ih => exact ih state (w := ⟨w.store, w.events ++ [event]⟩) h
  | call c next ih =>
    simp only [Program.run]
    split
    next state' _ => exact ih _ state' h
    next state' _ =>
      cases c with
      | host handler question => exact ih _ state' h
      | store c =>
        obtain ⟨hanswer, hmatches⟩ := h.answer c
        simp only [World.answer, hanswer]
        exact ih _ state' (w := { w with store := (w.store.answer c).2 }) hmatches

end Store.Matches

end Discussion
