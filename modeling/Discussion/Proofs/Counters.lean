import Discussion.Proofs.Thread

namespace Discussion

namespace Store

variable {s t : Store} {id : CommentId} {c : StoredComment} {r : StoredComment}

/-- The number of stored replies to a comment. -/
def repliesTo (s : Store) (id : CommentId) : Nat :=
  s.comments.countP (·.replyTo == some id)

/-- The number of stored votes for a comment. -/
def votesFor (s : Store) (id : CommentId) : Nat :=
  s.votes.countP (·.comment == id)

/-- The counters of every stored comment agree with what is stored. -/
def Counted (s : Store) : Prop :=
  ∀ c ∈ s.comments, c.replies = s.repliesTo c.id ∧ c.upvotes = s.votesFor c.id

theorem repliesTo_identities (s : Store) (id : CommentId) :
    s.repliesTo id = s.identities.countP (·.replyTo == some id) := by
  rw [identities, List.countP_map]
  rfl

theorem repliesTo_answer (s : Store) (call : StoreCall) (id : CommentId) :
    (s.answer call).2.repliesTo id +
        s.identities.countP (fun k => k.replyTo == some id && call.removes k) =
      s.repliesTo id + (call.adds s).countP (·.replyTo == some id) := by
  have hsplit := List.countP_eq_countP_filter_add s.identities (·.replyTo == some id)
    call.removes
  rw [List.countP_filter] at hsplit
  rw [repliesTo_identities, repliesTo_identities, identities_answer, List.countP_append, hsplit]
  omega

theorem votesFor_dropVotes {p : CommentId → Bool} (h : p id = false) :
    (s.dropVotes p).votesFor id = s.votesFor id := by
  rw [votesFor, dropVotes, List.countP_filter]
  apply List.countP_congr
  intro v _
  simp only [Bool.and_eq_true, beq_iff_eq, Bool.not_eq_true', and_iff_left_iff_imp]
  intro hv
  rw [hv]
  exact h

theorem Counted.row {d : StoredComment} (h : s.Counted) (hc : c ∈ s.comments) (hid : d.id = c.id)
    (hreplies : d.replies + s.repliesTo c.id = c.replies + t.repliesTo c.id)
    (hupvotes : d.upvotes + s.votesFor c.id = c.upvotes + t.votesFor c.id) :
    d.replies = t.repliesTo d.id ∧ d.upvotes = t.votesFor d.id := by
  obtain ⟨hr, hu⟩ := h c hc
  rw [hid]
  constructor
  · omega
  · omega

/-- The row that is stored for a new comment. -/
def newRow (s : Store) (r : StoredComment) : StoredComment :=
  { r with
    id := s.lastId + 1
    timeCreated := r.timeCreated.floor
    timeModified := r.timeModified.floor }

theorem comments_add (s : Store) (r : StoredComment) :
    (s.add r).2.comments = (s.comments ++ [s.newRow r]).map fun c =>
      c.addReplies (if r.replyTo = some c.id then 1 else 0) := by
  unfold add
  dsimp only
  split
  next h =>
    change s.comments ++ [s.newRow r] = _
    simp only [h, reduceCtorEq, ↓reduceIte, StoredComment.addReplies_zero, List.map_id']
  next parent h =>
    apply List.map_congr_left (l := s.comments ++ [s.newRow r])
    intro c _
    by_cases hc : c.id = parent
    · simp only [h, hc, ↓reduceIte, StoredComment.addReplies]
    · simp only [h, hc, Option.some.injEq, Ne.symm hc, ↓reduceIte,
        StoredComment.addReplies_zero]

theorem votes_add (s : Store) (r : StoredComment) : (s.add r).2.votes = s.votes := by
  unfold add
  cases r.replyTo <;> rfl

theorem Counted.add (h : s.Counted)
    (hroot : ∀ k ∈ s.identities, ∀ p, k.replyTo = some p → p ≤ s.lastId)
    (hvote : ∀ v ∈ s.votes, v.comment ≤ s.lastId) (hreplies : r.replies = 0)
    (hupvotes : r.upvotes = 0) (hparent : ∀ p, r.replyTo = some p → p ≤ s.lastId) :
    (s.add r).2.Counted := by
  have hcount (id : CommentId) :
      (s.add r).2.repliesTo id = s.repliesTo id + if r.replyTo = some id then 1 else 0 := by
    have h := s.repliesTo_answer (.add r) id
    simp only [StoreCall.removes, StoreCall.adds, Bool.and_false, List.countP_false,
      Function.const_apply, Nat.add_zero, List.countP_singleton, beq_iff_eq] at h
    exact h
  have hvotes (id : CommentId) : (s.add r).2.votesFor id = s.votesFor id := by
    rw [votesFor, votes_add, votesFor]
  intro d hd
  rw [comments_add, List.mem_map] at hd
  obtain ⟨c, hc, rfl⟩ := hd
  rcases List.mem_append.1 hc with hc | hc
  · refine h.row hc rfl ?_ ?_
    · rw [hcount]
      simp only [StoredComment.addReplies]
      split <;> lia
    · rw [hvotes]
      rfl
  · rw [List.mem_singleton] at hc
    subst hc
    -- The id is new, so that no reply and no vote, not even of a comment that is gone, bears it.
    have hself : r.replyTo ≠ some (s.lastId + 1) := fun hp => by
      have := hparent _ hp
      lia
    have hnone : s.repliesTo (s.lastId + 1) = 0 := by
      rw [repliesTo_identities, List.countP_eq_zero]
      intro k hk hp
      have := hroot k hk _ (beq_iff_eq.1 hp)
      lia
    have hunvoted : s.votesFor (s.lastId + 1) = 0 := by
      rw [votesFor, List.countP_eq_zero]
      intro v hv hid
      have := hvote v hv
      have := beq_iff_eq.1 hid
      lia
    have hid : (s.newRow r).id = s.lastId + 1 := rfl
    simp only [StoredComment.addReplies, hid, hself, ↓reduceIte, Int.add_zero, hcount, hvotes,
      hnone, hunvoted]
    exact ⟨hreplies, hupvotes⟩

theorem Counted.revise (h : s.Counted) (r : StoredComment) : (s.revise r).2.Counted := by
  have hcount (id : CommentId) : (s.revise r).2.repliesTo id = s.repliesTo id := by
    rw [repliesTo_identities, identities_revise, repliesTo_identities]
  intro d hd
  obtain ⟨c, hc, rfl⟩ := List.mem_map.1 hd
  split
  · exact h.row hc rfl (by rw [hcount]) rfl
  · exact h.row hc rfl (by rw [hcount]) rfl

theorem Numbered.countP_at (h : s.Numbered) (p : StoredComment → Bool) (id : CommentId) :
    s.comments.countP (fun c => p c && c.id == id) = if s.anyWithId p id then 1 else 0 := by
  split
  next hany =>
    obtain ⟨x, hx, hboth⟩ := List.any_eq_true.1 hany
    rw [Bool.and_eq_true, beq_iff_eq] at hboth
    obtain ⟨hp, rfl⟩ := hboth
    have hone := List.count_eq_one_of_mem h.nodup_ids (List.mem_map_of_mem (f := (·.id)) hx)
    rw [List.count, List.countP_map] at hone
    rw [← hone]
    apply List.countP_congr
    intro c hc
    change (p c && c.id == x.id) = true ↔ (c.id == x.id) = true
    rw [Bool.and_eq_true, and_iff_right_iff_imp]
    intro hid
    rw [h.eq_of_id hc hx (beq_iff_eq.1 hid)]
    exact hp
  next hnone =>
    apply List.countP_eq_zero.2
    intro c hc hboth
    exact hnone (List.any_eq_true.2 ⟨c, hc, hboth⟩)

/-- Of a thread that goes, only the head can be a reply to a comment that stays. -/
theorem Numbered.repliesTo_removeThread {replyTo : Option CommentId} (hn : s.Numbered)
    (hhead : ∀ c ∈ s.comments, c.id = id → c.replyTo = replyTo) {i : CommentId} (hi : i ≠ id) :
    (s.removeThread id replyTo).2.repliesTo i +
      (if replyTo = some i ∧ s.hasHead id then 1 else 0) = s.repliesTo i := by
  have hcount := s.repliesTo_answer (.removeThread id replyTo) i
  have hother {c : StoredComment} (hc : c.replyTo = some i) : (c.replyTo == some id) = false := by
    rw [hc, beq_eq_false_iff_ne]
    exact fun h => hi (Option.some.inj h)
  have hlost : s.identities.countP (fun k => k.replyTo == some i &&
      (StoreCall.removeThread id replyTo).removes k) =
      s.comments.countP (fun c => c.replyTo == some i && c.id == id) := by
    rw [identities, List.countP_map]
    apply List.countP_congr
    intro c _
    change (c.replyTo == some i && (c.id == id || c.replyTo == some id)) = true ↔ _
    simp only [Bool.and_eq_true]
    refine and_congr_right fun hreply => ?_
    rw [hother (beq_iff_eq.1 hreply), Bool.or_false]
  have hwith : s.anyWithId (·.replyTo == some i) id = true ↔
      replyTo = some i ∧ s.hasHead id = true := by
    simp only [Store.anyWithId, hasHead, List.any_eq_true, Bool.and_eq_true, beq_iff_eq]
    constructor
    · rintro ⟨c, hc, hreply, hid⟩
      refine ⟨(hhead c hc hid).symm.trans hreply, c, hc, hid, ?_⟩
      rw [hother hreply]
      rfl
    · rintro ⟨hreply, c, hc, hid, -⟩
      exact ⟨c, hc, (hhead c hc hid).trans hreply, hid⟩
  rw [hlost, hn.countP_at] at hcount
  simp only [hwith] at hcount
  exact hcount

/-- A thread takes its votes along, and its head counts no longer where it was a reply. -/
theorem Counted.removeThread {replyTo : Option CommentId} (h : s.Counted) (hn : s.Numbered)
    (hhead : ∀ c ∈ s.comments, c.id = id → c.replyTo = replyTo) :
    (s.removeThread id replyTo).2.Counted := by
  intro d hd
  rw [comments_removeThread, List.mem_map] at hd
  obtain ⟨c, hc, rfl⟩ := hd
  obtain ⟨hc, hkept⟩ := List.mem_filter.1 hc
  rw [Bool.not_eq_true', StoredComment.inThread, Bool.or_eq_false_iff,
    beq_eq_false_iff_ne] at hkept
  have hgoes : s.goes id c.id = false := by
    rw [goes, hn.anyWithId _ hc, hkept.2, beq_eq_false_iff_ne.2 hkept.1]
    rfl
  have hvotes : (s.removeThread id replyTo).2.votesFor c.id = s.votesFor c.id := by
    rw [votesFor, votes_removeThread]
    exact votesFor_dropVotes hgoes
  refine h.row hc rfl ?_ ?_
  · have := hn.repliesTo_removeThread hhead hkept.1
    simp only [StoredComment.addReplies]
    split at this <;> lia
  · rw [hvotes]
    rfl

/-- Whole sections take their votes along, and replies stand in the section of their target. -/
theorem Counted.removeSections (h : s.Counted) (hn : s.Numbered) (p : SectionKey → Bool)
    (hkey : ∀ k ∈ s.comments, ∀ c ∈ s.comments, k.replyTo = some c.id → k.key = c.key) :
    (s.removeSections p).2.Counted := by
  intro c hc
  obtain ⟨hc, hkept⟩ := List.mem_filter.1 hc
  rw [Bool.not_eq_true'] at hkept
  refine h.row hc rfl ?_ ?_
  · have hreplies : (s.removeSections p).2.repliesTo c.id = s.repliesTo c.id := by
      rw [repliesTo, Store.removeSections, dropComments, List.countP_filter]
      apply List.countP_congr
      intro k hk
      simp only [Bool.and_eq_true, beq_iff_eq, Bool.not_eq_true', and_iff_left_iff_imp]
      intro hr
      rw [hkey k hk c hc hr]
      exact hkept
    rw [hreplies]
  · have hvotes : (s.removeSections p).2.votesFor c.id = s.votesFor c.id :=
      votesFor_dropVotes ((hn.anyWithId _ hc).trans hkept)
    rw [hvotes]

theorem countP_vote {l : List Vote} (h : l.Nodup) (id : CommentId) (user : UserId) :
    l.countP (fun v => v.comment == id && v.user == user) =
      if l.contains ⟨id, user⟩ then 1 else 0 := by
  have hcount := h.count (a := (⟨id, user⟩ : Vote))
  simp only [List.contains_iff_mem]
  rw [← hcount, List.count]
  apply List.countP_congr
  intro v _
  cases v
  simp only [Bool.and_eq_true, beq_iff_eq, Vote.mk.injEq]

/-- By how much a vote changes the number of votes for its comment. -/
def voteChange (s : Store) (id : CommentId) (user : UserId) (upvote : Bool) : Int :=
  if s.upvoted id user = upvote then 0 else if upvote then 1 else -1

theorem comments_castVote (s : Store) (id : CommentId) (user : UserId) (upvote : Bool) :
    (s.castVote id user upvote).2.comments = s.comments.map fun c =>
      if c.id = id then { c with upvotes := c.upvotes + s.voteChange id user upvote } else c := by
  unfold castVote voteChange
  split
  · simp only [Int.add_zero, ite_self, List.map_id']
  · split
    · rfl
    · rfl

theorem votesFor_castVote (hv : s.votes.Nodup) (id : CommentId) (user : UserId) (upvote : Bool)
    (i : CommentId) : ((s.castVote id user upvote).2.votesFor i : Int) =
      s.votesFor i + if i = id then s.voteChange id user upvote else 0 := by
  unfold castVote voteChange
  split
  · simp only [ite_self, Int.add_zero]
  next hchange =>
    cases upvote with
    | true =>
      change (((s.votes ++ [(⟨id, user⟩ : Vote)]).countP (·.comment == i) : Nat) : Int) = _
      rw [List.countP_append, List.countP_singleton, votesFor]
      by_cases hi : i = id
      · simp only [hi, BEq.rfl, ↓reduceIte, Int.natCast_add, Int.natCast_one]
      · simp only [hi, beq_eq_false_iff_ne.2 (Ne.symm hi), Bool.false_eq_true, ↓reduceIte,
          Int.natCast_add, Int.natCast_zero]
    | false =>
      have hmem : s.upvoted id user = true := by
        rwa [Bool.not_eq_false] at hchange
      have hone : (s.votes.filter (· == ⟨id, user⟩)).countP (·.comment == i) =
          if i = id then 1 else 0 := by
        rw [List.countP_filter]
        split
        next hi =>
          rw [← List.count_eq_one_of_mem hv (List.contains_iff_mem.1 hmem), List.count]
          apply List.countP_congr
          intro v _
          simp only [Bool.and_eq_true, beq_iff_eq, and_iff_right_iff_imp]
          intro hvote
          rw [hvote, hi]
        next hi =>
          refine List.countP_eq_zero.2 fun v _ hboth => hi ?_
          simp only [Bool.and_eq_true, beq_iff_eq] at hboth
          rw [← hboth.1, hboth.2]
      have hsplit := List.countP_eq_countP_filter_add s.votes (·.comment == i) (· == ⟨id, user⟩)
      rw [hone] at hsplit
      change (((s.votes.filter (· != ⟨id, user⟩)).countP (·.comment == i) : Nat) : Int) =
        (s.votes.countP (·.comment == i) : Nat) + _
      rw [hsplit]
      simp only [Bool.false_eq_true, ↓reduceIte, bne]
      split <;> omega

theorem Counted.castVote (h : s.Counted) (hv : s.votes.Nodup) (id : CommentId) (user : UserId)
    (upvote : Bool) : (s.castVote id user upvote).2.Counted := by
  intro d hd
  rw [comments_castVote, List.mem_map] at hd
  obtain ⟨c, hc, rfl⟩ := hd
  have hvotes := votesFor_castVote hv id user upvote c.id
  have hreplies : (s.castVote id user upvote).2.repliesTo c.id = s.repliesTo c.id := by
    rw [repliesTo_identities, identities_castVote, repliesTo_identities]
  split
  next hid =>
    rw [if_pos hid] at hvotes
    refine h.row hc rfl (by rw [hreplies]) ?_
    dsimp only
    lia
  next hid =>
    rw [if_neg hid] at hvotes
    apply h.row hc rfl (by rw [hreplies])
    lia

theorem Counted.withdrawVotes (h : s.Counted) (hv : s.votes.Nodup) (user : UserId) :
    (s.withdrawVotes user).2.Counted := by
  intro d hd
  obtain ⟨c, hc, rfl⟩ := List.mem_map.1 hd
  have hvotes : s.votesFor c.id = (s.withdrawVotes user).2.votesFor c.id +
      if s.upvoted c.id user then 1 else 0 := by
    have hsplit := List.countP_eq_countP_filter_add s.votes (·.comment == c.id) (·.user == user)
    rw [List.countP_filter, countP_vote hv, Nat.add_comm] at hsplit
    exact hsplit
  have hreplies : (s.withdrawVotes user).2.repliesTo c.id = s.repliesTo c.id := by
    rw [repliesTo_identities, identities_withdrawVotes, repliesTo_identities]
  split
  next hup =>
    rw [if_pos hup] at hvotes
    refine h.row hc rfl (by rw [hreplies]) ?_
    dsimp only
    lia
  next hup =>
    rw [if_neg hup] at hvotes
    exact h.row hc rfl (by rw [hreplies]) (by rw [hvotes]; rfl)

theorem covers_of_isWholeSections {f : Selection} (hf : f.isWholeSections) :
    f.covers = fun c : StoredComment => f.coversSection c.key := by
  simp only [Selection.isWholeSections, Bool.and_eq_true, beq_iff_eq,
    Option.isNone_iff_eq_none] at hf
  funext c
  simp only [Selection.covers, Selection.coversSecond, hf, ThreadLevel.covers, Option.all_none,
    Bool.and_true]

theorem removeSelected_whole {f : Selection} (hf : f.isWholeSections) :
    s.removeSelected f = s.removeSections f.coversSection := by
  simp only [removeSelected, removeSections, countSelected, covers_of_isWholeSections hf, hf,
    ↓reduceIte]

theorem Counted.choose (h : s.Counted) (user : UserId) (key : SectionKey)
    (comment : Option CommentId) (status : Delivery) :
    (s.choose user key comment status).Counted := by
  unfold Store.choose
  dsimp only
  split <;> exact h

theorem votes_answer (s : Store) (c : StoreCall) :
    (s.answer c).2.votes.Sublist s.votes ∨
      ∃ id user, c = .castVote id user true ∧ (⟨id, user⟩ : Vote) ∉ s.votes ∧
        (s.answer c).2.votes = s.votes ++ [⟨id, user⟩] := by
  cases c with
  | add r =>
    refine .inl ?_
    rw [answer, votes_add]
  | removeThread id replyTo =>
    refine .inl ?_
    rw [answer, votes_removeThread]
    exact List.filter_sublist
  | removeSelected f => exact .inl List.filter_sublist
  | removeComponent component => exact .inl List.filter_sublist
  | removeContexts contexts => exact .inl List.filter_sublist
  | castVote id user upvote =>
    simp only [answer, castVote]
    split
    · exact .inl (List.Sublist.refl _)
    next hchange =>
      cases upvote with
      | false => exact .inl List.filter_sublist
      | true =>
        refine .inr ⟨id, user, rfl, fun hmem => ?_, rfl⟩
        exact hchange (List.contains_iff_mem.2 hmem)
  | withdrawVotes user => exact .inl List.filter_sublist
  | choose user key comment status =>
    refine .inl ?_
    simp only [answer, choose]
    split <;> exact List.Sublist.refl _
  | _ => exact .inl (List.Sublist.refl _)

end Store

end Discussion
