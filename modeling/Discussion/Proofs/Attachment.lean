import Discussion.Proofs.Thread
import Discussion.Proofs.Counters

namespace Discussion.Store

variable {s : Store} {id : CommentId} {user : UserId} {key : SectionKey}

theorem choices_add (s : Store) (r : StoredComment) : (s.add r).2.choices = s.choices := by
  unfold add
  cases r.replyTo <;> rfl

theorem mem_votes_castVote {upvote : Bool} {v : Vote} :
    v ∈ (s.castVote id user upvote).2.votes ↔
      if v = ⟨id, user⟩ then upvote = true else v ∈ s.votes := by
  unfold castVote
  split
  next hsame =>
    split
    next hv =>
      rw [hv, ← hsame]
      exact List.contains_iff_mem.symm
    next hv => rfl
  next hchange =>
    cases upvote with
    | true =>
      change v ∈ s.votes ++ [_] ↔ _
      rw [List.mem_append, List.mem_singleton]
      split
      next hv => exact ⟨fun _ => rfl, fun _ => .inr hv⟩
      next hv => exact ⟨fun h => h.resolve_right hv, .inl⟩
    | false =>
      change v ∈ s.votes.filter _ ↔ _
      rw [List.mem_filter, bne_iff_ne]
      split
      next hv => exact ⟨fun h => (h.2 hv).elim, nofun⟩
      next hv => exact and_iff_left hv

theorem choices_castVote (s : Store) (id : CommentId) (user : UserId) (upvote : Bool) :
    (s.castVote id user upvote).2.choices = s.choices := by
  unfold castVote
  dsimp only
  split
  · rfl
  · split <;> rfl

theorem votes_choose (s : Store) (user : UserId) (key : SectionKey) (comment : Option CommentId)
    (status : Delivery) : (s.choose user key comment status).votes = s.votes := by
  unfold choose
  dsimp only
  split <;> rfl

theorem isChoice_iff {comment : Option CommentId} {t : Choice} : isChoice user key comment t ↔
    t.user = user ∧ t.key = key ∧ t.comment = choiceTarget comment := by
  rw [isChoice, Bool.and_eq_true, Bool.and_eq_true, beq_iff_eq, beq_iff_eq, beq_iff_eq, and_assoc]

/-- A choice for a whole section is kept under the number zero, which no comment has. -/
theorem choiceTarget_inj {a b : Option CommentId} (ha : a ≠ some 0) (hb : b ≠ some 0) :
    choiceTarget a = choiceTarget b ↔ a = b := by
  cases a with
  | none =>
    cases b with
    | none => exact ⟨fun _ => rfl, fun _ => rfl⟩
    | some n => exact ⟨fun h => (hb (congrArg some h.symm)).elim, nofun⟩
  | some m =>
    cases b with
    | none => exact ⟨fun h => (ha (congrArg some h)).elim, nofun⟩
    | some n => exact ⟨congrArg some, Option.some.inj⟩

theorem mem_choices_choose {comment : Option CommentId} {status : Delivery} {t : Choice} :
    t ∈ (s.choose user key comment status).choices ↔
      if isChoice user key comment t then status ≠ .default ∧ t.status = status
      else t ∈ s.choices := by
  have hnew : t = ⟨user, key, choiceTarget comment, status⟩ ↔
      isChoice user key comment t ∧ t.status = status := by
    rw [isChoice_iff]
    cases t
    simp only [Choice.mk.injEq, and_assoc]
  unfold choose
  split
  next hdefault =>
    change t ∈ s.choices.filter _ ↔ _
    rw [List.mem_filter, Bool.not_eq_true']
    split
    next ht => rw [ht]; exact ⟨fun h => (nomatch h.2), fun h => (h.1 hdefault).elim⟩
    next ht => exact and_iff_left (Bool.eq_false_iff.2 ht)
  next hstatus =>
    change t ∈ s.choices.filter _ ++ [_] ↔ _
    rw [List.mem_append, List.mem_singleton, List.mem_filter, Bool.not_eq_true', hnew]
    split
    next ht =>
      rw [ht]
      exact ⟨fun h => ⟨hstatus, (h.resolve_left fun h => (nomatch h.2)).2⟩,
        fun h => .inr ⟨rfl, h.2⟩⟩
    next ht =>
      rw [Bool.eq_false_iff.2 ht]
      exact ⟨fun h => (h.resolve_right fun h => (nomatch h.1)).1, fun h => .inl ⟨h, rfl⟩⟩

theorem choices_answer (s : Store) (c : StoreCall) :
    (s.answer c).2.choices.Sublist s.choices ∨
      ∃ user key comment status, c = .choose user key comment status := by
  cases c with
  | add r =>
    refine .inl ?_
    rw [answer, choices_add]
  | removeThread id replyTo =>
    refine .inl ?_
    rw [answer, choices_removeThread]
    exact List.filter_sublist
  | removeSelected | removeComponent | removeContexts | forgetChoices =>
    exact .inl List.filter_sublist
  | castVote id user upvote =>
    refine .inl ?_
    rw [answer, choices_castVote]
  | choose user key comment status => exact .inr ⟨user, key, comment, status, rfl⟩
  | _ => exact .inl (List.Sublist.refl _)

/-- Votes and choices for comments stand for stored comments, and a choice for one of its section. -/
structure Attached (s : Store) : Prop where
  votes : ∀ v ∈ s.votes, ∃ k ∈ s.identities, k.id = v.comment
  choices : ∀ t ∈ s.choices, t.comment ≠ 0 →
    ∃ k ∈ s.identities, k.id = t.comment ∧ k.key = t.key

theorem attached_empty : Attached {} where
  votes := fun _ h => nomatch h
  choices := fun _ h => nomatch h

theorem Attached.add (h : s.Attached) (r : StoredComment) : (s.add r).2.Attached where
  votes := by
    intro v hv
    rw [votes_add] at hv
    obtain ⟨k, hk, hid⟩ := h.votes v hv
    rw [identities_add]
    exact ⟨k, List.mem_append_left _ hk, hid⟩
  choices := by
    intro t ht hcomment
    rw [choices_add] at ht
    obtain ⟨k, hk, hid⟩ := h.choices t ht hcomment
    rw [identities_add]
    exact ⟨k, List.mem_append_left _ hk, hid⟩

theorem Attached.of_subset {t : Store} (h : s.Attached) (hcomments : t.identities = s.identities)
    (hvotes : t.votes ⊆ s.votes) (hchoices : t.choices ⊆ s.choices) : t.Attached where
  votes := by
    rw [hcomments]
    exact fun v hv => h.votes v (hvotes hv)
  choices := by
    rw [hcomments]
    exact fun c hc => h.choices c (hchoices hc)

theorem Attached.revise (h : s.Attached) (r : StoredComment) : (s.revise r).2.Attached :=
  h.of_subset (s.identities_revise r) (List.Subset.refl _) (List.Subset.refl _)

theorem Numbered.goes (hn : s.Numbered) {k : Identity} (hk : k ∈ s.identities)
    (head : CommentId) : s.goes head k.id = (k.id == head || k.replyTo == some head) := by
  obtain ⟨c, hc, rfl⟩ := List.mem_map.1 hk
  rw [Store.goes]
  exact congrArg (c.id == head || ·) (hn.anyWithId _ hc)

theorem Numbered.goes_zero (hn : s.Numbered) {head : CommentId} (hhead : 0 < head) :
    s.goes head 0 = false := by
  rw [Store.goes, Bool.or_eq_false_iff, beq_eq_false_iff_ne, Store.anyWithId, List.any_eq_false]
  refine ⟨Int.ne_of_lt hhead, fun c hc hzero => ?_⟩
  have hid := beq_iff_eq.1 (Bool.and_eq_true_iff.1 hzero).2
  exact Int.ne_of_gt (hn.issued _ (mem_identities hc)).1 hid

theorem Numbered.id_ne_add (hn : s.Numbered) {k : Identity} (hk : k ∈ s.identities)
    (row : StoredComment) : k.id ≠ (s.add row).1 := by
  have hnew : (s.add row).1 = s.lastId + 1 :=
    adds_fresh (c := .add row) (List.mem_singleton_self _)
  have hle := (hn.issued k hk).2
  lia

theorem Numbered.mem_identities_removeThread (hn : s.Numbered) {replyTo : Option CommentId}
    {k : Identity} (hk : k ∈ s.identities) (hgoes : s.goes id k.id = false) :
    k ∈ (s.removeThread id replyTo).2.identities := by
  rw [identities_removeThread, List.mem_filter, ← hn.goes hk, hgoes]
  exact ⟨hk, rfl⟩

theorem Attached.removeThread (h : s.Attached) (hn : s.Numbered) (id : CommentId)
    (replyTo : Option CommentId) : (s.removeThread id replyTo).2.Attached where
  votes := by
    intro v hv
    rw [votes_removeThread] at hv
    obtain ⟨hv, hkept⟩ := List.mem_filter.1 hv
    obtain ⟨k, hk, hid⟩ := h.votes v hv
    rw [Bool.not_eq_true', ← hid] at hkept
    exact ⟨k, hn.mem_identities_removeThread hk hkept, hid⟩
  choices := by
    intro t ht hcomment
    rw [choices_removeThread] at ht
    obtain ⟨ht, hkept⟩ := List.mem_filter.1 ht
    obtain ⟨k, hk, hid, hkey⟩ := h.choices t ht hcomment
    rw [Bool.not_eq_true', ← hid] at hkept
    exact ⟨k, hn.mem_identities_removeThread hk hkept, hid, hkey⟩

/-- Choices are removed by their own section, votes by the section of their comment. -/
theorem Attached.removeSections (h : s.Attached) (hn : s.Numbered) (p : SectionKey → Bool) :
    (s.removeSections p).2.Attached where
  votes := by
    intro v hv
    obtain ⟨hv, hkept⟩ := List.mem_filter.1 hv
    obtain ⟨_, hk, hid⟩ := h.votes v hv
    obtain ⟨c, hc, rfl⟩ := List.mem_map.1 hk
    have hsection : s.anyWithId (p ·.key) v.comment = p c.key :=
      hid ▸ hn.anyWithId (p ·.key) hc
    rw [hsection] at hkept
    rw [identities_removeSections]
    exact ⟨c.identity, List.mem_filter.2 ⟨hk, hkept⟩, hid⟩
  choices := by
    intro t ht hcomment
    obtain ⟨ht, hkept⟩ := List.mem_filter.1 ht
    obtain ⟨k, hk, hid, hkey⟩ := h.choices t ht hcomment
    rw [identities_removeSections]
    refine ⟨k, List.mem_filter.2 ⟨hk, ?_⟩, hid, hkey⟩
    rw [hkey]
    exact hkept

theorem Attached.removeThread_nothing (h : s.Attached) (hn : s.Numbered)
    {replyTo : Option CommentId} (hid : 0 < id) (hnothing : (s.removeThread id replyTo).1 = 0) :
    (s.removeThread id replyTo).2 = s := by
  rw [removeThread_fst, List.countP_eq_zero] at hnothing
  have hkept {c : StoredComment} (hc : c ∈ s.comments) : c.inThread id = false :=
    Bool.eq_false_iff.2 (hnothing c hc)
  have hgoes {k : Identity} (hk : k ∈ s.identities) : s.goes id k.id = false := by
    rw [hn.goes hk]
    obtain ⟨c, hc, rfl⟩ := List.mem_map.1 hk
    exact hkept hc
  have hhead : s.hasHead id = false := by
    rw [hasHead, List.any_eq_false]
    intro c hc hhead
    have hother := (Bool.or_eq_false_iff.1 (hkept hc)).1
    rw [hother] at hhead
    cases hhead
  refine Store.ext ?_ ?_ ?_ ?_ (s.people_removeThread id replyTo)
  · rw [comments_removeThread, hhead]
    simp only [Bool.false_eq_true, and_false, ↓reduceIte, StoredComment.addReplies_zero,
      List.map_id']
    exact List.filter_eq_self.2 fun c hc => by rw [hkept hc]; rfl
  · exact (s.lastId_answer (.removeThread id replyTo)).trans (Int.add_zero _)
  · rw [votes_removeThread]
    refine List.filter_eq_self.2 fun v hv => ?_
    obtain ⟨k, hk, hid⟩ := h.votes v hv
    rw [← hid, hgoes hk]
    rfl
  · rw [choices_removeThread]
    refine List.filter_eq_self.2 fun t ht => ?_
    rw [Bool.not_eq_true']
    by_cases hsection : t.comment = 0
    · rw [hsection]
      exact hn.goes_zero hid
    · obtain ⟨k, hk, hcomment, -⟩ := h.choices t ht hsection
      rw [← hcomment]
      exact hgoes hk

theorem castVote_unchanged {upvote : Bool} (h : (s.castVote id user upvote).1 = false) :
    (s.castVote id user upvote).2 = s := by
  unfold castVote at h ⊢
  dsimp only at h ⊢
  split at h
  next hsame => rw [if_pos hsame]
  · split at h <;> cases h

theorem Attached.castVote (h : s.Attached) {k : Identity} (hk : k ∈ s.identities) (user : UserId)
    (upvote : Bool) : (s.castVote k.id user upvote).2.Attached where
  votes := by
    intro v hv
    rw [identities_castVote]
    rw [mem_votes_castVote] at hv
    split at hv
    next heq =>
      rw [heq]
      exact ⟨k, hk, rfl⟩
    next => exact h.votes v hv
  choices := by
    rw [identities_castVote, choices_castVote]
    exact h.choices

theorem Attached.choose (h : s.Attached) (user : UserId) (key : SectionKey)
    {comment : Option CommentId}
    (hcomment : ∀ id ∈ comment, ∃ k ∈ s.identities, k.id = id ∧ k.key = key)
    (status : Delivery) : (s.choose user key comment status).Attached where
  votes := by
    rw [identities_choose, votes_choose]
    exact h.votes
  choices := by
    intro t ht hne
    rw [identities_choose]
    rw [mem_choices_choose] at ht
    split at ht
    next hnew =>
      obtain ⟨-, hkey, htarget⟩ := isChoice_iff.1 hnew
      rw [hkey, htarget]
      cases comment with
      | none => exact (hne htarget).elim
      | some id => exact hcomment id rfl
    next => exact h.choices t ht hne

end Discussion.Store
