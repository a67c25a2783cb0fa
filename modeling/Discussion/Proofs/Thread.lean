import Discussion.Proofs.Identity

namespace Discussion

attribute [ext] Store

/-- The comments of a thread are its head and the replies to it. -/
def StoredComment.inThread (head : CommentId) (c : StoredComment) : Bool :=
  c.id == head || c.replyTo == some head

def StoredComment.addReplies (c : StoredComment) (n : Int) : StoredComment :=
  { c with replies := c.replies + n }

@[simp] theorem StoredComment.addReplies_zero (c : StoredComment) : c.addReplies 0 = c := by
  simp only [addReplies, Int.add_zero]

namespace Store

variable {s : Store} {id : CommentId} {replyTo : Option CommentId} {c d : StoredComment}

/-- A comment with the id is stored and does not reply to itself. -/
def hasHead (s : Store) (id : CommentId) : Bool :=
  s.comments.any fun c => c.id == id && !c.replyTo == some id

theorem Numbered.pairwise (h : s.Numbered) : s.comments.Pairwise fun a b => a.id < b.id :=
  List.Pairwise.of_map StoredComment.identity (fun _ _ hlt => hlt) h.ordered

theorem Numbered.nodup_ids (h : s.Numbered) : (s.comments.map (·.id)).Nodup :=
  List.pairwise_map.2 (h.pairwise.imp fun hlt => Int.ne_of_lt hlt)

/-- An id belongs to one comment only, and none is left to be given away. All else that is stored
may be anything. -/
structure Keyed (s : Store) : Prop where
  single : (s.comments.map (·.id)).Nodup
  issued : ∀ c ∈ s.comments, c.id ≤ s.lastId

theorem Keyed.eq_of_id (h : s.Keyed) (hc : c ∈ s.comments) (hd : d ∈ s.comments)
    (hid : c.id = d.id) : c = d :=
  List.inj_on_of_nodup_map h.single hc hd hid

theorem map_id_identities (s : Store) : s.identities.map (·.id) = s.comments.map (·.id) := by
  rw [identities, List.map_map]
  rfl

theorem Keyed.answer (h : s.Keyed) (c : StoreCall) : (s.answer c).2.Keyed where
  single := by
    rw [← map_id_identities, identities_answer, List.map_append, List.nodup_append]
    refine ⟨?_, List.pairwise_map.2 (pairwise_adds.imp Int.ne_of_lt), ?_⟩
    · have hsingle := h.single
      rw [← map_id_identities] at hsingle
      exact hsingle.sublist (List.filter_sublist.map _)
    · rintro _ hold _ hnew heq
      obtain ⟨k, hk, rfl⟩ := List.mem_map.1 hold
      obtain ⟨l, hl, rfl⟩ := List.mem_map.1 hnew
      obtain ⟨d, hd, rfl⟩ := List.mem_map.1 (List.mem_of_mem_filter hk)
      have := h.issued d hd
      have := adds_fresh hl
      change d.id = l.id at heq
      lia
  issued := by
    intro d hd
    have hlast := s.lastId_answer c
    have hd := mem_identities hd
    rw [identities_answer] at hd
    change d.identity.id ≤ _
    rcases List.mem_append.1 hd with hd | hd
    · obtain ⟨e, he, heq⟩ := List.mem_map.1 (List.mem_of_mem_filter hd)
      have hissued := h.issued e he
      rw [← heq]
      change e.id ≤ _
      lia
    · have := adds_fresh hd
      have := List.length_pos_of_mem hd
      lia

theorem Numbered.keyed (h : s.Numbered) : s.Keyed where
  single := h.nodup_ids
  issued := fun _ hc => (h.issued _ (mem_identities hc)).2

theorem Numbered.eq_of_id (h : s.Numbered) (hc : c ∈ s.comments) (hd : d ∈ s.comments)
    (hid : c.id = d.id) : c = d :=
  h.keyed.eq_of_id hc hd hid

theorem Numbered.anyWithId (h : s.Numbered) (p : StoredComment → Bool) (hc : c ∈ s.comments) :
    s.anyWithId p c.id = p c := by
  rw [Bool.eq_iff_iff, Store.anyWithId, List.any_eq_true]
  constructor
  · rintro ⟨d, hd, hp⟩
    rw [Bool.and_eq_true, beq_iff_eq] at hp
    rw [← h.eq_of_id hd hc hp.2]
    exact hp.1
  · intro hp
    exact ⟨c, hc, by rw [hp, BEq.rfl]; rfl⟩

theorem comments_removeThread (s : Store) (id : CommentId) (replyTo : Option CommentId) :
    (s.removeThread id replyTo).2.comments =
      (s.comments.filter fun c => !c.inThread id).map fun c =>
        c.addReplies (if replyTo = some c.id ∧ s.hasHead id then -1 else 0) := by
  have hdrop : ((s.dropComments fun c => c.replyTo == some id).dropComments
      fun c => c.id == id).comments = s.comments.filter fun c => !c.inThread id := by
    simp only [dropComments, List.filter_filter, StoredComment.inThread, Bool.not_or]
  have hown : 0 < (s.dropComments fun c => c.replyTo == some id).comments.countP
      (·.id == id) ↔ s.hasHead id = true := by
    simp only [dropComments, hasHead, List.countP_pos_iff, List.mem_filter, List.any_eq_true,
      Bool.and_eq_true]
    constructor
    · rintro ⟨c, ⟨hc, hreply⟩, hid⟩
      exact ⟨c, hc, hid, hreply⟩
    · rintro ⟨c, hc, hid, hreply⟩
      exact ⟨c, ⟨hc, hreply⟩, hid⟩
  cases replyTo with
  | none =>
    simp only [reduceCtorEq, false_and, ↓reduceIte, StoredComment.addReplies_zero, List.map_id']
    exact hdrop
  | some parent =>
    simp only [removeThread]
    split
    next h =>
      refine (congrArg (List.map _) hdrop).trans (List.map_congr_left fun c _ => ?_)
      simp only [hown.1 h, and_true, Option.some.injEq]
      by_cases hc : c.id = parent
      · simp only [hc, ↓reduceIte, StoredComment.addReplies, Int.sub_eq_add_neg]
      · simp only [hc, Ne.symm hc, ↓reduceIte, StoredComment.addReplies_zero]
    next h =>
      simp only [mt hown.2 h, Bool.false_eq_true, and_false, ↓reduceIte,
        StoredComment.addReplies_zero, List.map_id']
      exact hdrop

/-- The comment with the id goes with the thread, if it is stored at all. -/
def goes (s : Store) (head : CommentId) (id : CommentId) : Bool :=
  id == head || s.anyWithId (·.replyTo == some head) id

theorem votes_removeThread (s : Store) (id : CommentId) (replyTo : Option CommentId) :
    (s.removeThread id replyTo).2.votes = s.votes.filter fun v => !s.goes id v.comment := by
  cases replyTo with
  | none => rfl
  | some parent =>
    simp only [removeThread]
    split <;> rfl

theorem choices_removeThread (s : Store) (id : CommentId) (replyTo : Option CommentId) :
    (s.removeThread id replyTo).2.choices = s.choices.filter fun t => !s.goes id t.comment := by
  cases replyTo with
  | none => rfl
  | some parent =>
    simp only [removeThread]
    split <;> rfl

theorem people_removeThread (s : Store) (id : CommentId) (replyTo : Option CommentId) :
    (s.removeThread id replyTo).2.people = s.people := by
  cases replyTo with
  | none => rfl
  | some parent =>
    simp only [removeThread]
    split <;> rfl

theorem removeThread_fst (s : Store) (id : CommentId) (replyTo : Option CommentId) :
    (s.removeThread id replyTo).1 = s.comments.countP fun c => c.inThread id := by
  have hreplies : (s.comments.filter fun c => c.replyTo == some id).countP
      (fun c => c.inThread id) = s.comments.countP fun c => c.replyTo == some id := by
    rw [List.countP_filter]
    apply List.countP_congr
    intro c _
    simp only [StoredComment.inThread, Bool.and_eq_true, Bool.or_eq_true]
    exact ⟨And.right, fun h => ⟨.inr h, h⟩⟩
  have hown : (s.comments.filter fun c => !c.replyTo == some id).countP
      (fun c => c.inThread id) =
      (s.comments.filter fun c => !c.replyTo == some id).countP (·.id == id) := by
    apply List.countP_congr
    intro c hc
    have hreply := (List.mem_filter.1 hc).2
    rw [Bool.not_eq_true'] at hreply
    rw [StoredComment.inThread, hreply, Bool.or_false]
  rw [List.countP_eq_countP_filter_add _ _ fun c => c.replyTo == some id, hreplies, hown]
  exact Nat.add_comm _ _

end Store

end Discussion
