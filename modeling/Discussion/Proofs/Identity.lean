import Discussion.Program
import Mathlib.Data.List.Nodup

namespace Discussion

/-- What stays the same of a comment as long as it is stored. -/
structure Identity where
  id : CommentId
  key : SectionKey
  author : UserId
  timeCreated : Instant
  replyTo : Option CommentId
deriving DecidableEq, Repr

def StoredComment.identity (c : StoredComment) : Identity :=
  ⟨c.id, c.key, c.author, c.timeCreated, c.replyTo⟩

def Store.identities (s : Store) : List Identity :=
  s.comments.map (·.identity)

/-- The comments that a call removes. -/
def StoreCall.removes : StoreCall → Identity → Bool
  | .removeThread id _, c => c.id == id || c.replyTo == some id
  | .removeSelected f, c =>
    f.coversSection c.key && f.parent.covers c.replyTo && f.coversSecond c.timeCreated.seconds
  | .removeComponent component, c => c.key.component == component
  | .removeContexts contexts, c => contexts.contains c.key.context
  | _, _ => false

/-- The comment that a call adds. -/
def StoreCall.adds (s : Store) : StoreCall → List Identity
  | .add r => [⟨(s.add r).1, r.key, r.author, r.timeCreated.floor, r.replyTo⟩]
  | _ => []

namespace Store

variable {s : Store} {c : StoreCall}

theorem mem_identities {c : StoredComment} (h : c ∈ s.comments) : c.identity ∈ s.identities :=
  List.mem_map_of_mem h

theorem find?_identities (s : Store) (id : CommentId) :
    s.identities.find? (·.id == id) = (s.comment? id).map (·.identity) := by
  rw [identities, List.find?_map]
  rfl

theorem exists_comment {id : CommentId} {key : SectionKey} {replyTo : Option CommentId} :
    (∃ c ∈ s.comments, c.id = id ∧ c.key = key ∧ c.replyTo = replyTo) ↔
      ∃ k ∈ s.identities, k.id = id ∧ k.key = key ∧ k.replyTo = replyTo := by
  simp only [identities, List.mem_map, exists_exists_and_eq_and]
  rfl

theorem identities_mapComment {id : CommentId} {f : StoredComment → StoredComment}
    (hf : ∀ c, (f c).identity = c.identity) : (s.mapComment id f).identities = s.identities := by
  simp only [identities, mapComment, List.map_map]
  apply List.map_congr_left
  intro c _
  simp only [Function.comp]
  split
  · exact hf c
  · rfl

theorem identities_dropComments {p : StoredComment → Bool} {q : Identity → Bool}
    (h : ∀ c, p c = q c.identity) :
    (s.dropComments p).identities = s.identities.filter fun c => !q c := by
  simp only [identities, dropComments, List.filter_map, Function.comp_def, h]

theorem identities_add (s : Store) (r : StoredComment) :
    (s.add r).2.identities = s.identities ++ StoreCall.adds s (.add r) := by
  have hid : (s.add r).1 = s.lastId + 1 := by
    unfold add
    cases r.replyTo <;> rfl
  simp only [StoreCall.adds, hid]
  unfold add
  cases r.replyTo with
  | none => exact List.map_append
  | some parent =>
    refine (identities_mapComment ?_).trans List.map_append
    exact fun _ => rfl

theorem identities_revise (s : Store) (r : StoredComment) :
    (s.revise r).2.identities = s.identities :=
  identities_mapComment fun _ => rfl

theorem identities_removeThread (s : Store) (id : CommentId) (replyTo : Option CommentId) :
    (s.removeThread id replyTo).2.identities =
      s.identities.filter fun c => !(c.id == id || c.replyTo == some id) := by
  have hdrop (s : Store) : ((s.dropComments fun c => c.replyTo == some id).dropComments
      fun c => c.id == id).identities =
      s.identities.filter fun c => !(c.id == id || c.replyTo == some id) := by
    apply (identities_dropComments (q := fun c => c.id == id) fun _ => rfl).trans
    apply (congrArg _ (identities_dropComments (q := fun c => c.replyTo == some id)
      fun _ => rfl)).trans
    simp only [List.filter_filter, Bool.not_or]
  cases replyTo with
  | none => exact hdrop _
  | some parent =>
    simp only [removeThread]
    split
    · refine (identities_mapComment ?_).trans (hdrop _)
      exact fun _ => rfl
    · exact hdrop _

theorem identities_removeSections (s : Store) (p : SectionKey → Bool) :
    (s.removeSections p).2.identities = s.identities.filter fun c => !p c.key :=
  identities_dropComments (q := fun c => p c.key) fun _ => rfl

theorem identities_castVote (s : Store) (id : CommentId) (user : UserId) (upvote : Bool) :
    (s.castVote id user upvote).2.identities = s.identities := by
  unfold castVote
  dsimp only
  split
  · rfl
  · split <;> exact identities_mapComment fun _ => rfl

theorem identities_withdrawVotes (s : Store) (user : UserId) :
    (s.withdrawVotes user).2.identities = s.identities := by
  simp only [identities, withdrawVotes, List.map_map]
  apply List.map_congr_left
  intro c _
  simp only [Function.comp]
  split <;> rfl

theorem identities_choose (s : Store) (user : UserId) (key : SectionKey)
    (comment : Option CommentId) (status : Delivery) :
    (s.choose user key comment status).identities = s.identities := by
  unfold choose
  dsimp only
  split <;> rfl

/-- Whatever is asked of a store, some comments go, one may come, and the others keep their
identities. -/
theorem identities_answer (s : Store) (c : StoreCall) :
    (s.answer c).2.identities = (s.identities.filter fun k => !c.removes k) ++ c.adds s := by
  have hsame {t : Store} (h : t.identities = s.identities) :
      t.identities = (s.identities.filter fun _ => !false) ++ [] := by
    rw [h, List.append_nil, Bool.not_false, List.filter_true]
  have hfilter {t : Store} {p : Identity → Bool} (h : t.identities = s.identities.filter p) :
      t.identities = s.identities.filter p ++ [] := by
    rw [h, List.append_nil]
  cases c with
  | add r =>
    apply (identities_add s r).trans
    simp only [StoreCall.removes, Bool.not_false, List.filter_true]
  | revise r => exact hsame (identities_revise s r)
  | removeThread id replyTo => exact hfilter (identities_removeThread s id replyTo)
  | removeSelected f => exact hfilter (identities_dropComments fun _ => rfl)
  | removeComponent component => exact hfilter (identities_removeSections s _)
  | removeContexts contexts => exact hfilter (identities_removeSections s _)
  | castVote id user upvote => exact hsame (identities_castVote s id user upvote)
  | withdrawVotes user => exact hsame (identities_withdrawVotes s user)
  | choose user key comment status => exact hsame (identities_choose s user key comment status)
  | _ => exact hsame rfl

theorem lastId_answer (s : Store) (c : StoreCall) :
    (s.answer c).2.lastId = s.lastId + (c.adds s).length := by
  have hsame {t : Store} (h : t.lastId = s.lastId) : t.lastId = s.lastId + (0 : Nat) := by
    rw [h, Int.natCast_zero, Int.add_zero]
  cases c with
  | add r =>
    change (s.add r).2.lastId = s.lastId + 1
    unfold add
    cases r.replyTo <;> rfl
  | removeThread id replyTo =>
    apply hsame
    cases replyTo with
    | none => rfl
    | some parent =>
      change (s.removeThread id (some parent)).2.lastId = s.lastId
      simp only [removeThread]
      split <;> rfl
  | castVote id user upvote =>
    apply hsame
    change (s.castVote id user upvote).2.lastId = s.lastId
    unfold castVote
    dsimp only
    split
    · rfl
    · split <;> rfl
  | choose user key comment status =>
    apply hsame
    change (s.choose user key comment status).lastId = s.lastId
    unfold choose
    dsimp only
    split <;> rfl
  | _ => exact hsame rfl

/-- The ids of the stored comments increase, and none is larger than the last one given away. -/
structure Numbered (s : Store) : Prop where
  ordered : s.identities.Pairwise fun a b => a.id < b.id
  issued : ∀ c ∈ s.identities, 0 < c.id ∧ c.id ≤ s.lastId
  started : 0 ≤ s.lastId

theorem numbered_empty : Numbered {} where
  ordered := List.Pairwise.nil
  issued := fun _ h => nomatch h
  started := Int.le_refl 0

theorem adds_fresh {k : Identity} (h : k ∈ c.adds s) : k.id = s.lastId + 1 := by
  cases c with
  | add r =>
    rw [List.mem_singleton.1 h]
    change (s.add r).1 = _
    unfold add
    cases r.replyTo <;> rfl
  | _ => cases h

theorem pairwise_adds : (c.adds s).Pairwise fun a b => a.id < b.id := by
  cases c with
  | add r => exact List.pairwise_singleton _ _
  | _ => exact List.Pairwise.nil

/-- An id is never given away twice, whatever is asked of the store. -/
theorem Numbered.answer (h : s.Numbered) (c : StoreCall) : (s.answer c).2.Numbered := by
  have hlast := s.lastId_answer c
  refine ⟨?_, ?_, ?_⟩
  · rw [identities_answer, List.pairwise_append]
    refine ⟨h.ordered.sublist List.filter_sublist, pairwise_adds, ?_⟩
    intro a ha b hb
    have := (h.issued a (List.mem_of_mem_filter ha)).2
    have := adds_fresh hb
    lia
  · intro a ha
    rw [identities_answer] at ha
    rcases List.mem_append.1 ha with ha | ha
    · have := h.issued a (List.mem_of_mem_filter ha)
      lia
    · have := adds_fresh ha
      have := h.started
      have := List.length_pos_of_mem ha
      lia
  · have := h.started
    lia

end Store

end Discussion
