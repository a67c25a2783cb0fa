import Discussion.Proofs.Chronicle
import Discussion.Proofs.Entries

namespace Discussion

/-- Row by row the second list is the first one, but for what an edit sets anew of the comment with
the id of the record. -/
def StoredComment.Rewords (r : StoredComment) : List StoredComment → List StoredComment → Prop :=
  List.Forall₂ fun c d =>
    if c.id = r.id then
      d.identity = c.identity ∧ d.replies = c.replies ∧ d.upvotes = c.upvotes ∧
        d.wording = r.wording ∧ d.modifier = r.modifier ∧ d.timeModified = r.timeModified.floor
    else d = c

/-- To store a record again tells whether the comment is there, and changes nothing but this
comment's words and who changed it when. What the record says of all else does not count. -/
structure Store.Revises (s : Store) (r : StoredComment) : Prop where
  told : (s.revise r).1 ↔ ∃ c ∈ s.comments, c.id = r.id
  comments : r.Rewords s.comments (s.revise r).2.comments
  lastId : (s.revise r).2.lastId = s.lastId
  votes : (s.revise r).2.votes = s.votes
  choices : (s.revise r).2.choices = s.choices
  people : (s.revise r).2.people = s.people

theorem Store.revises (s : Store) (r : StoredComment) : s.Revises r where
  told := by
    change s.comments.any (·.id == r.id) ↔ _
    simp only [List.any_eq_true, beq_iff_eq]
  comments := by
    rw [comments_revise, StoredComment.Rewords, List.forall₂_map_right_iff, List.forall₂_same]
    intro c _
    split
    · exact ⟨rfl, rfl, rfl, rfl, rfl, rfl⟩
    · rfl
  lastId := rfl
  votes := rfl
  choices := rfl
  people := rfl

namespace Chronicle

variable {h : Chronicle}

theorem issued_subset_run (h : Chronicle) (calls : List StoreCall) :
    h.issued ⊆ (h.run calls).issued := by
  induction calls generalizing h with
  | nil => exact List.Subset.refl h.issued
  | cons c calls ih => exact List.Subset.trans (List.subset_append_left _ _) (ih (h.after c))

theorem Faithful.lt_add (hf : h.Faithful) (r : StoredComment) {k : Identity} (hk : k ∈ h.issued) :
    k.id < (h.store.add r).1 := by
  have hnew : (h.store.add r).1 = h.store.lastId + 1 :=
    Store.adds_fresh (c := .add r) (List.mem_singleton_self _)
  have := hf.known k hk
  lia

theorem Faithful.identity_eq (hf : h.Faithful) (later : List StoreCall) {c d : StoredComment}
    (hc : c ∈ h.store.comments) (hd : d ∈ (h.run later).store.comments) (hid : d.id = c.id) :
    d.identity = c.identity := by
  have hlater := hf.run later
  exact hlater.eq_of_id (hlater.stored _ (Store.mem_identities hd))
    (h.issued_subset_run later (hf.stored _ (Store.mem_identities hc))) hid

theorem Faithful.gone_after (hf : h.Faithful) (c : StoreCall) {k : Identity} (hk : k ∈ h.issued)
    (hgone : k.id ∉ h.store.identities.map (·.id)) :
    k.id ∉ (h.after c).store.identities.map (·.id) := by
  intro hback
  obtain ⟨l, hl, hid⟩ := List.mem_map.1 hback
  rw [Chronicle.after, Store.identities_answer] at hl
  rcases List.mem_append.1 hl with hl | hl
  · exact hgone (hid ▸ List.mem_map_of_mem (List.mem_of_mem_filter hl))
  · have := Store.adds_fresh hl
    have := hf.known k hk
    lia

theorem Faithful.gone_run (hf : h.Faithful) (later : List StoreCall) {k : Identity}
    (hk : k ∈ h.issued) (hgone : k.id ∉ h.store.identities.map (·.id)) :
    k.id ∉ (h.run later).store.identities.map (·.id) := by
  induction later generalizing h with
  | nil => exact hgone
  | cons c later ih =>
    exact ih (hf.after c) (List.mem_append_left _ hk) (hf.gone_after c hk hgone)

/-- What comments are known by is given for good. -/
structure Permanent (h : Chronicle) : Prop where
  /-- Of two comments the one that was added later has the larger number. -/
  increasing : h.issued.Pairwise fun a b => a.id < b.id
  fresh : ∀ r, ∀ k ∈ h.issued, k.id < (h.store.add r).1
  added : ∀ r, r.issued (h.store.add r).1 ∈ (h.store.add r).2.identities
  kept : ∀ later, ∀ c ∈ h.store.comments, ∀ d ∈ (h.run later).store.comments,
    d.id = c.id → d.identity = c.identity
  gone : ∀ later, ∀ k ∈ h.issued, h.store.comment? k.id = none →
    (h.run later).store.comment? k.id = none
  revised : ∀ r, h.store.Revises r

theorem comment?_eq_none_iff {s : Store} {id : CommentId} :
    s.comment? id = none ↔ id ∉ s.identities.map (·.id) := by
  rw [Store.map_id_identities, Store.comment?, List.find?_eq_none]
  simp only [beq_iff_eq, List.mem_map, not_exists, not_and]

/-- Whatever is asked of a store and in whatever order: a new comment gets a number larger than all
that were given away, also where the newest comments are gone; a comment keeps its number, its
section, its author, its time and its target as long as it is there; a number does not come back;
and an edit touches nothing else, however old the copy that it was made from. -/
theorem permanent_run (calls : List StoreCall) : (run {} calls).Permanent := by
  have hf := faithful_empty.run calls
  exact {
    increasing := hf.increasing
    fresh := fun r _ hk => hf.lt_add r hk
    added := by
      intro r
      rw [Store.identities_add]
      exact List.mem_append_right _ (List.mem_singleton_self _)
    kept := fun later _ hc _ hd hid => hf.identity_eq later hc hd hid
    gone := fun later k hk hnone =>
      comment?_eq_none_iff.2 (hf.gone_run later hk (comment?_eq_none_iff.1 hnone))
    revised := fun r => Store.revises _ r }

/-- The last comment goes, and its number with it. -/
example : (run {} (busyCalls.take 4 ++ [.removeThread 2 none, .add default])).issued.map (·.id) =
    [1, 2, 3] := by
  decide

end Chronicle

end Discussion
