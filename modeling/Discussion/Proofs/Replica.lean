import Discussion.Proofs.Attachment
import Discussion.Proofs.Removal

namespace Discussion

/-- What a listener keeps who hears of every event: the comments with their sections and targets, the
votes, and what users have chosen. -/
structure Replica where
  comments : CommentId → Option (SectionKey × Option CommentId)
  votes : CommentId → UserId → Bool
  choices : UserId → SectionKey → Option CommentId → Option Delivery

namespace Replica

def empty : Replica where
  comments _ := none
  votes _ _ := false
  choices _ _ _ := none

/-- The comment is the deleted one, or it is recorded as a reply to it. -/
def goes (r : Replica) (deleted id : CommentId) : Bool :=
  id == deleted || (r.comments id).any fun c => c.2 == some deleted

/-- A deletion is told of the head of a thread only, so that the replies are looked up. -/
def hear (r : Replica) : Event → Replica
  | .created key comment replyTo _ =>
    { r with comments := fun id => if id = comment then some (key, replyTo) else r.comments id }
  | .updated .. => r
  | .deleted _ comment =>
    { comments := fun id => if r.goes comment id then none else r.comments id
      votes := fun id user => r.votes id user && !r.goes comment id
      choices := fun user key id => if id.any (r.goes comment) then none else r.choices user key id }
  | .voted _ comment voter upvoted =>
    { r with votes := fun id user => if id = comment ∧ user = voter then upvoted else r.votes id user }
  | .chosen sec comment chooser status =>
    { r with
      choices := fun user key id =>
        if user = chooser ∧ key = sec ∧ id = comment then
          if status = .default then none else some status
        else r.choices user key id }

def ofEvents (events : List Event) : Replica :=
  events.foldl hear empty

/-- The replica holds what is stored and nothing else. Choices for whole sections stand under no
comment, as no comment has the id zero. -/
structure Mirrors (r : Replica) (s : Store) : Prop where
  comments : ∀ id key replyTo, r.comments id = some (key, replyTo) ↔
    ∃ c ∈ s.comments, c.id = id ∧ c.key = key ∧ c.replyTo = replyTo
  votes : ∀ id user, r.votes id user ↔ ⟨id, user⟩ ∈ s.votes
  choices : ∀ user key comment status, r.choices user key comment = some status ↔
    comment ≠ some 0 ∧ ⟨user, key, Store.choiceTarget comment, status⟩ ∈ s.choices

variable {r : Replica} {s : Store}

theorem mirrors_empty : empty.Mirrors {} where
  comments := fun _ _ _ => ⟨nofun, fun ⟨_, h, _⟩ => nomatch h⟩
  votes := fun _ _ => ⟨nofun, fun h => nomatch h⟩
  choices := fun _ _ _ _ => ⟨nofun, fun h => nomatch h.2⟩

theorem Mirrors.comments_iff (h : r.Mirrors s) {id : CommentId} {key : SectionKey}
    {replyTo : Option CommentId} : r.comments id = some (key, replyTo) ↔
      ∃ k ∈ s.identities, k.id = id ∧ k.key = key ∧ k.replyTo = replyTo := by
  rw [h.comments, Store.exists_comment]

theorem Mirrors.goes (h : r.Mirrors s) (head id : CommentId) : r.goes head id = s.goes head id := by
  have hreply : ((r.comments id).any fun c => c.2 == some head) =
      s.anyWithId (·.replyTo == some head) id := by
    rw [Bool.eq_iff_iff, Option.any_eq_true, Store.anyWithId, List.any_eq_true]
    constructor
    · rintro ⟨⟨key, replyTo⟩, hrecorded, hhead⟩
      obtain ⟨c, hc, hid, -, rfl⟩ := (h.comments id key replyTo).1 hrecorded
      exact ⟨c, hc, Bool.and_eq_true_iff.2 ⟨hhead, beq_iff_eq.2 hid⟩⟩
    · rintro ⟨c, hc, hboth⟩
      obtain ⟨hhead, hid⟩ := Bool.and_eq_true_iff.1 hboth
      exact ⟨_, (h.comments id c.key c.replyTo).2 ⟨c, hc, beq_iff_eq.1 hid, rfl, rfl⟩, hhead⟩
  rw [Replica.goes, hreply]
  rfl

theorem Mirrors.of_comments (h : r.Mirrors s) {t : Store} {id : CommentId} {key : SectionKey}
    {replyTo : Option CommentId} (ht : t.identities = s.identities) :
    r.comments id = some (key, replyTo) ↔
      ∃ c ∈ t.comments, c.id = id ∧ c.key = key ∧ c.replyTo = replyTo := by
  rw [h.comments_iff, ← ht, Store.exists_comment]

theorem Mirrors.created (h : r.Mirrors s) (hn : s.Numbered) (row : StoredComment) (user : UserId) :
    (r.hear (.created row.key (s.add row).1 row.replyTo user)).Mirrors (s.add row).2 where
  comments := by
    intro id key replyTo
    change (if id = (s.add row).1 then some (row.key, row.replyTo) else r.comments id) = _ ↔ _
    rw [Store.exists_comment, Store.identities_add]
    split
    next hid =>
      constructor
      · rintro ⟨⟩
        exact ⟨_, List.mem_append_right _ (List.mem_singleton_self _), hid.symm, rfl, rfl⟩
      · rintro ⟨k, hk, rfl, rfl, rfl⟩
        rcases List.mem_append.1 hk with hold | hnew
        · exact (hn.id_ne_add hold row hid).elim
        · rw [List.mem_singleton.1 hnew]
    next hid =>
      rw [h.comments_iff]
      constructor
      · rintro ⟨k, hk, hboth⟩
        exact ⟨k, List.mem_append_left _ hk, hboth⟩
      · rintro ⟨k, hk, rfl, hboth⟩
        rcases List.mem_append.1 hk with hold | hnew
        · exact ⟨k, hold, rfl, hboth⟩
        · rw [List.mem_singleton.1 hnew] at hid
          exact (hid rfl).elim
  votes := by
    intro id voter
    rw [Store.votes_add]
    exact h.votes id voter
  choices := by
    rw [Store.choices_add]
    exact h.choices

theorem Mirrors.updated (h : r.Mirrors s) (row : StoredComment) : r.Mirrors (s.revise row).2 where
  comments := fun _ _ _ => h.of_comments (s.identities_revise row)
  votes := h.votes
  choices := h.choices

theorem Mirrors.deleted (h : r.Mirrors s) (hn : s.Numbered) (key : SectionKey) {head : CommentId}
    (hhead : 0 < head) (replyTo : Option CommentId) :
    (r.hear (.deleted key head)).Mirrors (s.removeThread head replyTo).2 where
  comments := by
    intro id key target
    change (if r.goes head id then none else r.comments id) = _ ↔ _
    rw [Store.exists_comment, h.goes, Store.identities_removeThread]
    constructor
    · intro hrecorded
      split at hrecorded
      · cases hrecorded
      next hkept =>
        obtain ⟨k, hk, rfl, rfl, rfl⟩ := h.comments_iff.1 hrecorded
        rw [hn.goes hk, Bool.not_eq_true] at hkept
        exact ⟨k, List.mem_filter.2 ⟨hk, by rw [hkept]; rfl⟩, rfl, rfl, rfl⟩
    · rintro ⟨k, hk, rfl, rfl, rfl⟩
      obtain ⟨hk, hkept⟩ := List.mem_filter.1 hk
      rw [← hn.goes hk, Bool.not_eq_true'] at hkept
      rw [hkept]
      exact h.comments_iff.2 ⟨k, hk, rfl, rfl, rfl⟩
  votes := by
    intro id user
    change (r.votes id user && !r.goes head id) = true ↔ _
    rw [Bool.and_eq_true, h.votes, h.goes, Store.votes_removeThread, List.mem_filter]
  choices := by
    intro user key comment status
    change (if comment.any (r.goes head) then none else r.choices user key comment) = _ ↔ _
    have hgoes : comment.any (r.goes head) = s.goes head (Store.choiceTarget comment) := by
      cases comment with
      | none => exact (hn.goes_zero hhead).symm
      | some id => exact h.goes head id
    rw [hgoes, Store.choices_removeThread, List.mem_filter, ← and_assoc,
      ← h.choices user key comment status]
    cases s.goes head (Store.choiceTarget comment) with
    | true => exact ⟨nofun, fun h => nomatch h.2⟩
    | false => exact (and_iff_left rfl).symm

theorem Mirrors.voted (h : r.Mirrors s) (key : SectionKey) (id : CommentId) (user : UserId)
    (upvote : Bool) : (r.hear (.voted key id user upvote)).Mirrors (s.castVote id user upvote).2 where
  comments := fun _ _ _ => h.of_comments (s.identities_castVote id user upvote)
  votes := by
    intro i u
    change (if i = id ∧ u = user then upvote else r.votes i u) = true ↔ _
    simp only [Store.mem_votes_castVote, Vote.mk.injEq]
    split
    · rfl
    · exact h.votes i u
  choices := by
    rw [Store.choices_castVote]
    exact h.choices

theorem Mirrors.chosen (h : r.Mirrors s) (key : SectionKey) {comment : Option CommentId}
    (hcomment : comment ≠ some 0) (user : UserId) (status : Delivery) :
    (r.hear (.chosen key comment user status)).Mirrors (s.choose user key comment status) where
  comments := fun _ _ _ => h.of_comments (s.identities_choose user key comment status)
  votes := by
    rw [Store.votes_choose]
    exact h.votes
  choices := by
    intro u k c t
    change (if u = user ∧ k = key ∧ c = comment then if status = .default then none else some status
      else r.choices u k c) = _ ↔ _
    by_cases hne : c = some 0
    · rw [if_neg fun hc => hcomment (hc.2.2.symm.trans hne), h.choices, hne]
      exact ⟨fun h => (h.1 rfl).elim, fun h => (h.1 rfl).elim⟩
    · simp only [Store.mem_choices_choose, Store.isChoice_iff, Store.choiceTarget_inj hne hcomment]
      split
      · split
        next hdefault => exact ⟨nofun, fun h => (h.2.1 hdefault).elim⟩
        next hstatus =>
          exact ⟨fun h => ⟨hne, hstatus, (Option.some.inj h).symm⟩, fun h => by rw [h.2.2]⟩
      · exact h.choices u k c t

/-- What every operation that tells of its changes keeps. -/
structure Faithful (w : World) : Prop where
  numbered : w.store.Numbered
  attached : w.store.Attached
  mirrors : (ofEvents w.events).Mirrors w.store

theorem faithful_empty : Faithful {} where
  numbered := Store.numbered_empty
  attached := Store.attached_empty
  mirrors := mirrors_empty

theorem ofEvents_concat (events : List Event) (event : Event) :
    ofEvents (events ++ [event]) = (ofEvents events).hear event :=
  List.foldl_concat ..

variable {w : World}

theorem Faithful.tell (hn : s.Numbered) (ha : s.Attached) {event : Event}
    (hm : ((ofEvents w.events).hear event).Mirrors s) :
    Faithful { store := s, events := w.events ++ [event] } where
  numbered := hn
  attached := ha
  mirrors := by
    rw [ofEvents_concat]
    exact hm

theorem Faithful.created (h : Faithful w) (row : StoredComment) (user : UserId) :
    Faithful { store := (w.store.add row).2
               events := w.events ++ [.created row.key (w.store.add row).1 row.replyTo user] } :=
  .tell (h.numbered.answer (.add row)) (h.attached.add row) (h.mirrors.created h.numbered row user)

/-- The listener has missed nothing when a deletion is not told that finds nothing to delete. -/
theorem Faithful.removed (h : Faithful w) (key : SectionKey) {x : StoredComment} (hx : 0 < x.id) :
    Faithful { store := (w.store.removeThread x.id x.replyTo).2
               events := w.events ++ if 0 < (w.store.removeThread x.id x.replyTo).1
                 then [.deleted key x.id] else [] } := by
  split
  · exact .tell (h.numbered.answer (.removeThread x.id x.replyTo))
      (h.attached.removeThread h.numbered _ _) (h.mirrors.deleted h.numbered key hx _)
  next hnothing =>
    have hzero := Nat.eq_zero_of_not_pos hnothing
    rw [List.append_nil, h.attached.removeThread_nothing h.numbered hx hzero]
    exact h

theorem Faithful.voted (h : Faithful w) (key : SectionKey) {k : Identity}
    (hk : k ∈ w.store.identities) (user : UserId) (upvote : Bool) :
    Faithful { store := (w.store.castVote k.id user upvote).2
               events := w.events ++ [.voted key k.id user upvote] } :=
  .tell (h.numbered.answer (.castVote k.id user upvote)) (h.attached.castVote hk user upvote)
    (h.mirrors.voted key k.id user upvote)

theorem Faithful.chosen (h : Faithful w) (user : UserId) (key : SectionKey)
    {comment : Option CommentId}
    (hcomment : ∀ id ∈ comment, ∃ k ∈ w.store.identities, k.id = id ∧ k.key = key)
    (status : Delivery) :
    Faithful { store := w.store.choose user key comment status
               events := w.events ++ [.chosen key comment user status] } := by
  refine .tell (h.numbered.answer (.choose user key comment status))
    (h.attached.choose user key hcomment status) (h.mirrors.chosen key ?_ user status)
  rintro rfl
  obtain ⟨k, hk, hid, -⟩ := hcomment 0 rfl
  exact Int.ne_of_gt (h.numbered.issued k hk).1 hid

theorem Faithful.revised (h : Faithful w) (row : StoredComment) :
    Faithful { w with store := (w.store.revise row).2 } where
  numbered := h.numbered.answer (.revise row)
  attached := h.attached.revise row
  mirrors := h.mirrors.updated row

theorem commits_faithful : Commits Faithful where
  save := by
    intro s comment
    refine s.save_keeps comment ?_ ?_ ?_
    · intro hkey w hw _
      rw [← hkey]
      exact hw.created comment.packed.toStored comment.modifier
    · exact fun _ w hw => hw.revised comment.packed.toStored
    · intro w id hw
      exact .tell hw.numbered hw.attached hw.mirrors
  delete := by
    intro s x w hw hx w' hw'
    exact s.delete_ends x (fun _ _ => hw')
      (hw'.removed s.key (hw.numbered.issued _ (Store.mem_identities hx)).1)
  vote := by
    intro s x user upvote w hw hx _
    change Program.Ends _ (ExceptT.run (Action.store (.castVote x.id user upvote) >>= _)) _ _
    rw [Action.ends_bind]
    refine Action.ends_store (fun _ _ => hw) ?_
    have hvoted := hw.voted s.key (Store.mem_identities hx) user upvote
    dsimp only
    cases hchanged : (w.store.answer (.castVote x.id user upvote)).1 with
    | true => exact hvoted
    | false =>
      have hsame : (w.store.answer (.castVote x.id user upvote)).2 = w.store :=
        Store.castVote_unchanged hchanged
      rw [hsame]
      exact hw
  setStatus := by
    intro s user x status w hw hx
    have hcomment : ∀ id ∈ (x.map Comment.ofStored).bind (·.id),
        ∃ k ∈ w.store.identities, k.id = id ∧ k.key = s.key := by
      intro id hid
      obtain ⟨comment, hcomment, hid⟩ := Option.bind_eq_some_iff.1 hid
      obtain ⟨c, hc, rfl⟩ := Option.map_eq_some_iff.1 hcomment
      obtain rfl := Option.some.inj hid
      obtain ⟨hmem, hkey⟩ := hx c hc
      exact ⟨_, Store.mem_identities hmem, rfl, hkey⟩
    exact ⟨fun _ _ => hw, hw.chosen user s.key hcomment status⟩

/-- Whatever is asked about single comments, and whichever calls fail, who hears of every event knows
the stored comments with their sections and targets, the votes, and the choices. -/
theorem mirrors_of_reached {w : World} (hw : Reached (fun _ op => op.isSingle) w) :
    (ofEvents w.events).Mirrors w.store :=
  (commits_faithful.reached faithful_empty hw).mirrors

/-- The second of two threads stays, as its removal fails after the first is gone. -/
theorem mirrors_twoThreads_stuck :
    let w := (((Operation.remove (some 7) [1, 2]).action (.wiki .wiki)).run.run
      Forum.secondRemovalFails 0 Forum.twoThreads).2.2
    Reached (fun _ op => op.isSingle) w ∧ (ofEvents w.events).Mirrors w.store ∧
      w.store.comments.map (·.id) = [2, 4, 5] ∧
      w.events.getLast? = some (.deleted ⟨"wiki", "talk", 1, 1⟩ 1) := by
  intro w
  have hw : Reached (fun _ op => op.isSingle) w :=
    .operate (.wiki .wiki) _ _ 0 (((Reached.start.after rfl).after rfl).after rfl) rfl
  exact ⟨hw, mirrors_of_reached hw, by decide, by decide⟩

end Replica

end Discussion
