import Discussion.Proofs.Forest
import Discussion.Proofs.Counters

namespace Discussion

theorem StoredComment.addReplies_addReplies (c : StoredComment) (m n : Int) :
    (c.addReplies m).addReplies n = c.addReplies (m + n) := by
  simp only [addReplies, Int.add_assoc]

theorem countP_or {α : Type} {p q : α → Bool} (hpq : ∀ a, p a → q a = false) (l : List α) :
    l.countP (fun a => p a || q a) = l.countP p + l.countP q := by
  induction l with
  | nil => rfl
  | cons a l ih =>
    rw [List.countP_cons, List.countP_cons, List.countP_cons, ih]
    cases hp : p a with
    | true =>
      rw [hpq a hp]
      simp only [Bool.true_or, ↓reduceIte, Bool.false_eq_true]
      omega
    | false =>
      simp only [Bool.false_or, Bool.false_eq_true, ↓reduceIte]
      omega

def StoredComment.repliesToAny (ids : List CommentId) (c : StoredComment) : Bool :=
  c.replyTo.any ids.contains

/-- The comment is listed, or the one that it replies to is. -/
def StoredComment.goesWith (ids : List CommentId) (c : StoredComment) : Bool :=
  ids.contains c.id || c.repliesToAny ids

@[simp] theorem StoredComment.goesWith_nil (c : StoredComment) : c.goesWith [] = false := by
  cases h : c.replyTo <;> simp only [goesWith, repliesToAny, h] <;> rfl

theorem StoredComment.goesWith_concat (ids : List CommentId) (id : CommentId) (c : StoredComment) :
    c.goesWith (ids ++ [id]) = (c.goesWith ids || c.inThread id) := by
  rw [Bool.eq_iff_iff]
  cases h : c.replyTo with
  | none =>
    simp only [goesWith, repliesToAny, inThread, h, List.contains_append, Option.any_none,
      Bool.or_false, List.contains_cons, List.contains_nil, Bool.or_eq_true, beq_iff_eq,
      reduceCtorEq, or_false]
  | some p =>
    simp only [goesWith, repliesToAny, inThread, h, List.contains_append, Option.any_some,
      Bool.or_false, List.contains_cons, List.contains_nil, Bool.or_eq_true, beq_iff_eq,
      Option.some.injEq]
    exact or_or_or_comm

namespace Store

variable {s : Store} {ids : List CommentId} {c x : StoredComment}

/-- The number of replies to a comment that go with the listed comments. -/
def repliesGone (s : Store) (ids : List CommentId) (id : CommentId) : Nat :=
  s.comments.countP fun r => r.replyTo == some id && r.goesWith ids

/-- The store without the listed comments and the replies to them. The votes and choices for these
comments are gone as well, and their targets have as many replies less. -/
def without (s : Store) (ids : List CommentId) : Store :=
  let gone := s.anyWithId (·.goesWith ids)
  { s with
    comments := (s.comments.filter fun c => !c.goesWith ids).map fun c =>
      c.addReplies (-s.repliesGone ids c.id)
    votes := s.votes.filter fun v => !gone v.comment
    choices := s.choices.filter fun t => !gone t.comment }

theorem comments_without (s : Store) (ids : List CommentId) : (s.without ids).comments =
    (s.comments.filter fun c => !c.goesWith ids).map fun c =>
      c.addReplies (-s.repliesGone ids c.id) := rfl

theorem Forest.not_self (h : s.Forest) (hc : c ∈ s.comments) : c.replyTo ≠ some c.id := by
  intro hself
  obtain ⟨_, _, _, _, _, hlt⟩ := h.rooted c hc c.id hself
  exact Int.lt_irrefl _ hlt

theorem Forest.hasHead_without (h : s.Forest) (hx : x ∈ s.comments) (ids : List CommentId) :
    (s.without ids).hasHead x.id = !x.goesWith ids := by
  rw [Bool.eq_iff_iff, hasHead, List.any_eq_true]
  constructor
  · rintro ⟨d, hd, hid⟩
    obtain ⟨c, hc, rfl⟩ := List.mem_map.1 hd
    obtain ⟨hc, hkept⟩ := List.mem_filter.1 hc
    rw [Bool.and_eq_true, beq_iff_eq] at hid
    rw [← h.eq_of_id hc hx hid.1]
    exact hkept
  · intro hkept
    have hself := h.not_self hx
    refine ⟨_, List.mem_map_of_mem (List.mem_filter.2 ⟨hx, hkept⟩), ?_⟩
    rw [Bool.and_eq_true, Bool.not_eq_true', beq_eq_false_iff_ne]
    exact ⟨BEq.rfl, hself⟩

theorem Forest.repliesGone_concat (h : s.Forest) (hx : x ∈ s.comments) {id : CommentId}
    (hid : id ≠ x.id) : s.repliesGone (ids ++ [x.id]) id =
      s.repliesGone ids id + if x.replyTo = some id ∧ !x.goesWith ids then 1 else 0 := by
  -- A reply to a comment that stays is not in the thread of `x` unless it is `x` itself.
  have hcond (r : StoredComment) : (r.replyTo == some id && r.goesWith (ids ++ [x.id])) =
      (r.replyTo == some id && r.goesWith ids ||
        (r.replyTo == some id && !r.goesWith ids) && r.id == x.id) := by
    rw [StoredComment.goesWith_concat, StoredComment.inThread]
    by_cases hreply : r.replyTo = some id
    · have hother : (some id == some x.id) = false :=
        beq_eq_false_iff_ne.2 fun heq => hid (Option.some.inj heq)
      rw [hreply, hother, BEq.rfl]
      cases r.goesWith ids <;> simp only [Bool.true_and, Bool.true_or, Bool.false_or, Bool.or_false,
        Bool.not_true, Bool.not_false, Bool.false_and]
    · rw [beq_eq_false_iff_ne.2 hreply]
      rfl
  rw [repliesGone, funext hcond, countP_or, h.countP_at, h.anyWithId _ hx]
  · simp only [Bool.and_eq_true, beq_iff_eq]
    rfl
  · intro r hr
    rw [Bool.and_eq_true] at hr
    rw [hr.2, Bool.not_true, Bool.and_false, Bool.false_and]

/-- What goes with one thread more has gone already, or goes with the thread that is left. -/
theorem gone_concat (hx : x ∈ s.comments) (id : CommentId) :
    s.anyWithId (·.goesWith (ids ++ [x.id])) id =
      (s.anyWithId (·.goesWith ids) id || (s.without ids).goes x.id id) := by
  rw [Bool.eq_iff_iff]
  simp only [goes, anyWithId, without, List.any_map, List.any_filter, Function.comp_def,
    StoredComment.addReplies, Bool.or_eq_true, List.any_eq_true, Bool.and_eq_true, beq_iff_eq,
    Bool.not_eq_true', StoredComment.goesWith_concat, StoredComment.inThread]
  constructor
  · rintro ⟨c, hc, hgone | hid | hreply, rfl⟩
    · exact .inl ⟨c, hc, hgone, rfl⟩
    · exact .inr (.inl hid)
    · cases hgone : c.goesWith ids with
      | true => exact .inl ⟨c, hc, hgone, rfl⟩
      | false => exact .inr (.inr ⟨c, hc, hgone, hreply, rfl⟩)
  · rintro (⟨c, hc, hgone, rfl⟩ | rfl | ⟨c, hc, hkept, hreply, rfl⟩)
    · exact ⟨c, hc, .inl hgone, rfl⟩
    · exact ⟨x, hx, .inr (.inl rfl), rfl⟩
    · exact ⟨c, hc, .inr (.inr hreply), rfl⟩

theorem Forest.comments_removeThread (h : s.Forest) (hx : x ∈ s.comments)
    (ids : List CommentId) : ((s.without ids).removeThread x.id x.replyTo).2.comments =
      (s.without (ids ++ [x.id])).comments := by
  rw [Store.comments_removeThread, h.hasHead_without hx, comments_without, comments_without,
    List.filter_map, List.filter_filter, List.map_map]
  have hkept : (fun c : StoredComment => !c.goesWith (ids ++ [x.id])) = fun c =>
      ((fun c => !c.inThread x.id) ∘ fun c => c.addReplies (-s.repliesGone ids c.id)) c &&
        !c.goesWith ids := by
    funext c
    rw [StoredComment.goesWith_concat, Bool.not_or, Bool.and_comm]
    rfl
  rw [← hkept]
  apply List.map_congr_left
  intro c hc
  have hid : c.id ≠ x.id := by
    intro hid
    have hstays := (List.mem_filter.1 hc).2
    rw [StoredComment.goesWith_concat, StoredComment.inThread, hid, BEq.rfl, Bool.true_or,
      Bool.or_true] at hstays
    cases hstays
  rw [h.repliesGone_concat hx hid, Function.comp, StoredComment.addReplies_addReplies]
  congr 1
  change -(s.repliesGone ids c.id : Int) +
    (if x.replyTo = some c.id ∧ !x.goesWith ids then -1 else 0) = _
  split <;> omega

/-- To remove one thread more from what is left is to remove all of it at once. -/
theorem Forest.removeThread_without (h : s.Forest) (hx : x ∈ s.comments) (ids : List CommentId) :
    ((s.without ids).removeThread x.id x.replyTo).2 = s.without (ids ++ [x.id]) := by
  refine Store.ext ?_ ?_ ?_ ?_ ?_
  · exact h.comments_removeThread hx ids
  · exact ((s.without ids).lastId_answer (.removeThread x.id x.replyTo)).trans (Int.add_zero _)
  · rw [votes_removeThread, without, without, List.filter_filter]
    apply List.filter_congr
    intro v _
    rw [gone_concat hx, Bool.not_or, Bool.and_comm]
    rfl
  · rw [choices_removeThread, without, without, List.filter_filter]
    apply List.filter_congr
    intro t _
    rw [gone_concat hx, Bool.not_or, Bool.and_comm]
    rfl
  · exact people_removeThread _ _ _

theorem removeThread_without_fst (s : Store) (ids : List CommentId) (x : StoredComment) :
    ((s.without ids).removeThread x.id x.replyTo).1 + s.comments.countP (·.goesWith ids) =
      s.comments.countP (·.goesWith (ids ++ [x.id])) := by
  have hcond (c : StoredComment) : c.goesWith (ids ++ [x.id]) =
      (c.goesWith ids || (c.inThread x.id && !c.goesWith ids)) := by
    rw [StoredComment.goesWith_concat]
    cases c.goesWith ids with
    | true => rfl
    | false => rw [Bool.not_false, Bool.and_true]
  rw [funext hcond, countP_or, removeThread_fst, comments_without, List.countP_map,
    List.countP_filter, Nat.add_comm]
  · rfl
  · intro c hc
    rw [hc, Bool.not_true, Bool.and_false]

theorem Forest.removeThread_without_pos (h : s.Forest) (hx : x ∈ s.comments)
    (ids : List CommentId) :
    0 < ((s.without ids).removeThread x.id x.replyTo).1 ↔ x.goesWith ids = false := by
  rw [removeThread_fst, comments_without, List.countP_map, List.countP_pos_iff]
  constructor
  · rintro ⟨c, hc, hthread⟩
    obtain ⟨hc, hkept⟩ := List.mem_filter.1 hc
    rw [Bool.not_eq_true'] at hkept
    rcases Bool.or_eq_true_iff.1 hthread with hid | hreply
    · rwa [← h.eq_of_id hc hx (beq_iff_eq.1 hid)]
    · have hreply : c.replyTo = some x.id := beq_iff_eq.1 hreply
      obtain ⟨t, ht, hid, -, htop, -⟩ := h.rooted c hc x.id hreply
      rw [h.eq_of_id ht hx hid] at htop
      rw [StoredComment.goesWith, StoredComment.repliesToAny, hreply, Option.any_some,
        Bool.or_eq_false_iff] at hkept
      rw [StoredComment.goesWith, StoredComment.repliesToAny, hkept.2, htop]
      rfl
  · intro hkept
    refine ⟨x, List.mem_filter.2 ⟨hx, by rw [hkept]; rfl⟩, ?_⟩
    exact Bool.or_eq_true_iff.2 (.inl BEq.rfl)

theorem without_nil (s : Store) : s.without [] = s := by
  have hgone (id : CommentId) : s.anyWithId (·.goesWith []) id = false := by
    simp only [anyWithId, StoredComment.goesWith_nil, Bool.false_and, List.any_eq_false]
    exact fun _ _ => Bool.false_ne_true
  have hreplies (id : CommentId) : s.repliesGone [] id = 0 := by
    simp only [repliesGone, StoredComment.goesWith_nil, Bool.and_false, List.countP_false]
    rfl
  refine Store.ext ?_ rfl ?_ ?_ rfl
  · simp only [comments_without, hreplies, StoredComment.goesWith_nil, Bool.not_false,
      List.filter_true, Int.natCast_zero, Int.neg_zero, StoredComment.addReplies_zero,
      List.map_id']
  · simp only [without, hgone, Bool.not_false, List.filter_true]
  · simp only [without, hgone, Bool.not_false, List.filter_true]

theorem without_congr {a b : List CommentId}
    (h : ∀ c ∈ s.comments, c.goesWith a = c.goesWith b) : s.without a = s.without b := by
  have hgone : s.anyWithId (·.goesWith a) = s.anyWithId (·.goesWith b) := by
    funext id
    rw [Bool.eq_iff_iff, anyWithId, anyWithId, List.any_eq_true, List.any_eq_true]
    refine exists_congr fun c => and_congr_right fun hc => ?_
    rw [h c hc]
  have hreplies : s.repliesGone a = s.repliesGone b := by
    funext id
    apply List.countP_congr
    intro c hc
    rw [h c hc]
  refine Store.ext ?_ rfl ?_ ?_ rfl
  · rw [comments_without, comments_without, hreplies]
    refine congrArg _ (List.filter_congr fun c hc => ?_)
    rw [h c hc]
  · rw [without, without, hgone]
  · rw [without, without, hgone]

theorem not_mem_without (hid : x.id ∈ ids) : x ∉ (s.without ids).comments := by
  intro hx
  rw [comments_without, List.mem_map] at hx
  obtain ⟨c, hc, rfl⟩ := hx
  have hkept := (List.mem_filter.1 hc).2
  have hlisted : ids.contains c.id = true := List.contains_iff_mem.2 hid
  rw [StoredComment.goesWith, hlisted] at hkept
  cases hkept

theorem contains_commentsByIds (hc : c ∈ s.comments) (ids : List CommentId) :
    ((s.commentsByIds ids).map (·.id)).contains c.id = ids.contains c.id := by
  rw [Bool.eq_iff_iff, List.contains_iff_mem, List.mem_map]
  constructor
  · rintro ⟨r, hr, hid⟩
    rw [← hid]
    exact (List.mem_filter.1 hr).2
  · intro hid
    exact ⟨c, List.mem_filter.2 ⟨hc, hid⟩, rfl⟩

theorem Forest.repliesToAny_commentsByIds (h : s.Forest) (hc : c ∈ s.comments)
    (ids : List CommentId) :
    c.repliesToAny ((s.commentsByIds ids).map (·.id)) = c.repliesToAny ids := by
  cases hreply : c.replyTo with
  | none => simp only [StoredComment.repliesToAny, hreply, Option.any_none]
  | some p =>
    obtain ⟨t, ht, rfl, -⟩ := h.rooted c hc p hreply
    simp only [StoredComment.repliesToAny, hreply, Option.any_some, contains_commentsByIds ht]

theorem Forest.goesWith_commentsByIds (h : s.Forest) (hc : c ∈ s.comments)
    (ids : List CommentId) :
    c.goesWith ((s.commentsByIds ids).map (·.id)) = c.goesWith ids := by
  rw [StoredComment.goesWith, contains_commentsByIds hc, h.repliesToAny_commentsByIds hc,
    StoredComment.goesWith]

end Store

end Discussion
