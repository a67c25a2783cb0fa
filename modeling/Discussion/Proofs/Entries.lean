import Discussion.Proofs.Attachment

namespace Discussion

/-- What an edit of a comment sets anew. -/
structure Wording where
  content : String
  format : TextFormat
  pseudonym : Option String
  customData : String
deriving DecidableEq, Repr

def StoredComment.wording (c : StoredComment) : Wording :=
  ⟨c.content, c.format, c.pseudonym, c.customData⟩

/-- What is said by whom, where, and in reply to what. The counters are left out. -/
structure Entry where
  identity : Identity
  wording : Wording
deriving DecidableEq, Repr

def StoredComment.entry (c : StoredComment) : Entry :=
  ⟨c.identity, c.wording⟩

def Store.entries (s : Store) : List Entry :=
  s.comments.map (·.entry)

/-- The identity that a new comment gets. -/
def StoredComment.issued (r : StoredComment) (id : CommentId) : Identity :=
  ⟨id, r.key, r.author, r.timeCreated.floor, r.replyTo⟩

/-- All of a comment but its counters. -/
def StoredComment.uncounted (c : StoredComment) : StoredComment :=
  { c with replies := 0, upvotes := 0 }

/-- The comment when a row has been stored in its place. -/
def StoredComment.revised (c r : StoredComment) : StoredComment :=
  { c with
    content := r.content
    format := r.format
    pseudonym := r.pseudonym
    modifier := r.modifier
    timeModified := r.timeModified.floor
    customData := r.customData }

/-- The entries that a call writes: a new one, or one that was there with other words. -/
inductive StoreCall.Writes (s : Store) : StoreCall → Entry → Prop
  | add (r : StoredComment) : Writes s (.add r) ⟨r.issued (s.lastId + 1), r.wording⟩
  | revise (r : StoredComment) {e : Entry} : e ∈ s.entries → e.identity.id = r.id →
    Writes s (.revise r) ⟨e.identity, r.wording⟩

namespace Store

variable {s : Store} {e : Entry}

theorem mem_entries {c : StoredComment} (h : c ∈ s.comments) : c.entry ∈ s.entries :=
  List.mem_map_of_mem h

theorem mem_identities_of_entries (h : e ∈ s.entries) : e.identity ∈ s.identities := by
  obtain ⟨c, hc, rfl⟩ := List.mem_map.1 h
  exact mem_identities hc

theorem comments_revise (s : Store) (r : StoredComment) :
    (s.revise r).2.comments = s.comments.map fun c => if c.id = r.id then c.revised r else c :=
  rfl

theorem comments_choose (s : Store) (user : UserId) (key : SectionKey)
    (comment : Option CommentId) (status : Delivery) :
    (s.choose user key comment status).comments = s.comments := by
  unfold choose
  dsimp only
  split <;> rfl

/-- Whatever is asked of a store, a comment was there before apart from its counters, or the call
writes it. -/
theorem mem_comments_answer {c : StoreCall} {y : StoredComment}
    (h : y ∈ (s.answer c).2.comments) :
    (∃ x ∈ s.comments, y.uncounted = x.uncounted) ∨
      (∃ r, c = .add r ∧ y.uncounted = (s.newRow r).uncounted) ∨
        ∃ r, c = .revise r ∧ ∃ x ∈ s.comments, x.id = r.id ∧ y = x.revised r := by
  have hkept {p : StoredComment → Bool} (h : y ∈ s.comments.filter p) :
      ∃ x ∈ s.comments, y.uncounted = x.uncounted :=
    ⟨y, List.mem_of_mem_filter h, rfl⟩
  cases c with
  | add r =>
    rw [answer, comments_add] at h
    obtain ⟨x, hx, rfl⟩ := List.mem_map.1 h
    rcases List.mem_append.1 hx with hx | hx
    · exact .inl ⟨x, hx, rfl⟩
    · rw [List.mem_singleton.1 hx]
      exact .inr (.inl ⟨r, rfl, rfl⟩)
  | revise r =>
    rw [answer, comments_revise] at h
    obtain ⟨x, hx, rfl⟩ := List.mem_map.1 h
    split
    next hid => exact .inr (.inr ⟨r, rfl, x, hx, hid, rfl⟩)
    next => exact .inl ⟨x, hx, rfl⟩
  | removeThread id replyTo =>
    rw [answer, comments_removeThread] at h
    obtain ⟨x, hx, rfl⟩ := List.mem_map.1 h
    exact .inl ⟨x, List.mem_of_mem_filter hx, rfl⟩
  | castVote id user upvote =>
    rw [answer, comments_castVote] at h
    obtain ⟨x, hx, rfl⟩ := List.mem_map.1 h
    refine .inl ⟨x, hx, ?_⟩
    split <;> rfl
  | withdrawVotes user =>
    obtain ⟨x, hx, rfl⟩ := List.mem_map.1 h
    refine .inl ⟨x, hx, ?_⟩
    split <;> rfl
  | choose user key comment status =>
    rw [answer, comments_choose] at h
    exact .inl ⟨y, h, rfl⟩
  | removeSelected f => exact .inl (hkept h)
  | removeComponent component => exact .inl (hkept h)
  | removeContexts contexts => exact .inl (hkept h)
  | _ => exact .inl ⟨y, h, rfl⟩

theorem mem_entries_answer {c : StoreCall} (h : e ∈ (s.answer c).2.entries) :
    e ∈ s.entries ∨ c.Writes s e := by
  obtain ⟨y, hy, rfl⟩ := List.mem_map.1 h
  -- Counters are no part of an entry.
  have hentry {x : StoredComment} (h : y.uncounted = x.uncounted) : y.entry = x.entry := by
    change y.uncounted.entry = x.uncounted.entry
    rw [h]
  rcases mem_comments_answer hy with ⟨x, hx, hsame⟩ | ⟨r, rfl, hsame⟩ | ⟨r, rfl, x, hx, hid, rfl⟩
  · rw [hentry hsame]
    exact .inl (mem_entries hx)
  · rw [hentry hsame]
    exact .inr (.add r)
  · exact .inr (.revise r (mem_entries hx) hid)

theorem mem_votes_answer {c : StoreCall} {v : Vote} (h : v ∈ (s.answer c).2.votes) :
    v ∈ s.votes ∨ c = .castVote v.comment v.user true := by
  rcases s.votes_answer c with hsub | ⟨id, user, rfl, -, hvotes⟩
  · exact .inl (hsub.subset h)
  · rw [hvotes] at h
    rcases List.mem_append.1 h with h | h
    · exact .inl h
    · rw [List.mem_singleton.1 h]
      exact .inr rfl

theorem mem_choices_answer {c : StoreCall} {t : Choice} (h : t ∈ (s.answer c).2.choices) :
    t ∈ s.choices ∨ ∃ comment, c = .choose t.user t.key comment t.status := by
  rcases s.choices_answer c with hsub | ⟨user, key, comment, status, rfl⟩
  · exact .inl (hsub.subset h)
  · rw [answer, mem_choices_choose] at h
    split at h
    next hnew =>
      obtain ⟨rfl, rfl, -⟩ := isChoice_iff.1 hnew
      obtain ⟨-, rfl⟩ := h
      exact .inr ⟨comment, rfl⟩
    next => exact .inl h

/-- The identity belongs to its number for good: it was given away, and of the stored comments none
but the one with this identity has it. -/
structure Knows (s : Store) (k : Identity) : Prop where
  issued : k.id ≤ s.lastId
  only : ∀ l ∈ s.identities, l.id = k.id → l = k

theorem Keyed.knows (h : s.Keyed) {c : StoredComment} (hc : c ∈ s.comments) :
    s.Knows c.identity where
  issued := h.issued c hc
  only := by
    intro l hl hid
    obtain ⟨d, hd, rfl⟩ := List.mem_map.1 hl
    rw [h.eq_of_id hd hc hid]

/-- As no number is given away twice, what is known of one stays true. -/
theorem Knows.answer {k : Identity} (h : s.Knows k) (c : StoreCall) : (s.answer c).2.Knows k where
  issued := by
    have := s.lastId_answer c
    have := h.issued
    lia
  only := by
    intro l hl hid
    rw [identities_answer] at hl
    rcases List.mem_append.1 hl with hl | hl
    · exact h.only l (List.mem_of_mem_filter hl) hid
    · have := adds_fresh hl
      have := h.issued
      lia

end Store

end Discussion
