import Discussion.Proofs.Counters

namespace Discussion

/-- A store with the identities of all comments that were ever added to it. -/
structure Chronicle where
  store : Store := {}
  issued : List Identity := []

namespace Chronicle

variable {h : Chronicle} {c : StoreCall}

def after (h : Chronicle) (c : StoreCall) : Chronicle where
  store := (h.store.answer c).2
  issued := h.issued ++ c.adds h.store

/-- What comes of calls that are carried out one after another. -/
def run (h : Chronicle) (calls : List StoreCall) : Chronicle :=
  calls.foldl after h

/-- A call names what was issued before: a new reply goes to a top-level comment of its section, a
vote to any comment, and a thread is removed with the target that its head was added with. New
comments come without replies and votes, and a selection covers whole sections. Nothing more is
asked, and what is named may be gone. -/
def Admits (h : Chronicle) : StoreCall → Prop
  | .add r => r.replies = 0 ∧ r.upvotes = 0 ∧ ∀ p ∈ r.replyTo,
      ∃ t ∈ h.issued, t.id = p ∧ t.key = r.key ∧ t.replyTo = none
  | .castVote id _ _ => ∃ t ∈ h.issued, t.id = id
  | .removeThread id replyTo => ∃ t ∈ h.issued, t.id = id ∧ t.replyTo = replyTo
  | .removeSelected f => f.isWholeSections
  | _ => True

def AdmitsAll (h : Chronicle) : List StoreCall → Prop
  | [] => True
  | c :: calls => h.Admits c ∧ (h.after c).AdmitsAll calls

instance decidableAdmits (h : Chronicle) (c : StoreCall) : Decidable (h.Admits c) := by
  cases c <;> unfold Admits <;> infer_instance

instance decidableAdmitsAll (h : Chronicle) : (calls : List StoreCall) →
    Decidable (h.AdmitsAll calls)
  | [] => .isTrue trivial
  | c :: calls =>
    have := decidableAdmitsAll (h.after c) calls
    inferInstanceAs (Decidable (h.Admits c ∧ (h.after c).AdmitsAll calls))

/-- What any calls keep: numbers are given away in increasing order, and what is stored is as it was
added. -/
structure Faithful (h : Chronicle) : Prop where
  increasing : h.issued.Pairwise fun a b => a.id < b.id
  known : ∀ k ∈ h.issued, k.id ≤ h.store.lastId
  stored : ∀ k ∈ h.store.identities, k ∈ h.issued

theorem faithful_empty : Faithful {} where
  increasing := List.Pairwise.nil
  known := fun _ hk => nomatch hk
  stored := fun _ hk => nomatch hk

theorem lastId_after (h : Chronicle) (c : StoreCall) :
    (h.after c).store.lastId = h.store.lastId + (c.adds h.store).length :=
  h.store.lastId_answer c

theorem Faithful.eq_of_id (hf : h.Faithful) {a b : Identity} (ha : a ∈ h.issued) (hb : b ∈ h.issued)
    (hid : a.id = b.id) : a = b := by
  have hnodup : (h.issued.map (·.id)).Nodup :=
    List.pairwise_map.2 (hf.increasing.imp fun hlt => Int.ne_of_lt hlt)
  exact List.inj_on_of_nodup_map hnodup ha hb hid

theorem Faithful.after (hf : h.Faithful) (c : StoreCall) : (h.after c).Faithful where
  increasing := by
    refine List.pairwise_append.2 ⟨hf.increasing, Store.pairwise_adds, fun a ha b hb => ?_⟩
    have := hf.known a ha
    have := Store.adds_fresh hb
    lia
  known := by
    intro k hk
    have hlast := h.lastId_after c
    rcases List.mem_append.1 hk with hk | hk
    · have := hf.known k hk
      lia
    · have := Store.adds_fresh hk
      have := List.length_pos_of_mem hk
      lia
  stored := by
    intro k hk
    rw [Chronicle.after, Store.identities_answer] at hk
    rcases List.mem_append.1 hk with hold | hnew
    · exact List.mem_append_left _ (hf.stored k (List.mem_of_mem_filter hold))
    · exact List.mem_append_right _ hnew

theorem Faithful.run (hf : h.Faithful) (calls : List StoreCall) : (h.run calls).Faithful := by
  induction calls generalizing h with
  | nil => exact hf
  | cons c calls ih => exact ih (hf.after c)

/-- What admitted calls keep. Votes may stand for comments that are gone, and replies may have lost
their target. -/
structure Sound (h : Chronicle) : Prop where
  numbered : h.store.Numbered
  distinct : h.issued.Pairwise fun a b => a.id < b.id
  known : ∀ k ∈ h.issued, k.id ≤ h.store.lastId
  stored : ∀ c ∈ h.store.comments, c.identity ∈ h.issued
  rooted : ∀ k ∈ h.issued, ∀ p, k.replyTo = some p →
    ∃ t ∈ h.issued, t.id = p ∧ t.key = k.key ∧ t.replyTo = none
  voted : ∀ v ∈ h.store.votes, v.comment ≤ h.store.lastId
  votedOnce : h.store.votes.Nodup
  counted : h.store.Counted

theorem sound_empty : Sound {} where
  numbered := Store.numbered_empty
  distinct := List.Pairwise.nil
  known := fun _ hk => nomatch hk
  stored := fun _ hk => nomatch hk
  rooted := fun _ hk => nomatch hk
  voted := fun _ hv => nomatch hv
  votedOnce := List.nodup_nil
  counted := fun _ hc => nomatch hc

theorem Sound.faithful (hs : h.Sound) : h.Faithful where
  increasing := hs.distinct
  known := hs.known
  stored := fun _ hk => have ⟨c, hc, heq⟩ := List.mem_map.1 hk; heq ▸ hs.stored c hc

theorem Sound.eq_of_id (hs : h.Sound) {a b : Identity} (ha : a ∈ h.issued) (hb : b ∈ h.issued)
    (hid : a.id = b.id) : a = b :=
  hs.faithful.eq_of_id ha hb hid

theorem Sound.key_eq (hs : h.Sound) {c d : StoredComment} (hc : c ∈ h.store.comments)
    (hd : d ∈ h.store.comments) (hreply : c.replyTo = some d.id) : c.key = d.key := by
  obtain ⟨t, ht, hid, hkey, _⟩ := hs.rooted _ (hs.stored c hc) d.id hreply
  rw [hs.eq_of_id ht (hs.stored d hd) hid] at hkey
  exact hkey.symm

theorem Sound.target_le (hs : h.Sound) {k : Identity} (hk : k ∈ h.issued) {p : CommentId}
    (hp : k.replyTo = some p) : p ≤ h.store.lastId := by
  obtain ⟨t, ht, hid, _⟩ := hs.rooted k hk p hp
  rw [← hid]
  exact hs.known t ht

theorem Sound.counted_after (hs : h.Sound) (hc : h.Admits c) : (h.after c).store.Counted := by
  -- No reply stays behind when its target goes with a whole section, nor the other way round.
  have hsections (p : SectionKey → Bool) : (h.store.removeSections p).2.Counted :=
    hs.counted.removeSections hs.numbered p fun k hk c hc => hs.key_eq hk hc
  cases c with
  | add r =>
    obtain ⟨hreplies, hupvotes, htarget⟩ := hc
    refine hs.counted.add ?_ hs.voted hreplies hupvotes fun p hp => ?_
    · intro k hk p hp
      obtain ⟨c, hc, rfl⟩ := List.mem_map.1 hk
      exact hs.target_le (hs.stored c hc) hp
    · obtain ⟨t, ht, hid, _⟩ := htarget p hp
      rw [← hid]
      exact hs.known t ht
  | revise r => exact hs.counted.revise r
  | removeThread id replyTo =>
    obtain ⟨t, ht, hid, hreply⟩ := hc
    apply hs.counted.removeThread hs.numbered
    intro c hc hcid
    have heq := hs.eq_of_id (hs.stored c hc) ht (hcid.trans hid.symm)
    rw [← hreply, ← heq]
    rfl
  | removeSelected f =>
    change (h.store.removeSelected f).2.Counted
    rw [Store.removeSelected_whole hc]
    exact hsections _
  | removeComponent component => exact hsections (·.component == component)
  | removeContexts contexts => exact hsections fun k => contexts.contains k.context
  | castVote id user upvote => exact hs.counted.castVote hs.votedOnce id user upvote
  | withdrawVotes user => exact hs.counted.withdrawVotes hs.votedOnce user
  | choose user key comment status => exact hs.counted.choose user key comment status
  | _ => exact hs.counted

theorem Sound.voted_after (hs : h.Sound) (hc : h.Admits c) :
    ∀ v ∈ (h.after c).store.votes, v.comment ≤ h.store.lastId := by
  intro v hv
  rcases h.store.votes_answer c with hsub | ⟨id, user, rfl, -, happend⟩
  · exact hs.voted v (hsub.subset hv)
  · rw [after, happend] at hv
    rcases List.mem_append.1 hv with hv | hv
    · exact hs.voted v hv
    · obtain ⟨t, ht, hid⟩ := hc
      rw [List.mem_singleton.1 hv, ← hid]
      exact hs.known t ht

theorem Sound.after (hs : h.Sound) (hc : h.Admits c) : (h.after c).Sound where
  numbered := hs.numbered.answer c
  distinct := (hs.faithful.after c).increasing
  known := (hs.faithful.after c).known
  stored := fun _ hd => (hs.faithful.after c).stored _ (Store.mem_identities hd)
  rooted := by
    intro k hk p hp
    have hearlier : ∃ t ∈ h.issued, t.id = p ∧ t.key = k.key ∧ t.replyTo = none := by
      rcases List.mem_append.1 hk with hk | hk
      · exact hs.rooted k hk p hp
      · cases c with
        | add r =>
          rw [List.mem_singleton.1 hk] at hp ⊢
          exact hc.2.2 p hp
        | _ => cases hk
    obtain ⟨t, ht, htarget⟩ := hearlier
    exact ⟨t, List.mem_append_left _ ht, htarget⟩
  voted := by
    intro v hv
    have := hs.voted_after hc v hv
    have hlast := h.lastId_after c
    lia
  votedOnce := by
    rcases h.store.votes_answer c with hsub | ⟨id, user, -, hnew, happend⟩
    · exact hs.votedOnce.sublist hsub
    · rw [Chronicle.after, happend]
      refine List.nodup_append.2 ⟨hs.votedOnce, List.nodup_singleton _, ?_⟩
      rintro v hv w hw rfl
      rw [List.mem_singleton.1 hw] at hv
      exact hnew hv
  counted := hs.counted_after hc

theorem Sound.run (hs : h.Sound) {calls : List StoreCall} (hc : h.AdmitsAll calls) :
    (h.run calls).Sound := by
  induction calls generalizing h with
  | nil => exact hs
  | cons c calls ih => exact ih (hs.after hc.1) hc.2

/-- In whatever order admitted calls reach an empty store, the counters of every stored comment stay
equal to the numbers of its replies and its votes. -/
theorem counted_of_admitted (calls : List StoreCall) (hc : AdmitsAll {} calls) :
    (run {} calls).store.Counted :=
  (sound_empty.run hc).counted

/-- Comments one and two are gone when comment three replies to comment one, and the section of
comment three is removed last. -/
def busyCalls : List StoreCall :=
  let record (item : ItemId) (replyTo : Option CommentId) : StoredComment :=
    { (default : StoredComment) with key := ⟨"wiki", "talk", 1, item⟩, author := 4, replyTo }
  [.add (record 1 none), .add (record 1 (some 1)), .castVote 2 5 true, .removeThread 1 none,
    .add (record 1 (some 1)), .castVote 1 5 true, .add (record 2 none), .add (record 2 (some 4)),
    .castVote 5 6 true, .castVote 5 5 true, .withdrawVotes 6, .revise (record 3 (some 7)),
    .removeSelected { component := "wiki", area := "talk", contexts := [1], items := .one 1 }]

theorem counted_busyCalls :
    AdmitsAll {} busyCalls ∧ (run {} busyCalls).store.Counted ∧
      (run {} busyCalls).store.comments.map (fun c => (c.id, c.replies, c.upvotes)) =
        [(4, 1, 0), (5, 0, 1)] :=
  ⟨by decide, counted_of_admitted busyCalls (by decide), by decide⟩

end Chronicle

end Discussion
