import Discussion.Proofs.Interleaving

namespace Discussion

/-- What shall hold of every stored comment, of every vote for one, and of every choice. -/
structure Law where
  entry : Entry → Prop
  vote : Identity → UserId → Prop
  choice : SectionKey → Prop

namespace Law

/-- The law is kept in what is stored. A vote may be left without its comment; if it is, no other
comment will get the number. -/
structure Holds (law : Law) (s : Store) : Prop where
  entries : ∀ e ∈ s.entries, law.entry e
  votes : ∀ v ∈ s.votes, v.comment ≤ s.lastId ∧
    ∀ k ∈ s.identities, k.id = v.comment → law.vote k v.user
  choices : ∀ t ∈ s.choices, law.choice t.key

/-- Nothing is written that would break the law. -/
def policy (law : Law) : Policy where
  trusts x := law.entry x.entry
  adds r := ∀ id, law.entry ⟨r.issued id, r.wording⟩
  revises x r := law.entry ⟨x.identity, r.wording⟩
  votes x user := law.vote x.identity user
  chooses := law.choice

variable {law : Law} {s : Store} {p : Process} {c : StoreCall}
variable {allowed : Forum → Operation → Prop}

theorem holds_empty : law.Holds {} where
  entries := fun _ h => nomatch h
  votes := fun _ h => nomatch h
  choices := fun _ h => nomatch h

theorem Holds.entries_answer (h : law.Holds s) (hp : p.Orderly law.policy s)
    (hc : law.policy.Allows p.heard (.store c)) : ∀ e ∈ (s.answer c).2.entries, law.entry e := by
  intro e he
  rcases Store.mem_entries_answer he with he | hwritten
  · exact h.entries e he
  · cases hwritten with
    | add r => exact hc _
    | revise r hold hid =>
      obtain ⟨x, hx, hxid, hlaw⟩ := hc
      -- The stored comment is the one of the copy, as both have the same number.
      rw [(hp.known x hx).only _ (Store.mem_identities_of_entries hold) (hid.trans hxid.symm)]
      exact hlaw

theorem Holds.votes_answer (h : law.Holds s) (hp : p.Orderly law.policy s)
    (hc : law.policy.Allows p.heard (.store c)) : ∀ v ∈ (s.answer c).2.votes,
      v.comment ≤ (s.answer c).2.lastId ∧
        ∀ k ∈ (s.answer c).2.identities, k.id = v.comment → law.vote k v.user := by
  intro v hv
  obtain ⟨hissued, hlaw⟩ : v.comment ≤ s.lastId ∧
      ∀ k ∈ s.identities, k.id = v.comment → law.vote k v.user := by
    rcases Store.mem_votes_answer hv with hv | rfl
    · exact h.votes v hv
    · obtain ⟨x, hx, hxid, hlaw⟩ := hc
      refine ⟨hxid ▸ (hp.known x hx).issued, fun k hk hid => ?_⟩
      rw [(hp.known x hx).only k hk (hid.trans hxid.symm)]
      exact hlaw
  refine ⟨?_, fun k hk hid => ?_⟩
  · have := s.lastId_answer c
    lia
  · rw [Store.identities_answer] at hk
    rcases List.mem_append.1 hk with hk | hk
    · exact hlaw k (List.mem_of_mem_filter hk) hid
    · have := Store.adds_fresh hk
      lia

theorem guards (law : Law) : law.policy.Guards (fun _ => True) law.Holds where
  trusts := fun h hx => h.entries _ (Store.mem_entries hx)
  answer := by
    intro s p c next h hn hp _ hrest
    have hc := hp.allows hrest
    refine ⟨h.entries_answer hp hc, h.votes_answer hp hc, fun t ht => ?_⟩
    rcases Store.mem_choices_answer ht with ht | ⟨comment, rfl⟩
    · exact h.choices t ht
    · exact hc

/-- A law that every operation keeps when it writes is kept in whatever comes of an empty store, in
whatever order the operations do what comes next. -/
theorem holds_of_runs {t : Traffic}
    (h : ∀ f op, allowed f op → (∀ d ∈ f.areas, d.handler.KeepsId) ∧ law.policy.Admits f op)
    (ht : Traffic.Runs allowed (fun _ => True) {} t) : law.Holds t.world.store :=
  (ht.orderly law.guards (fun f op hop => Forum.operation_obeys (h f op hop).1 (h f op hop).2)
    (Traffic.orderly_start Store.numbered_empty) holds_empty).2

end Law

end Discussion
