import Discussion.Proofs.Law
import Discussion.Proofs.Pseudonym
import Discussion.Proofs.Replica

namespace Discussion

/-- A comment with this pseudonym, in reply to this comment or to none, has its place in an area
with these options. -/
structure AreaOptions.Permits (o : AreaOptions) (replyTo : Option CommentId)
    (pseudonym : Option String) : Prop where
  trimmed : ∀ p ∈ pseudonym, Text.trim p = p ∧ p ≠ ""
  signature : if pseudonym.isSome then o.allowPseudonym else o.allowRealname
  reply : replyTo.isSome → o.allowReplies

/-- The stored comments have their place in the declared areas, and so have votes and choices.
Nobody has voted for a comment of their own. -/
structure Store.Respects (s : Store) (f : Forum) : Prop where
  comments : ∀ c ∈ s.comments, ∃ d, f.declared? c.key.component c.key.area = some d ∧
    d.options.Permits c.replyTo c.pseudonym
  votes : ∀ v ∈ s.votes, ∀ c ∈ s.comments, c.id = v.comment → c.author ≠ v.user ∧
    ∃ d, f.declared? c.key.component c.key.area = some d ∧ d.options.allowUpvotes
  choices : ∀ t ∈ s.choices, ∃ d, f.declared? t.key.component t.key.area = some d ∧
    d.options.allowSubscriptions

theorem trimmed_of_normalPseudonym {pseudonym : Option String}
    (h : normalPseudonym pseudonym = pseudonym) : ∀ p ∈ pseudonym, Text.trim p = p ∧ p ≠ "" := by
  rintro p rfl
  obtain ⟨hp, hne⟩ := Option.filter_eq_some_iff.1 h
  exact ⟨Option.some.inj hp, bne_iff_ne.1 hne⟩

theorem normalPseudonym_of_trimmed {pseudonym : Option String}
    (h : ∀ p ∈ pseudonym, Text.trim p = p ∧ p ≠ "") : normalPseudonym pseudonym = pseudonym := by
  cases pseudonym with
  | none => rfl
  | some p =>
    obtain ⟨htrim, hne⟩ := h p rfl
    rw [normalPseudonym, Option.map_some, htrim]
    exact Option.filter_some_pos (bne_iff_ne.2 hne)

namespace UsualCapability

variable {c : UsualCapability}

theorem allowsSignature_of_mayPost {signature : Signature} {target : Option Comment}
    (h : c.toCapability.mayPost signature target) : c.allowsSignature signature :=
  (Bool.and_eq_true_iff.1 (Bool.and_eq_true_iff.1 h).1).2

theorem allowReplies_of_mayPost {signature : Signature} {target : Option Comment}
    (h : c.toCapability.mayPost signature target) (hreply : target.isSome) :
    c.options.allowReplies := by
  have htarget := (Bool.and_eq_true_iff.1 h).2
  obtain ⟨comment, rfl⟩ := Option.isSome_iff_exists.1 hreply
  exact (Bool.and_eq_true_iff.1 htarget).1

theorem of_mayUpvote {x : StoredComment} (h : c.toCapability.mayUpvote (.ofStored x)) :
    c.options.allowUpvotes ∧ some x.author ≠ c.user := by
  obtain ⟨h, hother⟩ := Bool.and_eq_true_iff.1 h
  have hshown : (Comment.ofStored x).shownAuthor true = some x.author := by
    rw [Comment.shownAuthor, Bool.not_true, Bool.and_false]
    rfl
  rw [hshown] at hother
  exact ⟨(Bool.and_eq_true_iff.1 h).2, bne_iff_ne.1 hother⟩

theorem allowSubscriptions_of_maySubscribe {current status : Delivery} {comment : Option Comment}
    (h : c.toCapability.maySubscribe current status comment) : c.options.allowSubscriptions :=
  (Bool.and_eq_true_iff.1 h).2

end UsualCapability

namespace Forum

variable {f g : Forum} {user : UserId} {sec : Section} {cap : Capability} {p : Prepared}

theorem Serves.usual (h : f.Serves user sec cap) (hf : ∀ d ∈ f.areas, d.handler.IsPlain) :
    ∃ d, f.declared? sec.key.component sec.key.area = some d ∧ ∃ usual : UsualCapability,
      usual.user = some user ∧ usual.options = d.options ∧ cap = usual.toCapability := by
  obtain ⟨d, hd, hoptions, -⟩ := h.declared
  obtain ⟨window, -, rfl⟩ :=
    Section.capability_eq_ok (h.handler hf).capability h.capability
  exact ⟨d, hd, _, rfl, hoptions, rfl⟩

/-- What the options of the declared areas ask of what is stored. -/
def optionsLaw (f : Forum) : Law where
  entry e := ∃ d, f.declared? e.identity.key.component e.identity.key.area = some d ∧
    d.options.Permits e.identity.replyTo e.wording.pseudonym
  vote k user := k.author ≠ user ∧
    ∃ d, f.declared? k.key.component k.key.area = some d ∧ d.options.allowUpvotes
  choice key := ∃ d, f.declared? key.component key.area = some d ∧ d.options.allowSubscriptions

theorem respects_of_holds {s : Store} (h : f.optionsLaw.Holds s) : s.Respects f where
  comments := fun _ hc => h.entries _ (Store.mem_entries hc)
  votes := fun v hv _ hc hid => (h.votes v hv).2 _ (Store.mem_identities hc) hid
  choices := h.choices

theorem Posts.permitted {req : PostRequest} (h : f.Posts user req p)
    (hf : ∀ d ∈ f.areas, d.handler.IsPlain) : ∃ d,
      f.declared? p.comment.key.component p.comment.key.area = some d ∧
        d.options.Permits p.comment.replyTo p.comment.pseudonym := by
  obtain ⟨d, hd, usual, -, hoptions, hcap⟩ := h.serves.usual hf
  obtain ⟨fields, -, -, hp⟩ :=
    Prepared.check_asIs h.checked (h.serves.handler hf).asIs
  obtain ⟨target, htarget, hallowed⟩ := h.allowed
  rw [hcap] at hallowed
  have hpseudonym : p.comment.pseudonym = normalPseudonym (some req.pseudonym) := by
    rw [hp]
    dsimp only [draft, Comment.fresh]
    exact normalPseudonym_normalPseudonym (some req.pseudonym)
  have hreply : p.comment.replyTo = req.replyTo := by
    rw [hp]
    rfl
  have hkey : p.comment.key = p.sec.key := by
    rw [hp]
    rfl
  refine ⟨d, hkey ▸ hd, ?_, ?_, ?_⟩
  · rw [hpseudonym]
    exact trimmed_of_normalPseudonym (normalPseudonym_normalPseudonym _)
  · have hsignature := UsualCapability.allowsSignature_of_mayPost hallowed
    rw [Signature.ofPseudonym, normalPseudonym_normalPseudonym] at hsignature
    rw [hpseudonym, ← hoptions]
    split
    next hsome =>
      rw [if_pos hsome] at hsignature
      exact hsignature
    next hnone =>
      rw [if_neg hnone] at hsignature
      exact hsignature
  · intro hreplies
    rw [hreply, ← htarget] at hreplies
    rw [← hoptions]
    exact UsualCapability.allowReplies_of_mayPost hallowed hreplies

/-- An edit of a comment that has its place leaves it there. A pseudonym comes to a comment under a
real name only where pseudonyms are allowed, and none goes. -/
theorem Edits.permitted {req : EditRequest} {x : StoredComment} (h : f.Edits user req x p)
    (hf : ∀ d ∈ f.areas, d.handler.IsPlain) {d : DeclaredArea}
    (hd : f.declared? x.key.component x.key.area = some d)
    (hx : d.options.Permits x.replyTo x.pseudonym) :
    d.options.Permits x.replyTo p.comment.pseudonym := by
  obtain ⟨d', hd', usual, -, hoptions, hcap⟩ := h.serves.usual hf
  rw [← h.own, hd] at hd'
  obtain rfl := Option.some.inj hd'
  have hkept := normalPseudonym_of_trimmed hx.trimmed
  rcases h.pseudonym_cases (h.serves.handler hf).asIs with
    ⟨q, hq, hset⟩ | ⟨hnone, hblank⟩
  · rw [hset]
    refine ⟨trimmed_of_normalPseudonym (normalPseudonym_of_eq_some hq), ?_, hx.reply⟩
    have hsignature := h.signature
    rw [mayTakePseudonym, not_isBlankText_of_normalPseudonym hq, Bool.false_or,
      Bool.or_eq_true_iff] at hsignature
    rcases hsignature with hpseudonymous | hmay
    · have hsome : x.pseudonym.isSome := by
        rw [← hkept]
        exact hpseudonymous
      have hallowed := hx.signature
      rw [if_pos hsome] at hallowed
      exact hallowed
    · rw [hcap] at hmay
      have hallowed := UsualCapability.allowsSignature_of_mayPost hmay
      rw [← hoptions]
      exact hallowed
  · rw [hkept] at hnone
    rw [hblank, ← hnone]
    exact hx

theorem optionsLaw_admits (hg : ∀ d ∈ g.areas, d.handler.IsPlain) (h : f.areas = g.areas)
    (op : Operation) : g.optionsLaw.policy.Admits f op := by
  have hf : ∀ d ∈ f.areas, d.handler.IsPlain := h ▸ hg
  have hdeclared := declared?_congr h
  refine ⟨?_, ?_, ?_, ?_⟩
  · intro user req p _ hp _ id
    have hpermitted := hp.permitted hf
    rw [hdeclared] at hpermitted
    exact hpermitted
  · rintro user req x p _ ⟨d, hd, hx⟩ hp
    exact ⟨d, hd, hp.permitted hf (by rw [hdeclared]; exact hd) hx⟩
  · intro user sec cap x _ hserves hkey hmay
    obtain ⟨d, hd, usual, huser, hoptions, rfl⟩ := hserves.usual hf
    obtain ⟨hupvotes, hother⟩ := UsualCapability.of_mayUpvote hmay
    rw [hdeclared, ← hkey] at hd
    rw [huser] at hother
    exact ⟨fun hown => hother (congrArg some hown), d, hd, hoptions ▸ hupvotes⟩
  · intro user sec cap current status comment hserves hmay
    obtain ⟨d, hd, usual, -, hoptions, rfl⟩ := hserves.usual hf
    rw [hdeclared] at hd
    have hallowed := UsualCapability.allowSubscriptions_of_maySubscribe hmay
    exact ⟨d, hd, hoptions ▸ hallowed⟩

end Forum

theorem Reached.mono {allowed allowed' : Forum → Operation → Prop}
    (h : ∀ f op, allowed f op → allowed' f op) {w : World} (hw : Reached allowed w) :
    Reached allowed' w := by
  induction hw with
  | start => exact .start
  | operate f op faults state _ hop ih => exact .operate f op faults state ih (h f op hop)

/-- Where the declared areas stay as they are, whatever is stored respects their options, also where
operations run at one time. Where they run one after another, every vote is for a stored comment. -/
theorem Store.respects_options (g : Forum) (hg : ∀ d ∈ g.areas, d.handler.IsPlain) :
    (∀ t, Traffic.Runs (fun f _ => f.areas = g.areas) (fun _ => True) {} t →
        t.world.store.Respects g) ∧
      ∀ w, Reached (fun f op => f.areas = g.areas ∧ op.isSingle) w →
        w.store.Respects g ∧ ∀ v ∈ w.store.votes, ∃ c ∈ w.store.comments, c.id = v.comment := by
  have hruns : ∀ t, Traffic.Runs (fun f _ => f.areas = g.areas) (fun _ => True) {} t →
      t.world.store.Respects g := by
    intro t ht
    apply Forum.respects_of_holds
    refine Law.holds_of_runs (fun f op hop => ?_) ht
    exact ⟨fun d hd => (hg d (hop ▸ hd)).asIs.keepsId, Forum.optionsLaw_admits hg hop op⟩
  refine ⟨hruns, fun w hw => ⟨?_, fun v hv => ?_⟩⟩
  · obtain ⟨ps, hps⟩ := Traffic.exists_runs (hw.mono fun _ _ hop => hop.1)
    exact hruns _ hps
  · have hfaithful := Replica.commits_faithful.reached Replica.faithful_empty
      (hw.mono fun _ _ hop => hop.2)
    obtain ⟨k, hk, hid⟩ := hfaithful.attached.votes v hv
    obtain ⟨c, hc, rfl⟩ := List.mem_map.1 hk
    exact ⟨c, hc, hid⟩

/-- A comment that has got a pseudonym, an upvote from another user, and a user who hears of the
section. -/
def wellVisited : World :=
  let key : SectionKey := ⟨"wiki", "talk", 1, 1⟩
  (((Traffic.signed.after .masquerade (.signAs ["Owl"])).after .masquerade
    (.vote (some 4) { key, comment := 1, upvote := true })).after .masquerade
    (.vote (some 6) { key, comment := 1, upvote := true })).after .masquerade
    (.choose (some 6) { key, status := "immediate" })

theorem respects_options_wellVisited :
    let s := wellVisited.store
    (s.Respects .masquerade ∧ ∀ v ∈ s.votes, ∃ c ∈ s.comments, c.id = v.comment) ∧
      s.comments.map (·.pseudonym) = [some "Owl"] ∧ s.votes = [⟨1, 6⟩] ∧
      s.choices = [⟨6, ⟨"wiki", "talk", 1, 1⟩, 0, .immediate⟩] := by
  intro s
  have hplain : ∀ d ∈ Forum.masquerade.areas, d.handler.IsPlain := by
    intro d hd
    rw [List.mem_singleton.1 hd]
    exact ⟨rfl, rfl⟩
  have hw : Reached (fun f op => f.areas = Forum.masquerade.areas ∧ op.isSingle) wellVisited :=
    ((((Reached.start.after ⟨rfl, rfl⟩).after ⟨rfl, rfl⟩).after ⟨rfl, rfl⟩).after ⟨rfl, rfl⟩).after
      ⟨rfl, rfl⟩
  exact ⟨(Store.respects_options .masquerade hplain).2 wellVisited hw, by decide, by decide,
    by decide⟩

end Discussion
