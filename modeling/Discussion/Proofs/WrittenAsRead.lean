import Discussion.Proofs.BatchStepwise
import Discussion.Proofs.Forest
import Discussion.Proofs.SingleView

namespace Discussion

section Lists

variable {α β γ : Type} {R : α → β → Prop} {as : List α} {bs : List β}

theorem forall₂_trans {S : β → γ → Prop} {cs : List γ} (h : List.Forall₂ R as bs)
    (h' : List.Forall₂ S bs cs) : List.Forall₂ (fun a c => ∃ b, R a b ∧ S b c) as cs := by
  induction h generalizing cs with
  | nil =>
    obtain rfl := List.forall₂_nil_left_iff.1 h'
    exact .nil
  | cons hab _ ih =>
    obtain ⟨c, cs, hbc, hcs, rfl⟩ := List.forall₂_cons_left_iff.1 h'
    exact .cons ⟨_, hab, hbc⟩ (ih hcs)

end Lists

variable {s t : Store} {w w' : World}

/-- Views show whole seconds. What is smaller matters where it decides about an edit. -/
theorem Section.viewComment_retimed {sec : Section} {usual : UsualCapability}
    (hexport : sec.handler.exportCustomData = fun _ _ fields _ => fields) (c : Comment)
    (created modified : Instant) (hcreated : created.seconds = c.timeCreated.seconds)
    (hmodified : modified.seconds = c.timeModified.seconds)
    (hfresh : usual.ownsFresh { c with timeCreated := created } = usual.ownsFresh c)
    (people : Participants) :
    sec.viewComment { c with timeCreated := created, timeModified := modified } usual.toCapability
      people = sec.viewComment c usual.toCapability people := by
  have hedit (data : CustomData) : usual.toCapability.mayEdit
      { c with timeCreated := created, timeModified := modified, customData := data } =
        usual.toCapability.mayEdit { c with customData := data } :=
    congrArg (fun fresh => usual.view && (fresh || usual.editAny)) hfresh
  unfold viewComment
  simp only [hexport, hcreated, hmodified]
  refine bind_congr fun r => ?_
  rw [hedit]
  rfl

/-- What a clock shows. It knows no leap seconds. -/
def Instant.OnClock (t : Instant) : Prop :=
  t.nanos < 1000000000

/-- At the moment of a comment the clock tells the same of its freshness, with or without the
nanoseconds. -/
theorem UsualCapability.ownsFresh_floor {site : Site} {window : Duration}
    (hwindow : site.settings.editingTime = .ok window) (hnow : site.now.OnClock)
    {usual : UsualCapability} (husual : usual.window = window) (hclock : usual.now = site.now)
    (c : Comment) : usual.ownsFresh { c with timeCreated := site.now.floor } =
      usual.ownsFresh { c with timeCreated := site.now } := by
  have hnanos := Settings.editingTime_eq_ok hwindow
  have hfresh : decide ((site.now.since site.now.floor).nanos < window.nanos) =
      decide ((site.now.since site.now).nanos < window.nanos) := by
    rw [decide_eq_decide, hnanos]
    unfold Instant.OnClock at hnow
    dsimp only [Instant.since, Instant.floor]
    omega
  unfold ownsFresh Comment.age
  rw [husual, hclock, hfresh]
  rfl

theorem Store.Numbered.comment?_add_new (hs : s.Numbered) {r : StoredComment}
    (hreply : r.replyTo ≠ some (s.lastId + 1)) :
    (s.add r).2.comment? (s.lastId + 1) = some (s.newRow r) := by
  have hnone : s.comments.find? (·.id == s.lastId + 1) = none := by
    rw [List.find?_eq_none]
    intro c hc hid
    have hissued := hs.keyed.issued c hc
    rw [beq_iff_eq.1 hid] at hissued
    lia
  have hnew : [s.newRow r].find? (·.id == s.lastId + 1) = some (s.newRow r) :=
    List.find?_cons_of_pos BEq.rfl
  unfold comment?
  rw [comments_add, List.find?_map]
  change ((s.comments ++ [s.newRow r]).find? (·.id == s.lastId + 1)).map _ = _
  rw [List.find?_append, hnone, Option.none_or, hnew, Option.map_some,
    show (s.newRow r).id = s.lastId + 1 from rfl, if_neg hreply, StoredComment.addReplies_zero]

theorem Comment.ofStored_packed {c : Comment} (h : normalPseudonym c.pseudonym = c.pseudonym)
    (id : CommentId) (created modified : Instant) :
    ofStored { c.packed.toStored with id, timeCreated := created, timeModified := modified } =
      { c.packed.withId id with timeCreated := created, timeModified := modified } :=
  congrArg (fun pseudonym => { c.packed.withId id with
    pseudonym, timeCreated := created, timeModified := modified }) h

namespace Store

/-- The second store comes of the first one by saves of comments. -/
structure Since (s t : Store) : Prop where
  numbered : t.Numbered
  issued : s.lastId ≤ t.lastId
  people : t.people = s.people

theorem Since.refl (h : s.Numbered) : s.Since s :=
  ⟨h, Int.le_refl _, rfl⟩

theorem Since.person? (h : s.Since t) : t.person? = s.person? :=
  Store.person?_congr h.people

theorem Since.saves {u : Store} (h : s.Since t) {c : Comment} (hsaves : t.Saves c u) :
    s.Since u where
  numbered := by
    cases hsaves with
    | new => exact h.numbered.answer (.add _)
    | again => exact h.numbered.answer (.revise _)
  issued := by
    have hissued := h.issued
    cases hsaves with
    | new =>
      have := t.lastId_answer (.add c.packed.toStored)
      change _ ≤ (t.answer (.add c.packed.toStored)).2.lastId
      lia
    | again => exact hissued
  people := hsaves.people_eq.trans h.people

theorem Saves.votes_eq {c : Comment} (h : s.Saves c t) : t.votes = s.votes := by
  cases h with
  | new => exact s.votes_add _
  | again => rfl

theorem Saves.choices_eq {c : Comment} (h : s.Saves c t) : t.choices = s.choices := by
  cases h with
  | new => exact s.choices_add _
  | again => rfl

theorem Saves.comment?_kept {c : Comment} (h : s.Saves c t) {id : CommentId} {row : StoredComment}
    (hrow : s.comment? id = some row) (hid : c.id ≠ some id)
    (hreply : c.id = none → c.replyTo ≠ some id) : t.comment? id = some row := by
  obtain rfl := (mem_of_comment? hrow).2
  cases h with
  | new hnew =>
    rw [comment?_add hrow]
    exact congrArg some
      ((congrArg row.addReplies (if_neg (hreply hnew))).trans row.addReplies_zero)
  | again hold =>
    rw [comment?_revise, hrow, Option.map_some]
    exact congrArg some (if_neg fun heq => hid (hold.trans (congrArg some heq.symm)))

end Store

/-- What has been found out about a comment that waits to be saved, whatever is stored. -/
structure Forum.Readies (f : Forum) (user : UserId) (p : Prepared) : Prop where
  located : ∀ s, (f.sectionOf p.sec.key).look s = .ok p.sec
  usual : p.sec.handler.Usual
  capability : p.sec.capability f.site (some user) = .ok p.cap
  allowed : p.cap.mayView
  pseudonym : normalPseudonym p.comment.pseudonym = p.comment.pseudonym

namespace Forum

variable {f : Forum} {user : UserId} {p : Prepared} {row : StoredComment} {sec : Section}
variable {cap : Capability} {v : ShownComment} {people : Comment → Participants}

/-- What a save has shown is what there is to see afterwards: of the comment that is stored only
parts of seconds are lost. -/
theorem Readies.presents (h : f.Readies user p) (hnow : f.site.now.OnClock)
    {c : Comment} (hkey : c.key = p.sec.key) {row : StoredComment}
    (hstored : t.comment? (c.id.getD 0) = some row) {created modified : Instant}
    (hrow : .ofStored row = { c with timeCreated := created, timeModified := modified })
    (hcreated : created = c.timeCreated ∨ c.timeCreated = f.site.now ∧ created = f.site.now.floor)
    (hmodified : modified.seconds = c.timeModified.seconds)
    (hseen : (p.sec.viewComment c p.cap ⟨t.person? c.author, t.person? c.modifier⟩).look t = .ok v) :
    f.Presents t user row p.sec p.cap v := by
  have hrowkey : row.key = p.sec.key := (congrArg Comment.key hrow).trans hkey
  have hid : v.id = c.id.getD 0 := (p.sec.viewComment_reads_id c p.cap _).look hseen
  have hauthor : row.author = c.author := congrArg Comment.author hrow
  have hmodifier : row.modifier = c.modifier := congrArg Comment.modifier hrow
  obtain ⟨window, hwindow, hcap⟩ := Section.capability_eq_ok h.usual.capability h.capability
  refine ⟨hid ▸ hstored, hrowkey ▸ h.located t, hrowkey, h.capability, h.allowed, ?_⟩
  rw [hrow, hauthor, hmodifier, hcap,
    p.sec.viewComment_retimed h.usual.exported c created modified, ← hcap]
  · exact hseen
  · rcases hcreated with rfl | ⟨hsame, rfl⟩
    · rfl
    · rw [hsame]
      rfl
  · exact hmodified
  · rcases hcreated with rfl | ⟨hsame, rfl⟩
    · rfl
    · rw [UsualCapability.ownsFresh_floor hwindow hnow rfl rfl, ← hsame]

theorem Presents.saved (h : f.Presents s user row sec cap v) {c : Comment} (hsaves : s.Saves c t)
    (hid : c.id ≠ some v.id) (hreply : c.id = none → c.replyTo ≠ some v.id) :
    f.Presents t user row sec cap v where
  stored := hsaves.comment?_kept h.stored hid hreply
  located := (look_sectionOf row.key).trans h.located
  own := h.own
  capability := h.capability
  allowed := h.allowed
  seen := by
    have hperson : t.person? = s.person? := Store.person?_congr hsaves.people_eq
    have hupvoted : t.upvoted = s.upvoted := by
      unfold Store.upvoted
      rw [hsaves.votes_eq]
    have hstatus : sec.statusIn t = sec.statusIn s := by
      unfold Section.statusIn Store.choice?
      rw [hsaves.choices_eq]
    rw [hperson, sec.look_viewComment_congr (s := s) (by rw [hupvoted]) fun _ => by rw [hstatus]]
    exact h.seen

theorem look_sectionOf_own {key : SectionKey} (h : (f.sectionOf key).look s = .ok sec) :
    (f.sectionOf sec.key).look t = .ok sec := by
  rw [(f.sectionOf_reads key).look h]
  exact (look_sectionOf key).trans h

theorem PostsIn.comment_eq {req : PostRequest} (h : f.PostsIn s user req p)
    (hf : ∀ d ∈ f.areas, d.handler.IsPlain) :
    ∃ data, p.comment = { f.draft user req p.sec.key with customData := data } := by
  obtain ⟨fields, -, -, hp⟩ := Prepared.check_asIs h.checked (h.isPlain hf).asIs
  exact ⟨_, hp⟩

theorem PostsIn.readies {req : PostRequest} (h : f.PostsIn s user req p)
    (hplain : ∀ d ∈ f.areas, d.handler.IsPlain) (husual : f.Usual) : f.Readies user p where
  located := fun t => look_sectionOf_own h.located
  usual := ((sectionOf_handler husual req.key).look h.located).2
  capability := h.capability
  allowed := by
    obtain ⟨x, -, -, hpost⟩ := h.target
    obtain ⟨usual, -, hcap⟩ :=
      Section.capability_usual (h.isPlain hplain).capability h.capability
    rw [hcap] at hpost ⊢
    exact (Bool.and_eq_true_iff.1 (Bool.and_eq_true_iff.1 hpost).1).1
  pseudonym := by
    obtain ⟨data, hdata⟩ := h.comment_eq hplain
    rw [hdata]
    exact normalPseudonym_normalPseudonym _

theorem EditsIn.readies {req : EditRequest} (h : f.EditsIn s user req p)
    (hplain : ∀ d ∈ f.areas, d.handler.IsPlain) (husual : f.Usual) : f.Readies user p := by
  obtain ⟨x, hx, hedits⟩ := h.found
  have hcapability := hedits.serves.capability
  refine ⟨fun t => look_sectionOf_own h.located, ?_, hcapability, ?_, ?_⟩
  · exact hedits.serves.handler husual
  · obtain ⟨usual, -, hcap⟩ :=
      Section.capability_usual (hedits.serves.handler hplain).capability hcapability
    have hmay := hedits.allowed
    rw [hcap] at hmay ⊢
    exact (Bool.and_eq_true_iff.1 hmay).1
  · rcases hedits.pseudonym_cases (hedits.serves.handler hplain).asIs with
      ⟨q, hq, hset⟩ | ⟨-, hset⟩
    · rw [hset]
      exact normalPseudonym_of_eq_some hq
    · rw [hset]
      rfl

theorem PostsIn.target_issued {req : PostRequest} (h : f.PostsIn s user req p)
    (hplain : ∀ d ∈ f.areas, d.handler.IsPlain) (hs : s.Numbered) {id : CommentId}
    (hid : p.comment.replyTo = some id) : id ≤ s.lastId := by
  obtain ⟨data, hdata⟩ := h.comment_eq hplain
  obtain ⟨x, hx, hstored, -⟩ := h.target
  rw [hdata] at hid
  obtain ⟨y, rfl, rfl⟩ := Option.map_eq_some_iff.1 (hx.trans hid)
  exact hs.keyed.issued y (Store.mem_of_comment? (hstored y rfl).1).1

/-- A new comment replies to one of the first store, so no row that has come since is its target. -/
theorem PostsIn.keeps {req : PostRequest} (h : f.PostsIn s user req p)
    (hplain : ∀ d ∈ f.areas, d.handler.IsPlain) (hs : s.Numbered) {id : CommentId}
    (hid : s.lastId < id) :
    p.comment.id ≠ some id ∧ (p.comment.id = none → p.comment.replyTo ≠ some id) := by
  rw [h.id_eq hplain]
  refine ⟨nofun, fun _ hreply => ?_⟩
  have := h.target_issued hplain hs hreply
  lia

theorem PostsIn.stored {req : PostRequest} (h : f.PostsIn s user req p)
    (hplain : ∀ d ∈ f.areas, d.handler.IsPlain) (hs : s.Numbered) (hsince : s.Since w.store)
    (hsave : (p.save people).Yields w v w') : v.id = w.store.lastId + 1 ∧
      w'.store.comment? v.id = some (w.store.newRow p.comment.packed.toStored) := by
  obtain ⟨-, hstore, hview⟩ := Prepared.save_new hsave (h.id_eq hplain)
  have hid : v.id = w.store.lastId + 1 := (p.sec.viewComment_reads_id _ _ _).look hview
  refine ⟨hid, ?_⟩
  rw [hid, hstore]
  apply hsince.numbered.comment?_add_new
  exact (h.keeps hplain hs (Int.lt_add_one_of_le hsince.issued)).2 (h.id_eq hplain)

theorem PostsIn.presents {req : PostRequest} (h : f.PostsIn s user req p)
    (hplain : ∀ d ∈ f.areas, d.handler.IsPlain) (husual : f.Usual)
    (hnow : f.site.now.OnClock) (hs : s.Numbered) (hsince : s.Since w.store)
    (hpeople : people = fun _ => ⟨s.person? user, s.person? user⟩)
    (hsave : (p.save people).Yields w v w') :
    s.lastId < v.id ∧ ∃ row, f.Presents w'.store user row p.sec p.cap v := by
  obtain ⟨hid, hstored⟩ := h.stored hplain hs hsince hsave
  obtain ⟨hkey, -, hview⟩ := Prepared.save_new hsave (h.id_eq hplain)
  have hready := h.readies hplain husual
  have hissued := hsince.issued
  obtain ⟨data, hdata⟩ := h.comment_eq hplain
  have hauthor : p.comment.author = user := by rw [hdata]; rfl
  have hmodifier : p.comment.modifier = user := by rw [hdata]; rfl
  have hcreated : p.comment.timeCreated = f.site.now := by rw [hdata]; rfl
  have hseen : (p.sec.viewComment (p.comment.packed.withId (w.store.lastId + 1)) p.cap
      ⟨w'.store.person? p.comment.author, w'.store.person? p.comment.modifier⟩).look w'.store =
        .ok v := by
    rw [hauthor, hmodifier, (hsince.saves (Prepared.save_saves hsave)).person?]
    rw [hpeople] at hview
    exact hview
  rw [hid] at hstored
  refine ⟨by lia, _, hready.presents (c := p.comment.packed.withId _) hnow hkey hstored
    (Comment.ofStored_packed hready.pseudonym _ _ _) ?_ rfl hseen⟩
  exact .inr ⟨hcreated, congrArg Instant.floor hcreated⟩

theorem Edits.comment_eq {req : EditRequest} {x : StoredComment} (h : f.Edits user req x p)
    (hplain : ∀ d ∈ f.areas, d.handler.IsPlain) :
    ∃ pseudonym data, p.comment = { Comment.ofStored x with
      content := req.content, format := req.format, pseudonym, customData := data
      modifier := user, timeModified := f.site.now } := by
  obtain ⟨edited, hset, hchecked⟩ := h.checked
  obtain ⟨pseudonym, rfl⟩ := Comment.withPseudonym_kept hset
  obtain ⟨fields, -, -, hp⟩ := Prepared.check_asIs hchecked (h.serves.handler hplain).asIs
  exact ⟨pseudonym, _, hp⟩

theorem EditsIn.presents {req : EditRequest} (h : f.EditsIn w.store user req p)
    (hplain : ∀ d ∈ f.areas, d.handler.IsPlain) (husual : f.Usual)
    (hnow : f.site.now.OnClock) (hsince : s.Since w.store)
    (hpeople : ∀ c : Comment, c.author = p.comment.author →
      people c = ⟨s.person? c.author, s.person? user⟩)
    (hsave : (p.save people).Yields w v w') :
    p.comment.id = some v.id ∧ ∃ row, f.Presents w'.store user row p.sec p.cap v := by
  have hnamed := h.id_eq hplain
  obtain ⟨hkey, -, hstore, hview⟩ := Prepared.save_again hsave hnamed
  have hready := h.readies hplain husual
  obtain ⟨x, hx, hedits⟩ := h.found
  obtain ⟨pseudonym, data, hdata⟩ := hedits.comment_eq hplain
  have hmodifier : p.comment.modifier = user := by rw [hdata]
  have hxid := (Store.mem_of_comment? hx).2
  have hrow : x.revised p.comment.packed.toStored =
      { p.comment.packed.toStored with
        id := x.id
        timeCreated := p.comment.timeCreated
        timeModified := p.comment.timeModified.floor } := by
    rw [hdata]
    rfl
  have hid : v.id = p.comment.id.getD 0 :=
    (p.sec.viewComment_reads_id p.comment.packed _ _).look hview
  have hstored : w'.store.comment? (p.comment.id.getD 0) =
      some (x.revised p.comment.packed.toStored) := by
    rw [hstore, hnamed, Option.getD_some, Store.comment?_revise, hx, Option.map_some]
    exact congrArg some (if_pos (congrArg (Option.getD · 0) hnamed).symm)
  have hread : Comment.ofStored (x.revised p.comment.packed.toStored) =
      { p.comment.packed with timeModified := p.comment.timeModified.floor } := by
    rw [hrow, Comment.ofStored_packed hready.pseudonym, hxid]
    exact congrArg (fun id => { p.comment.packed with
      id, timeModified := p.comment.timeModified.floor }) hnamed.symm
  have hseen : (p.sec.viewComment p.comment.packed p.cap
      ⟨w'.store.person? p.comment.author, w'.store.person? p.comment.modifier⟩).look w'.store =
        .ok v := by
    rw [hmodifier, (hsince.saves (Prepared.save_saves hsave)).person?]
    rw [hpeople p.comment.packed rfl] at hview
    exact hview
  rw [hnamed, Option.getD_some] at hid
  refine ⟨hnamed.trans (congrArg some hid.symm), x.revised p.comment.packed.toStored, ?_⟩
  exact hready.presents (c := p.comment.packed) hnow hkey hstored hread (.inl rfl) rfl hseen

end Forum

namespace Prepared

variable {I : Store → Prepared → Prop} {J : Store → Prepared → ShownComment → Prop}
variable {R : Prepared → Prepared → Prop} {people : Comment → Participants}
variable {pending : List Prepared} {views : List ShownComment}

theorem saveAll_keeps
    (hready : ∀ {s t p p'}, R p p' → I s p → I s p' → s.Saves p.comment t → I t p')
    (hshown : ∀ {s t p p' v}, R p p' → I s p' → J s p v → s.Saves p'.comment t → J t p v)
    (hpending : ∀ p ∈ pending, I w.store p) (hapart : pending.Pairwise R) {p : Prepared}
    (hp : ∀ q ∈ pending, R p q) {v : ShownComment} (hv : J w.store p v)
    (h : Action.Yields (pending.mapM fun p => p.save people) w views w') : J w'.store p v := by
  induction pending generalizing w views with
  | nil =>
    obtain ⟨-, rfl⟩ := Action.yields_pure.1 h
    exact hv
  | cons q pending ih =>
    obtain ⟨_, _, w₁, hsave, hrest, -⟩ := Action.yields_mapM_cons.1 h
    obtain ⟨hq, hpending⟩ := List.forall_mem_cons.1 hpending
    obtain ⟨hqapart, hapart⟩ := List.pairwise_cons.1 hapart
    obtain ⟨hpq, hp⟩ := List.forall_mem_cons.1 hp
    have hsaved := save_saves hsave
    exact ih (fun r hr => hready (hqapart r hr) hq (hpending r hr) hsaved) hapart hp
      (hshown hpq hq hv hsaved) hrest

/-- What holds of a view when its comment has been saved holds of all views in the end, if a comment
that waits stays ready and nothing that has been shown changes. -/
theorem saveAll_shown
    (hsave : ∀ {w w' p v}, I w.store p → (p.save people).Yields w v w' → J w'.store p v)
    (hready : ∀ {s t p p'}, R p p' → I s p → I s p' → s.Saves p.comment t → I t p')
    (hshown : ∀ {s t p p' v}, R p p' → I s p' → J s p v → s.Saves p'.comment t → J t p v)
    (hpending : ∀ p ∈ pending, I w.store p) (hapart : pending.Pairwise R)
    (h : Action.Yields (pending.mapM fun p => p.save people) w views w') :
    List.Forall₂ (J w'.store) pending views := by
  induction pending generalizing w views with
  | nil =>
    obtain ⟨rfl, -⟩ := Action.yields_pure.1 h
    exact .nil
  | cons p pending ih =>
    obtain ⟨v, vs, w₁, hfirst, hrest, rfl⟩ := Action.yields_mapM_cons.1 h
    obtain ⟨hp, hpending⟩ := List.forall_mem_cons.1 hpending
    obtain ⟨hpapart, hapart⟩ := List.pairwise_cons.1 hapart
    have hsaved := save_saves hfirst
    have hpending : ∀ q ∈ pending, I w₁.store q := fun q hq =>
      hready (hpapart q hq) hp (hpending q hq) hsaved
    refine .cons ?_ (ih hpending hapart hrest)
    exact saveAll_keeps hready hshown hpending hapart hpapart (hsave hp hfirst) hrest

end Prepared

namespace Forum

variable {f : Forum} {user : UserId} {views : List ShownComment}

theorem post_shown {J : Store → Prepared → ShownComment → Prop} (hnumbered : w.store.Numbered)
    (hsave : ∀ {w₁ w₂ req p v}, w.store.Since w₁.store → f.PostsIn w.store user req p →
      let me := personOf (w.store.peopleByIds [user]) user
      (p.save fun _ => ⟨me, me⟩).Yields w₁ v w₂ → J w₂.store p v)
    (hkept : ∀ {s t req p p' v}, f.PostsIn w.store user req p' → J s p v → s.Saves p'.comment t →
      J t p v) {reqs : List PostRequest} (h : (f.post (some user) reqs).Yields w views w') :
    List.Forall₂ (fun req v => ∃ p, f.PostsIn w.store user req p ∧ J w'.store p v) reqs views := by
  obtain ⟨_, ⟨⟩, hpost⟩ := post_eq_batch h
  rw [hpost] at h
  obtain ⟨pending, hpending, h⟩ :=
    (batch_yields fun req => (f.preparePost_posts user req).mono fun _ _ => trivial).1 h
  have hfound : List.Forall₂ (f.PostsIn w.store user) reqs pending :=
    hpending.imp fun _ _ => look_preparePost.1
  refine forall₂_trans hfound (Prepared.saveAll_shown (R := fun _ _ => True)
    (I := fun s p => w.store.Since s ∧ ∃ req, f.PostsIn w.store user req p)
    ?save ?ready ?shown ?pending (List.pairwise_of_forall fun _ _ => trivial) h)
  case save =>
    rintro w₁ w₂ p v ⟨hsince, req, hp⟩ hsaved
    exact hsave hsince hp hsaved
  case ready =>
    rintro s t p p' - - ⟨hsince, hp'⟩ hsaves
    exact ⟨hsince.saves hsaves, hp'⟩
  case shown =>
    rintro s t p p' v - ⟨-, req, hp'⟩ hv hsaves
    exact hkept hp' hv hsaves
  case pending => exact fun p hp => ⟨.refl hnumbered, exists_of_forall₂ hfound p hp⟩

variable (hplain : ∀ d ∈ f.areas, d.handler.IsPlain) (husual : f.Usual)
variable (hnow : f.site.now.OnClock)
variable (hnumbered : w.store.Numbered) (hordered : w.store.PeopleOrdered)

include hplain husual hnow hnumbered hordered

theorem post_presents {reqs : List PostRequest}
    (h : (f.post (some user) reqs).Yields w views w') {v : ShownComment} (hv : v ∈ views) :
    ∃ row sec cap, f.Presents w'.store user row sec cap v := by
  have hshown := post_shown (J := fun s _ v => w.store.lastId < v.id ∧ ∃ row sec cap,
    f.Presents s user row sec cap v) hnumbered ?save ?kept h
  · obtain ⟨_, _, _, _, hpresents⟩ := exists_of_forall₂ hshown v hv
    exact hpresents
  case save =>
    intro w₁ w₂ req p v hsince hp me hsave
    have hme := personOf_eq hordered (List.mem_singleton_self user)
    obtain ⟨hid, row, hpresents⟩ :=
      hp.presents hplain husual hnow hnumbered hsince (by rw [← hme]) hsave
    exact ⟨hid, row, _, _, hpresents⟩
  case kept =>
    rintro s t req p p' v hp' ⟨hid, row, sec, cap, hpresents⟩ hsaves
    obtain ⟨hother, hreply⟩ := hp'.keeps hplain hnumbered hid
    exact ⟨hid, row, sec, cap, hpresents.saved hsaves hother hreply⟩

theorem edit_presents {reqs : List EditRequest} (hdistinct : (reqs.map (·.id)).Nodup)
    (h : (f.edit (some user) reqs).Yields w views w') {v : ShownComment} (hv : v ∈ views) :
    ∃ row sec cap, f.Presents w'.store user row sec cap v := by
  obtain ⟨_, ⟨⟩, hedit⟩ := edit_eq_batch h
  rw [hedit] at h
  obtain ⟨pending, hpending, h⟩ := (batch_yields (f.prepareEdit_reads user)).1 h
  have hfound : List.Forall₂ (f.EditsIn w.store user) reqs pending :=
    hpending.imp fun _ _ => look_prepareEdit.1
  refine (exists_of_forall₂ (Prepared.saveAll_shown (R := fun p p' => p.comment.id ≠ p'.comment.id)
    (I := fun s p => w.store.Since s ∧ p ∈ pending ∧ ∃ req, f.EditsIn s user req p)
    (J := fun s p v => p.comment.id = some v.id ∧ ∃ row sec cap, f.Presents s user row sec cap v)
    ?save ?ready ?shown ?pending ?apart h) v hv).elim fun _ hshown => hshown.2
  case save =>
    rintro w₁ w₂ p v ⟨hsince, hp, req, hedits⟩ hsave
    have hasked {id : UserId} (hid : id ∈ [p.comment.author, user]) :
        personOf (w.store.peopleByIds (pending.flatMap fun p => [p.comment.author, user])) id =
          w.store.person? id :=
      personOf_eq hordered (List.mem_flatMap.2 ⟨p, hp, hid⟩)
    obtain ⟨hid, row, hpresents⟩ := hedits.presents hplain husual hnow hsince
      (fun c hc => by
        rw [hc, hasked List.mem_cons_self,
          hasked (List.mem_cons_of_mem _ (List.mem_singleton_self user))]) hsave
    exact ⟨hid, row, _, _, hpresents⟩
  case ready =>
    rintro s t p p' hother ⟨-, -, req, hedits⟩ ⟨hsince, hp', req', hedits'⟩ hsaves
    refine ⟨hsince.saves hsaves, hp', req', ?_⟩
    rw [hedits.id_eq hplain, hedits'.id_eq hplain] at hother
    exact look_prepareEdit.1 (look_prepareEdit_saved hplain (fun heq => hother (congrArg some heq))
      (look_prepareEdit.2 hedits) (look_prepareEdit.2 hedits') hsaves)
  case shown =>
    rintro s t p p' v hother ⟨-, -, req, hedits⟩ ⟨hid, row, sec, cap, hpresents⟩ hsaves
    refine ⟨hid, row, sec, cap, hpresents.saved hsaves (fun heq => ?_) fun hnone => ?_⟩
    · exact hother (hid.trans heq.symm)
    · rw [hedits.id_eq hplain] at hnone
      cases hnone
  case pending => exact fun p hp => ⟨.refl hnumbered, hp, exists_of_forall₂ hfound p hp⟩
  case apart =>
    have hids : pending.map (·.comment.id) = (reqs.map (·.id)).map some := by
      rw [List.map_map, ← List.forall₂_eq_eq_eq, List.forall₂_map_left_iff,
        List.forall₂_map_right_iff]
      exact hfound.flip.imp fun p req hp => hp.id_eq hplain
    refine List.pairwise_map.1 (?_ : (pending.map (·.comment.id)).Nodup)
    rw [hids]
    exact hdistinct.map (Option.some_injective _)

end Forum

/-- What a write returns is what a read shows: right after a post or an edit, in which no comment
comes twice, the user finds each of the returned views, the same in every field, alone on the page
of its comment. -/
theorem Forum.written_as_read {f : Forum} (hplain : ∀ d ∈ f.areas, d.handler.IsPlain)
    (husual : f.Usual) (hnow : f.site.now.OnClock)
    (hpages : f.site.settings.defaultPageSize ≤ f.site.settings.maxPageSize)
    {allowed : Forum → Operation → Prop} (hw : Reached allowed w) (user : UserId)
    {views : List ShownComment} :
    (∀ batch, (f.post (some user) batch).Yields w views w' → ∀ v ∈ views, f.ReadsBack user w' v) ∧
      ∀ batch, (batch.map (·.id)).Nodup → (f.edit (some user) batch).Yields w views w' →
        ∀ v ∈ views, f.ReadsBack user w' v := by
  have hnumbered := (Store.forest_of_reached hw).toNumbered
  have hordered := Store.peopleOrdered_of_reached hw
  constructor
  · intro batch h v hv
    obtain ⟨row, sec, cap, hpresents⟩ :=
      post_presents hplain husual hnow hnumbered hordered h hv
    exact hpresents.readsBack hpages
  · intro batch hdistinct h v hv
    obtain ⟨row, sec, cap, hpresents⟩ :=
      edit_presents hplain husual hnow hnumbered hordered hdistinct h hv
    exact hpresents.readsBack hpages

/-- The wiki, where users may reply to each other under pseudonyms. -/
def Forum.livelyWiki (now : Instant) : Forum where
  site := { (Forum.wiki .wiki).site with now }
  areas := [⟨"wiki", "talk", { allowReplies := true, allowPseudonym := true }, .wiki⟩]

/-- The nanoseconds of the clock are not stored, but what is shown is the same. -/
theorem Forum.written_as_read_livelyWiki :
    let f := Forum.livelyWiki ⟨7, 999999999⟩
    let key : SectionKey := ⟨"wiki", "talk", 1, 1⟩
    let w := World.after {} f (.postToWiki 4 [none])
    let replies : List PostRequest := [
      { key, content := "Reply", replyTo := some 1, pseudonym := "Owl" },
      { key, content := "Other", pseudonym := " Owl " }]
    let changes : List EditRequest := [{ id := 1, key, content := "Better", pseudonym := "Elk" }]
    Reached (fun _ _ => True) w ∧
    (∃ views w', (f.post (some 5) replies).Yields w views w' ∧ views.map (·.id) = [2, 3] ∧
      ∀ v ∈ views, f.ReadsBack 5 w' v) ∧
    ∃ views w', (f.edit (some 4) changes).Yields w views w' ∧ views.map (·.id) = [1] ∧
      ∀ v ∈ views, f.ReadsBack 4 w' v := by
  intro f key w replies changes
  have hplain : ∀ d ∈ f.areas, d.handler.IsPlain := by
    intro d hd
    rw [List.mem_singleton.1 hd]
    exact ⟨rfl, rfl⟩
  have husual : f.Usual := by
    intro d hd
    rw [List.mem_singleton.1 hd]
    exact ⟨rfl, rfl⟩
  have hnow : f.site.now.OnClock := Nat.lt_succ_self 999999999
  have hw : Reached (fun _ _ => True) w := Reached.start.after trivial
  have hids {m : Action (List ShownComment)} {views : List ShownComment} {w' : World}
      {ids : List CommentId} (h : m.Yields w views w')
      (hm : (m.run.run Faults.never () w).1.toOption.map (·.map (·.id)) = some ids) :
      views.map (·.id) = ids := by
    rw [show m.run.run Faults.never () w = _ from h] at hm
    exact Option.some.inj hm
  refine ⟨hw, ?_, ?_⟩
  · obtain ⟨views, h⟩ := Action.exists_yields (m := f.post (some 5) replies) (w := w) (by decide)
    exact ⟨views, _, h, hids h (by decide),
      (written_as_read hplain husual hnow (by decide) hw 5).1 _ h⟩
  · obtain ⟨views, h⟩ := Action.exists_yields (m := f.edit (some 4) changes) (w := w) (by decide)
    exact ⟨views, _, h, hids h (by decide),
      (written_as_read hplain husual hnow (by decide) hw 4).2 _ (by decide) h⟩

end Discussion
