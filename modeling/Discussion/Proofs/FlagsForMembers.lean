import Discussion.Proofs.AreaPages
import Discussion.Proofs.NoOrphans
import Discussion.Proofs.Pseudonym
import Discussion.Proofs.Refusals

namespace Discussion

variable {w : World} {user : UserId}

/-- What the user hears of a comment in the section with a key. -/
def Forum.Hears (f : Forum) (w : World) (user : UserId) (key : SectionKey) (id : CommentId)
    (status : Delivery) : Prop :=
  ∃ sec comment, (f.sectionOf key).Answers w sec ∧ (sec.comment id).Answers w comment ∧
    (sec.status user (some comment)).Answers w status

/-- The flag for the choice of a status. There is none for the default status. -/
def ShownComment.offers (v : ShownComment) : Delivery → Bool
  | .immediate => v.canSubscribe
  | .dailyDigest => v.canSubscribeDigest
  | .off => v.canUnsubscribe
  | .default => false

/-- The flags of the view tell what the user would be refused at the same moment. A choice is
offered where it is not what the user hears already. -/
structure ShownComment.Candid (v : ShownComment) (f : Forum) (user : UserId) (w : World) :
    Prop where
  delete : v.mayDelete ↔ ¬(f.remove (some user) [v.id]).Refuses w
  edit : ∀ req : EditRequest, req.key = v.key → req.id = v.id →
    (v.mayEdit ↔ ¬(f.edit (some user) [req]).Refuses w)
  upvote : ∀ req : VoteRequest, req.key = v.key → req.comment = v.id →
    (v.mayUpvote ↔ ¬(f.vote (some user) req).Refuses w)
  reply : ∀ req : PostRequest, req.key = v.key → req.replyTo = some v.id →
    ((if Text.isBlankText req.pseudonym then v.canReplyByRealName else v.canReplyByPseudonym) ↔
      ¬(f.post (some user) [req]).Refuses w)
  choice : ∃ current, f.Hears w user v.key v.id current ∧ ∀ status ≠ .default,
    (v.offers status ↔ status ≠ current ∧ ¬(f.choose (some user)
      { key := v.key, comment := some v.id, status := status.name }).Refuses w)

/-- The flags of the view tell whether a comment that replies to no other would be refused. -/
def ShownSection.Candid (v : ShownSection) (f : Forum) (user : UserId) (w : World) : Prop :=
  ∀ req : PostRequest, req.key = v.key → req.replyTo = none →
    ((if Text.isBlankText req.pseudonym then v.canPostByRealName else v.canPostByPseudonym) ↔
      ¬(f.post (some user) [req]).Refuses w)

namespace Section

variable {s : Store} {sec : Section} {cap : Capability}

theorem subscription_of_look {c : Comment} {people : Participants} {v : ShownComment}
    (h : (sec.viewComment c cap people).look s = .ok v) (huser : cap.user = some user) :
    v.subscription = sec.statusIn s user c.id := by
  unfold viewComment at h
  obtain ⟨⟨fields, data⟩, -, h⟩ := Action.look_bind_eq_ok h
  dsimp only at h
  rw [Action.look_bind_of (look_hasUpvoted _ _), Action.look_bind_of (sec.look_hearing _ _),
    huser] at h
  obtain rfl := Except.ok.inj h
  rfl

theorem posts_of_look {v : ShownSection} (h : (sec.view cap).look s = .ok v)
    (signature : Signature) : (match signature with
      | .realName => v.canPostByRealName
      | .pseudonym => v.canPostByPseudonym) = cap.mayPost signature none := by
  unfold view at h
  rw [Action.look_bind_of (sec.look_hearing _ _)] at h
  obtain rfl := Except.ok.inj h
  cases signature <;> rfl

end Section

namespace Forum

variable {f : Forum} {sec : Section} {cap : Capability} {r : StoredComment} {fields : Json.Fields}

theorem Depicts.candid {v : ShownComment} (h : f.Depicts w.store (some user) r sec cap fields v)
    (husual : ∀ d ∈ f.areas, d.handler.GrantsUsual) (henabled : f.site.settings.enabled)
    (hn : w.store.Numbered) (hr : r ∈ w.store.comments) : v.Candid f user w := by
  obtain ⟨hkey, hsec⟩ := (sectionOf_handler husual r.key).look h.located
  obtain ⟨usual, huser, rfl⟩ := Section.capability_usual hsec h.capability
  have hwelcome : f.Welcomes w.store user sec usual.toCapability :=
    ⟨henabled, hkey ▸ h.located, h.capability⟩
  have hcontains : sec.Contains w.store r := .of_mem hn hr hkey.symm
  have hsome : ∀ c ∈ some r, sec.Contains w.store c := by
    rintro _ ⟨⟩
    exact hcontains
  have hown : v.key = sec.key := h.key.trans hkey.symm
  have hcurrent := Section.subscription_of_look h.seen huser
  -- The custom data, which is decoded in the view only, has no part in what is allowed.
  constructor
  case delete =>
    rw [h.id, remove_refuses hwelcome hn hcontains, Bool.not_eq_false, h.grants.delete]
    rfl
  case edit =>
    intro req hreq hid
    rw [edit_refuses hwelcome hcontains (hreq.trans hown) (hid.trans h.id), Bool.not_eq_false,
      h.grants.edit]
    rfl
  case upvote =>
    intro req hreq hid
    rw [vote_refuses hwelcome hcontains (hreq.trans hown) (hid.trans h.id), Bool.not_eq_false,
      h.grants.upvote]
    rfl
  case reply =>
    intro req hreq hid
    rw [post_refuses hwelcome hsome (hreq.trans hown) (hid.trans (congrArg some h.id)),
      Bool.not_eq_false, Signature.ofPseudonym_normalPseudonym, h.grants.replyByPseudonym,
      h.grants.replyByRealName]
    split <;> rfl
  case choice =>
    refine ⟨v.subscription, ⟨sec, .ofStored r, ?_, ?_, ?_⟩, fun status hstatus => ?_⟩
    · rw [hown]
      exact hwelcome.answers
    · rw [h.id]
      exact hcontains.answers
    · rw [hcurrent]
      exact (sec.status_reads user _).answers (sec.look_status user _)
    · have hoffers : v.offers status =
          Section.mayChoose usual.toCapability v.subscription status (.ofStored r) := by
        cases status with
        | default => exact absurd rfl hstatus
        | off => exact h.grants.unsubscribe
        | immediate => exact h.grants.subscribe
        | dailyDigest => exact h.grants.subscribeDigest
      have huser : usual.toCapability.user.isSome := Option.isSome_of_eq_some huser
      rw [choose_refuses hwelcome hsome hown (congrArg some h.id) (Delivery.ofName?_name status),
        Bool.not_eq_false, hoffers, Section.mayChoose, huser, Bool.true_and, Bool.and_eq_true,
        bne_iff_ne, ne_comm]
      rfl

/-- What a section view is taken from: the section that the forum has under its key, and what the
user may do there. -/
def Heads (f : Forum) (s : Store) (user : Option UserId) (v : ShownSection) : Prop :=
  ∃ sec cap, (f.sectionOf sec.key).look s = .ok sec ∧ sec.capability f.site user = .ok cap ∧
    (sec.view cap).look s = .ok v

theorem Heads.candid {v : ShownSection} (h : f.Heads w.store (some user) v)
    (henabled : f.site.settings.enabled) : v.Candid f user w := by
  obtain ⟨sec, cap, hlocated, hcap, hview⟩ := h
  have hnone : ∀ c ∈ (none : Option StoredComment), sec.Contains w.store c := fun _ hc => nomatch hc
  intro req hreq htop
  rw [post_refuses ⟨henabled, hlocated, hcap⟩ hnone (hreq.trans (Section.look_view_inv hview)) htop,
    Bool.not_eq_false, Signature.ofPseudonym_normalPseudonym, Option.map_none,
    ← Section.posts_of_look hview]
  split <;> rfl

variable {req : ListRequest} {place : Place} {params : ListingQuery} {s : Store}
variable {viewer : Option UserId}

theorem Opens.heads (h : f.Opens s req place) {cs : List Comment} {page : CommentPage}
    (hpaged : Listing.Paged { place, params, viewer := .ofUser viewer } f.site s viewer cs page) :
    ∀ v ∈ page.sections, f.Heads s viewer v := by
  intro v hv
  obtain ⟨key, hholds, sec, cap, hlocate, hcap, hview⟩ := exists_of_forall₂
    ((List.forall₂_and_left _ _).2 ⟨hpaged.gathered.holds_headed, hpaged.sections⟩) v hv
  refine ⟨sec, cap, ?_, hcap, hview⟩
  rw [Place.key_of_locate hholds hlocate, h.locate hholds]
  exact hlocate

theorem heads_of_sectionViews {req : SectionRequest} {views : List ShownSection}
    (h : (f.sectionViews viewer req).look s = .ok views) : ∀ v ∈ views, f.Heads s viewer v := by
  unfold sectionViews at h
  split at h
  · obtain rfl := Except.ok.inj h
    exact fun _ hv => nomatch hv
  next item hitem =>
    obtain ⟨sec, hsec, h⟩ := Action.look_bind_eq_ok h
    obtain ⟨cap, hcap, h⟩ := Action.look_bind_eq_ok h
    split at h
    · obtain ⟨view, hview, h⟩ := Action.look_bind_eq_ok h
      obtain rfl := Except.ok.inj h
      refine List.forall_mem_singleton.2 ⟨sec, cap, ?_, hcap, hview⟩
      rw [(f.sectionOf_reads _).look hsec]
      exact hsec
    · obtain rfl := Except.ok.inj h
      exact fun _ hv => nomatch hv

theorem look_list_candid {page : CommentPage} (h : (f.list (some user) req).look w.store = .ok page)
    (husual : ∀ d ∈ f.areas, d.handler.GrantsUsual) (henabled : f.site.settings.enabled)
    (hn : w.store.Numbered) :
    (∀ v ∈ page.comments, v.Candid f user w) ∧ ∀ v ∈ page.sections, v.Candid f user w := by
  obtain ⟨params, place, cs, -, hopens, hpaged⟩ := list_settled h
  refine ⟨fun v hv => ?_, fun v hv => (hopens.heads hpaged v hv).candid henabled⟩
  obtain ⟨r, hr, sec, cap, fields, hdepicts⟩ := hopens.depicts_stored hpaged v hv
  exact hdepicts.candid husual henabled hn hr

/-- The flags that a user of a site with comments enabled is shown say exactly what would not be
refused at the same moment, be it on a page of comments or with a section alone. -/
theorem candid_of_reached {allowed : Forum → Operation → Prop} (hw : Reached allowed w)
    (husual : ∀ d ∈ f.areas, d.handler.GrantsUsual) (henabled : f.site.settings.enabled)
    {σ : Type} (faults : Faults σ) (state : σ) :
    (∀ (req : ListRequest) (page : CommentPage),
      ((f.list (some user) req).run.run faults state w).1 = .ok page →
        (∀ v ∈ page.comments, v.Candid f user w) ∧ ∀ v ∈ page.sections, v.Candid f user w) ∧
    ∀ (req : SectionRequest) (views : List ShownSection),
      ((f.sectionViews (some user) req).run.run faults state w).1 = .ok views →
        ∀ v ∈ views, v.Candid f user w := by
  have hn := (Store.tied_of_reached hw).toNumbered
  constructor
  · intro req page hpage
    exact look_list_candid ((f.list_asks _ req).look_of_run hpage) husual henabled hn
  · intro req views hviews v hv
    have hlook := (f.sectionViews_asks _ req).look_of_run hviews
    exact (heads_of_sectionViews hlook v hv).candid henabled

/-- The author of a reply may neither upvote it nor reply to it, but to the comment that it is a
reply to they may do both. -/
theorem candid_twoThreads :
    let wiki : Forum := .wiki .wiki
    ∀ id ∈ [2, 4], ∃ page, wiki.listed (some 5) { comment := some id } twoThreads = .ok page ∧
      page.comments.map (fun v => (v.id, v.mayUpvote, v.canReply)) = [(id, id == 2, id == 2)] ∧
      ∀ v ∈ page.comments, v.Candid wiki 5 twoThreads := by
  intro wiki id hid
  let flags (page : CommentPage) : List (CommentId × Bool × Bool) :=
    page.comments.map fun v => (v.id, v.mayUpvote, v.canReply)
  have hflags : ((wiki.listed (some 5) { comment := some id } twoThreads).map flags).toOption =
      some [(id, id == 2, id == 2)] := by
    obtain rfl | rfl : id = 2 ∨ id = 4 := by simpa using hid
    · cbv
    · cbv
  obtain ⟨page, hlisted, hflags⟩ := exists_of_toOption_map hflags
  have husual : ∀ d ∈ wiki.areas, d.handler.GrantsUsual := List.forall_mem_singleton.2 rfl
  refine ⟨page, hlisted, hflags, ?_⟩
  exact ((candid_of_reached reached_twoThreads husual rfl Faults.never ()).1 _ page hlisted).1

end Forum

end Discussion
