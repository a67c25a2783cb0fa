import Discussion.Proofs.FlagsForMembers

namespace Discussion

variable {w : World}

/-- A guest is not refused what a view of a comment offers. -/
structure ShownComment.Honest (v : ShownComment) (f : Forum) (w : World) : Prop where
  delete : v.mayDelete → ¬(f.remove none [v.id]).Refuses w
  edit : ∀ req : EditRequest, req.key = v.key → req.id = v.id →
    v.mayEdit → ¬(f.edit none [req]).Refuses w
  upvote : ∀ req : VoteRequest, req.key = v.key → req.comment = v.id →
    v.mayUpvote → ¬(f.vote none req).Refuses w
  reply : ∀ req : PostRequest, req.key = v.key → req.replyTo = some v.id →
    (if Text.isBlankText req.pseudonym then v.canReplyByRealName else v.canReplyByPseudonym) →
      ¬(f.post none [req]).Refuses w
  anyReply : v.canReply → ∃ req : PostRequest, req.key = v.key ∧ req.replyTo = some v.id ∧
    ¬(f.post none [req]).Refuses w
  choice : ∀ status, v.offers status → ¬(f.choose none
    { key := v.key, comment := some v.id, status := status.name }).Refuses w

/-- A guest is not refused what a view of a section offers. -/
structure ShownSection.Honest (v : ShownSection) (f : Forum) (w : World) : Prop where
  post : ∀ req : PostRequest, req.key = v.key → req.replyTo = none →
    (if Text.isBlankText req.pseudonym then v.canPostByRealName else v.canPostByPseudonym) →
      ¬(f.post none [req]).Refuses w
  anyPost : v.mayPost → ∃ req : PostRequest, req.key = v.key ∧ req.replyTo = none ∧
    ¬(f.post none [req]).Refuses w

/-- Where a page offers to post, a guest is not refused it in a section of the page. -/
def CommentPage.Honest (page : CommentPage) (f : Forum) (w : World) : Prop :=
  page.mayPost → ∃ v ∈ page.sections, ∃ req : PostRequest, req.key = v.key ∧ req.replyTo = none ∧
    ¬(f.post none [req]).Refuses w

/-- The view offers nothing at all. -/
structure ShownComment.OffersNothing (v : ShownComment) : Prop where
  delete : v.mayDelete = false
  edit : v.mayEdit = false
  upvote : v.mayUpvote = false
  reply : v.canReply = false
  choice : ∀ status, v.offers status = false

/-- What a guest is offered about a comment is what guests are permitted and what the area allows
everybody, whoever wrote the comment and when. No choice of what to hear is offered. -/
structure ShownComment.OffersGuest (v : ShownComment) (permissions : Permissions)
    (options : AreaOptions) (isReply : Bool) : Prop where
  delete : v.mayDelete = permissions Permissions.delete v.key.context none
  edit : v.mayEdit = permissions Permissions.editAny v.key.context none
  upvote : v.mayUpvote = options.allowUpvotes
  replyByRealName : v.canReplyByRealName =
    (options.allowRealname && (options.allowReplies && !isReply))
  replyByPseudonym : v.canReplyByPseudonym =
    (options.allowPseudonym && (options.allowReplies && !isReply))
  choice : ∀ status, v.offers status = false

/-- What a guest is offered in a section. -/
structure ShownSection.OffersGuest (v : ShownSection) (permissions : Permissions)
    (options : AreaOptions) : Prop where
  postByRealName : v.canPostByRealName =
    (permissions Permissions.view v.key.context none && options.allowRealname)
  postByPseudonym : v.canPostByPseudonym =
    (permissions Permissions.view v.key.context none && options.allowPseudonym)

namespace Forum

variable {f : Forum} {α : Type}

theorem refuses_guest {action : MemberAction} {g : UserId → Action α} :
    Action.Refuses (liftM (f.memberOf none action) >>= g) w ↔ f.site.settings.enabled := by
  rw [memberOf]
  split
  next henabled => exact iff_of_true ⟨.guest action, rfl⟩ henabled
  next hdisabled =>
    refine iff_of_false ?_ hdisabled
    rintro ⟨_, ⟨⟩⟩

theorem offer_iff {flag : Bool} {refused enabled : Prop} (h : refused ↔ enabled) :
    (flag → ¬refused) ↔ (enabled → flag = false) := by
  rw [h, ← Bool.not_eq_true]
  exact imp_not_comm

variable (f)

theorem post_refuses_guest (batch : List PostRequest) :
    (f.post none batch).Refuses w ↔ f.site.settings.enabled := refuses_guest

theorem edit_refuses_guest (batch : List EditRequest) :
    (f.edit none batch).Refuses w ↔ f.site.settings.enabled := refuses_guest

theorem remove_refuses_guest (ids : List CommentId) :
    (f.remove none ids).Refuses w ↔ f.site.settings.enabled := refuses_guest

theorem choose_refuses_guest (req : ChoiceRequest) :
    (f.choose none req).Refuses w ↔ f.site.settings.enabled := refuses_guest

theorem vote_refuses_guest (req : VoteRequest) :
    (f.vote none req).Refuses w ↔ f.site.settings.enabled := refuses_guest

end Forum

open Forum (offer_iff)

namespace ShownComment

variable {v : ShownComment} {f : Forum}

theorem honest_iff : v.Honest f w ↔ (f.site.settings.enabled → v.OffersNothing) := by
  constructor
  · intro h henabled
    constructor
    case delete => exact (offer_iff (f.remove_refuses_guest _)).1 h.delete henabled
    case edit =>
      let req : EditRequest := { id := v.id, key := v.key, content := "" }
      exact (offer_iff (f.edit_refuses_guest _)).1 (h.edit req rfl rfl) henabled
    case upvote =>
      let req : VoteRequest := { key := v.key, comment := v.id, upvote := true }
      exact (offer_iff (f.vote_refuses_guest _)).1 (h.upvote req rfl rfl) henabled
    case reply =>
      refine Bool.eq_false_iff.2 fun hoffered => ?_
      obtain ⟨req, -, -, hreq⟩ := h.anyReply hoffered
      exact hreq ((f.post_refuses_guest _).2 henabled)
    case choice =>
      exact fun status => (offer_iff (f.choose_refuses_guest _)).1 (h.choice status) henabled
  · intro h
    have hreply (henabled) := Bool.or_eq_false_iff.1 (h henabled).reply
    constructor
    case delete =>
      exact (offer_iff (f.remove_refuses_guest _)).2 fun henabled => (h henabled).delete
    case edit =>
      exact fun _ _ _ => (offer_iff (f.edit_refuses_guest _)).2 fun henabled => (h henabled).edit
    case upvote =>
      exact fun _ _ _ => (offer_iff (f.vote_refuses_guest _)).2 fun henabled => (h henabled).upvote
    case reply =>
      intro _ _ _
      split
      · exact (offer_iff (f.post_refuses_guest _)).2 fun henabled => (hreply henabled).2
      · exact (offer_iff (f.post_refuses_guest _)).2 fun henabled => (hreply henabled).1
    case anyReply =>
      let req : PostRequest := { key := v.key, content := "", replyTo := some v.id }
      refine fun hoffered => ⟨req, rfl, rfl, ?_⟩
      exact (offer_iff (f.post_refuses_guest _)).2 (fun henabled => (h henabled).reply) hoffered
    case choice =>
      exact fun status =>
        (offer_iff (f.choose_refuses_guest _)).2 fun henabled => (h henabled).choice status

end ShownComment

theorem ShownSection.honest_iff {v : ShownSection} {f : Forum} :
    v.Honest f w ↔ (f.site.settings.enabled → v.mayPost = false) := by
  constructor
  · intro h henabled
    refine Bool.eq_false_iff.2 fun hoffered => ?_
    obtain ⟨req, -, -, hreq⟩ := h.anyPost hoffered
    exact hreq ((f.post_refuses_guest _).2 henabled)
  · intro h
    have hpost (henabled) := Bool.or_eq_false_iff.1 (h henabled)
    constructor
    case post =>
      intro _ _ _
      split
      · exact (offer_iff (f.post_refuses_guest _)).2 fun henabled => (hpost henabled).2
      · exact (offer_iff (f.post_refuses_guest _)).2 fun henabled => (hpost henabled).1
    case anyPost =>
      let req : PostRequest := { key := v.key, content := "" }
      exact fun hoffered => ⟨req, rfl, rfl, (offer_iff (f.post_refuses_guest _)).2 h hoffered⟩

/-- Posting is offered on a page of one section, where that section offers it. -/
def CommentPage.PostsAsShown (page : CommentPage) (req : ListRequest) : Prop :=
  page.mayPost = ((req.comment.isSome || req.item.isSome) && page.sections.any (·.mayPost))

theorem CommentPage.honest_iff {page : CommentPage} {f : Forum} {req : ListRequest}
    (h : page.PostsAsShown req) :
    page.Honest f w ↔ (f.site.settings.enabled → page.mayPost = false) := by
  constructor
  · intro hhonest henabled
    refine Bool.eq_false_iff.2 fun hoffered => ?_
    obtain ⟨v, -, post, -, -, hpost⟩ := hhonest hoffered
    exact hpost ((f.post_refuses_guest _).2 henabled)
  · intro hdisabled hoffered
    obtain ⟨v, hv, -⟩ := List.any_eq_true.1 (Bool.and_eq_true_iff.1 (h.symm.trans hoffered)).2
    let post : PostRequest := { key := v.key, content := "" }
    exact ⟨v, hv, post, rfl, rfl, (offer_iff (f.post_refuses_guest _)).2 hdisabled hoffered⟩

/-- A view of a stored comment for a guest. -/
structure ShownComment.ToGuest (v : ShownComment) (f : Forum) (w : World) : Prop where
  offers : ∃ r ∈ w.store.comments, v.id = r.id ∧ v.key = r.key ∧
    ∃ d, f.declared? r.key.component r.key.area = some d ∧
      v.OffersGuest f.site.permissions d.options r.replyTo.isSome
  honest : v.Honest f w ↔ (f.site.settings.enabled → v.OffersNothing)

/-- A view of a section for a guest. -/
structure ShownSection.ToGuest (v : ShownSection) (f : Forum) (w : World) : Prop where
  offers : ∃ d, f.declared? v.key.component v.key.area = some d ∧
    v.OffersGuest f.site.permissions d.options
  honest : v.Honest f w ↔ (f.site.settings.enabled → v.mayPost = false)

/-- A page for a guest. -/
structure CommentPage.ToGuest (page : CommentPage) (f : Forum) (w : World) (req : ListRequest) :
    Prop where
  comments : ∀ v ∈ page.comments, v.ToGuest f w
  sections : ∀ v ∈ page.sections, v.ToGuest f w
  posts : page.PostsAsShown req
  honest : page.Honest f w ↔ (f.site.settings.enabled → page.mayPost = false)

theorem Comment.shownAuthor_true (c : Comment) : c.shownAuthor true = some c.author := by
  rw [shownAuthor, Bool.not_true, Bool.and_false, if_neg Bool.false_ne_true]

namespace Forum

variable {f : Forum} {s : Store} {sec : Section} {cap : Capability} {r : StoredComment}
variable {fields : Json.Fields} {req : ListRequest} {place : Place} {params : ListingQuery}

theorem Depicts.offersGuest {v : ShownComment} (h : f.Depicts s none r sec cap fields v)
    (husual : ∀ d ∈ f.areas, d.handler.GrantsUsual) :
    ∃ d, f.declared? r.key.component r.key.area = some d ∧
      v.OffersGuest f.site.permissions d.options r.replyTo.isSome := by
  obtain ⟨hkey, d, hd, hoptions, -⟩ := (f.sectionOf_declared r.key).look h.located
  obtain ⟨-, hsec⟩ := (sectionOf_handler husual r.key).look h.located
  obtain ⟨window, -, rfl⟩ := Section.capability_eq_ok hsec h.capability
  let guest := UsualCapability.ofPermissions f.site.permissions sec.key.context none sec.options
    window f.site.now
  have hview : guest.view = true := h.allowed
  have hown : v.key = sec.key := h.key.trans hkey.symm
  refine ⟨d, hkey ▸ hd, ?_⟩
  rw [← hoptions]
  constructor
  case delete =>
    rw [h.grants.delete, hown]
    change (guest.view && guest.delete) = _
    rw [hview, Bool.true_and]
    rfl
  case edit =>
    rw [h.grants.edit, hown]
    change (guest.view && (false || guest.editAny)) = _
    rw [hview, Bool.true_and, Bool.false_or]
    rfl
  case upvote =>
    rw [h.grants.upvote]
    change (guest.view && guest.options.allowUpvotes && Comment.shownAuthor _ true != none) = _
    rw [hview, Bool.true_and, Comment.shownAuthor_true]
    exact Bool.and_true _
  case replyByRealName =>
    rw [h.grants.replyByRealName]
    change (guest.view && guest.options.allowRealname && _) = _
    rw [hview, Bool.true_and]
    rfl
  case replyByPseudonym =>
    rw [h.grants.replyByPseudonym]
    change (guest.view && guest.options.allowPseudonym && _) = _
    rw [hview, Bool.true_and]
    rfl
  case choice =>
    intro status
    cases status with
    | default => rfl
    | off => exact h.grants.unsubscribe
    | immediate => exact h.grants.subscribe
    | dailyDigest => exact h.grants.subscribeDigest

theorem Heads.offersGuest {v : ShownSection} (h : f.Heads s none v)
    (husual : ∀ d ∈ f.areas, d.handler.GrantsUsual) :
    ∃ d, f.declared? v.key.component v.key.area = some d ∧
      v.OffersGuest f.site.permissions d.options := by
  obtain ⟨sec, cap, hlocated, hcap, hview⟩ := h
  obtain ⟨-, d, hd, hoptions, -⟩ := (f.sectionOf_declared sec.key).look hlocated
  obtain ⟨-, hsec⟩ := (sectionOf_handler husual sec.key).look hlocated
  obtain ⟨window, -, rfl⟩ := Section.capability_eq_ok hsec hcap
  have hown : v.key = sec.key := Section.look_view_inv hview
  refine ⟨d, hown ▸ hd, ?_⟩
  rw [← hoptions]
  constructor
  case postByRealName =>
    rw [hown]
    exact (Section.posts_of_look hview .realName).trans (Bool.and_true _)
  case postByPseudonym =>
    rw [hown]
    exact (Section.posts_of_look hview .pseudonym).trans (Bool.and_true _)

variable {viewer : Option UserId}

theorem Opens.postsAsShown (h : f.Opens s req place) {cs : List Comment} {page : CommentPage}
    (hpaged : Listing.Paged { place, params, viewer := .ofUser viewer } f.site s viewer cs page) :
    page.PostsAsShown req := by
  let start : Listing := { place, params, viewer := .ofUser viewer }
  have hbound : start.boundSection?.isSome = (req.comment.isSome || req.item.isSome) := by
    unfold Opens at h
    split at h
    next hone =>
      obtain ⟨row, sec, -, -, rfl⟩ := h
      rw [hone]
      rfl
    next hmany =>
      obtain ⟨component, name, context, a, -, ⟨item, host, hitem, -, rfl⟩ | ⟨hitem, rfl⟩⟩ :=
        place_inv h
      all_goals
        rw [hmany, hitem]
        rfl
  rw [CommentPage.PostsAsShown, hpaged.mayPost, ← hbound]
  cases place with
  | ofArea a => rfl
  | ofSection sec =>
    obtain ⟨v, hv⟩ := List.length_eq_one_iff.1 hpaged.sections.length_eq.symm
    rw [hv]
    exact congrArg (true && ·) (Bool.or_false _).symm

theorem look_list_toGuest {page : CommentPage} (h : (f.list none req).look w.store = .ok page)
    (husual : ∀ d ∈ f.areas, d.handler.GrantsUsual) : page.ToGuest f w req := by
  obtain ⟨params, place, cs, -, hopens, hpaged⟩ := list_settled h
  have hposts := hopens.postsAsShown hpaged
  refine ⟨fun v hv => ⟨?_, ShownComment.honest_iff⟩, fun v hv => ⟨?_, ShownSection.honest_iff⟩,
    hposts, CommentPage.honest_iff hposts⟩
  · obtain ⟨r, hr, sec, cap, fields, hdepicts⟩ := hopens.depicts_stored hpaged v hv
    exact ⟨r, hr, hdepicts.id, hdepicts.key, hdepicts.offersGuest husual⟩
  · exact (hopens.heads hpaged v hv).offersGuest husual

/-- A guest is offered what guests are permitted and what the area allows everybody, and is refused
all of it where comments are enabled. So what is offered is honest only where it is nothing, as with
the choices of what to hear. -/
theorem honest_to_guests (husual : ∀ d ∈ f.areas, d.handler.GrantsUsual) (w : World) {σ : Type}
    (faults : Faults σ) (state : σ) :
    (∀ (req : ListRequest) (page : CommentPage),
      ((f.list none req).run.run faults state w).1 = .ok page → page.ToGuest f w req) ∧
    ∀ (req : SectionRequest) (views : List ShownSection),
      ((f.sectionViews none req).run.run faults state w).1 = .ok views →
        ∀ v ∈ views, v.ToGuest f w := by
  constructor
  · intro req page hpage
    exact look_list_toGuest ((f.list_asks _ req).look_of_run hpage) husual
  · intro req views hviews v hv
    have hlook := (f.sectionViews_asks _ req).look_of_run hviews
    exact ⟨(heads_of_sectionViews hlook v hv).offersGuest husual, ShownSection.honest_iff⟩

/-- A wiki that everybody may view, and where nothing else is permitted. -/
def displayedWiki : Forum :=
  { Forum.wiki .wiki with
    site := { (Forum.wiki .wiki).site with
      permissions := fun permission _ _ => permission == Permissions.view } }

theorem honest_to_guests_twoThreads :
    ∃ page, displayedWiki.listed none { comment := some 4 } twoThreads = .ok page ∧
      page.comments.map (fun v => (v.mayUpvote, v.canReply)) = [(true, false)] ∧
      page.ToGuest displayedWiki twoThreads { comment := some 4 } := by
  have hflags : ((displayedWiki.listed none { comment := some 4 } twoThreads).map fun page =>
      page.comments.map fun v => (v.mayUpvote, v.canReply)).toOption = some [(true, false)] := by
    cbv
  obtain ⟨page, hpage, hflags⟩ := exists_of_toOption_map hflags
  have husual : ∀ d ∈ displayedWiki.areas, d.handler.GrantsUsual := List.forall_mem_singleton.2 rfl
  exact ⟨page, hpage, hflags, (honest_to_guests husual twoThreads Faults.never ()).1 _ page hpage⟩

/-- Guests of the wiki, who may do nothing but view it, are offered to post, and to upvote a comment
and to reply to it. -/
theorem dishonest_to_guests_twoThreads :
    (∀ d ∈ displayedWiki.areas, d.handler.GrantsUsual) ∧
      ∃ page, displayedWiki.listed none { comment := some 2 } twoThreads = .ok page ∧
        page.mayPost ∧ (∃ v ∈ page.comments, v.id = 2 ∧ v.mayUpvote ∧ v.canReply) ∧
        (∀ batch, (displayedWiki.post none batch).Refuses twoThreads) ∧
        ∀ req, (displayedWiki.vote none req).Refuses twoThreads := by
  have hoffers : ((displayedWiki.listed none { comment := some 2 } twoThreads).map fun page =>
      (page.mayPost, page.comments.any fun v => v.id == 2 && v.mayUpvote && v.canReply)).toOption =
        some (true, true) := by cbv
  obtain ⟨page, hpage, hoffers⟩ := exists_of_toOption_map hoffers
  obtain ⟨hpost, hoffered⟩ := Prod.mk.inj hoffers
  obtain ⟨v, hv, hflags⟩ := List.any_eq_true.1 hoffered
  rw [Bool.and_eq_true, Bool.and_eq_true, beq_iff_eq] at hflags
  refine ⟨List.forall_mem_singleton.2 rfl, page, hpage, hpost, ⟨v, hv, ?_, ?_, hflags.2⟩,
    fun batch => (displayedWiki.post_refuses_guest batch).2 rfl,
    fun req => (displayedWiki.vote_refuses_guest req).2 rfl⟩
  · exact hflags.1.1
  · exact hflags.1.2

end Forum

end Discussion
