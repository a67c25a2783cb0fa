import Discussion.Proofs.ChecksFirst
import Discussion.Proofs.Policy

namespace Discussion

/-- Before it saves a comment, the component puts no other comment in its place. -/
def Handler.KeepsId (h : Handler) : Prop :=
  ∀ key (comment : Comment) cap, (h.beforeSave key comment cap).id = comment.id

def Operation.posts : Operation → List PostRequest
  | .post _ batch => batch
  | _ => []

def Operation.edits : Operation → List EditRequest
  | .edit _ batch => batch
  | _ => []

namespace Forum

/-- The section is one of a declared area, and the capability is the user's in it. -/
structure Serves (f : Forum) (user : UserId) (sec : Section) (cap : Capability) : Prop where
  declared : ∃ d, f.declared? sec.key.component sec.key.area = some d ∧
    sec.options = d.options ∧ sec.handler = d.handler
  capability : sec.capability f.site (some user) = .ok cap

/-- The comment that a request asks for. -/
def draft (f : Forum) (user : UserId) (req : PostRequest) (key : SectionKey) : Comment :=
  Comment.fresh key ⟨req.content, req.format, user, normalPseudonym (some req.pseudonym),
    req.replyTo, req.customData⟩ f.site.now

/-- What has been found out about a new comment when it is saved. -/
structure Posts (f : Forum) (user : UserId) (req : PostRequest) (p : Prepared) : Prop where
  serves : f.Serves user p.sec p.cap
  allowed : ∃ target : Option Comment, target.isSome = req.replyTo.isSome ∧
    p.cap.mayPost (.ofPseudonym (normalPseudonym (some req.pseudonym))) target
  checked : Prepared.check p.sec p.cap (f.draft user req p.sec.key) none = .ok p

/-- What has been found out about a comment that is saved again, when its stored copy was read. -/
structure Edits (f : Forum) (user : UserId) (req : EditRequest) (x : StoredComment) (p : Prepared) :
    Prop where
  serves : f.Serves user p.sec p.cap
  own : x.key = p.sec.key
  allowed : p.cap.mayEdit (.ofStored x)
  signature : mayTakePseudonym p.cap (.ofStored x) req.pseudonym
  checked : ∃ edited,
    ((Comment.ofStored x).withContent req.content req.format).withPseudonym req.pseudonym =
        .ok edited ∧
      Prepared.check p.sec p.cap
        ((edited.withCustomDataText req.customData).changedBy user f.site.now) (some req.id) = .ok p

theorem declared?_congr {f g : Forum} (h : f.areas = g.areas) : f.declared? = g.declared? := by
  funext component area
  rw [declared?, declared?, h]

end Forum

theorem Section.target_isSome (sec : Section) (target : Option CommentId) :
    Action.Reads (target.mapM sec.comment) fun found => found.isSome = target.isSome := by
  cases target with
  | none => exact Action.Reads.pure rfl
  | some id => exact Action.Reads.bind (sec.comment_reads id) fun _ _ => Action.Reads.pure rfl

theorem Prepared.check_kept {sec : Section} (hsec : sec.handler.KeepsId) {cap : Capability}
    {comment : Comment} {id : Option CommentId} {p : Prepared} (h : check sec cap comment id = .ok p) :
    p.sec = sec ∧ p.comment.id = comment.id := by
  obtain ⟨fields, -, -, rfl⟩ := check_inv h
  exact ⟨rfl, hsec _ _ _⟩

namespace Forum

variable {f : Forum} {user : UserId} {sec : Section} {cap : Capability} {p : Prepared}

theorem Serves.handler {P : Handler → Prop} (h : f.Serves user sec cap)
    (hf : ∀ d ∈ f.areas, P d.handler) : P sec.handler := by
  obtain ⟨d, hd, -, hhandler⟩ := h.declared
  rw [hhandler]
  exact hf d (List.mem_of_find?_eq_some hd)

theorem Posts.id_eq {req : PostRequest} (h : f.Posts user req p)
    (hf : ∀ d ∈ f.areas, d.handler.KeepsId) : p.comment.id = none :=
  (Prepared.check_kept (h.serves.handler hf) h.checked).2

theorem Edits.id_eq {req : EditRequest} {x : StoredComment} (h : f.Edits user req x p)
    (hf : ∀ d ∈ f.areas, d.handler.KeepsId) : p.comment.id = some x.id := by
  obtain ⟨edited, hset, hchecked⟩ := h.checked
  obtain ⟨pseudonym, rfl⟩ := Comment.withPseudonym_kept hset
  exact (Prepared.check_kept (h.serves.handler hf) hchecked).2

theorem preparePost_posts (f : Forum) (user : UserId) (req : PostRequest) :
    (f.preparePost user req).Reads (f.Posts user req) := by
  apply Action.Reads.bind (f.sectionOf_declared req.key)
  rintro sec ⟨-, hsec⟩
  apply Action.Reads.bind (Action.Reads.lift _)
  intro cap hcap
  apply Action.Reads.bind (sec.target_isSome req.replyTo)
  intro target htarget
  dsimp only
  split
  · exact Action.Reads.throw _
  next hpost =>
    refine (Action.Reads.lift _).mono fun p hp => ?_
    obtain ⟨fields, -, -, rfl⟩ := Prepared.check_inv hp
    exact ⟨⟨hsec, hcap⟩, ⟨target, htarget, Bool.of_not_eq_false (by simpa using hpost)⟩, hp⟩

end Forum

variable {policy : Policy} {heard : List StoredComment}

theorem Section.comment_obeys (sec : Section) (id : CommentId) :
    (sec.comment id).Obeys policy heard fun c more =>
      ∃ x ∈ more, policy.trusts x ∧ x.key = sec.key ∧ c = .ofStored x := by
  have hfound : (sec.comment? id).Obeys policy heard fun found more =>
      ∀ c ∈ found, ∃ x ∈ more, policy.trusts x ∧ x.key = sec.key ∧ c = .ofStored x := by
    refine Action.Obeys.bind (.comment id) fun record more _ hrecord => .pure ?_
    intro c hc
    obtain ⟨x, hx, rfl⟩ := Option.map_eq_some_iff.1 hc
    obtain ⟨hx, hkey⟩ := Option.filter_eq_some_iff.1 hx
    exact ⟨x, (hrecord x hx).1, (hrecord x hx).2, beq_iff_eq.1 hkey, rfl⟩
  refine Action.Obeys.bind hfound fun found more _ hstored => ?_
  cases found with
  | some comment => exact .pure (hstored comment rfl)
  | none => exact .throw _

theorem Forum.prepareEdit_edits (f : Forum) (user : UserId) (req : EditRequest) :
    (f.prepareEdit user req).Obeys policy heard fun p more =>
      ∃ x ∈ more, policy.trusts x ∧ f.Edits user req x p := by
  apply Action.Obeys.bind (.of_reads (f.sectionOf_declared req.key))
  rintro sec _ _ ⟨-, hsec⟩
  apply Action.Obeys.bind (sec.comment_obeys req.id)
  rintro _ more _ ⟨x, hx, htrusted, hkey, rfl⟩
  apply Action.Obeys.bind (.of_reads (.lift _))
  intro cap more' hmore' hcap
  dsimp only
  split
  · exact .throw _
  next hedit =>
  split
  · exact .throw _
  next hsignature =>
  split
  · exact .throw _
  next edited hset =>
    refine (Action.Obeys.of_reads (.lift _)).imp fun p more'' hmore'' hp => ?_
    obtain ⟨fields, -, -, rfl⟩ := Prepared.check_inv hp
    refine ⟨x, hmore'' (hmore' hx), htrusted, ⟨⟨hsec, hcap⟩, hkey, ?_, ?_, edited, hset, hp⟩⟩
    · simpa using hedit
    · simpa using hsignature

theorem Section.save_obeys (sec : Section) (comment : Comment)
    (hadd : comment.id = none → comment.key = sec.key → policy.adds comment.packed.toStored)
    (hrevise : ∀ id ∈ comment.id,
      ∃ x ∈ heard, x.id = id ∧ policy.revises x comment.packed.toStored) :
    (sec.save comment).Obeys policy heard fun _ _ => True := by
  unfold Section.save
  split
  · exact .throw _
  next hkey =>
  rw [not_not] at hkey
  dsimp only
  split
  next id hid =>
    have hrow : comment.packed.toStored.id = id := by
      rw [Comment.toStored, show comment.packed.id = some id from hid]
      rfl
    obtain ⟨x, hx, hxid, hx'⟩ := hrevise id hid
    have hallowed : policy.Allows heard (.store (.revise comment.packed.toStored)) :=
      ⟨x, hx, hxid.trans hrow.symm, hx'⟩
    refine .bind (.store hallowed) fun revised _ _ _ => ?_
    split
    · exact .bind (.tell _) fun _ _ _ _ => .pure trivial
    · exact .throw _
  next hid =>
    have hadded (heard : List StoredComment) : Action.Obeys policy (do
        let id ← Action.store (.add comment.packed.toStored)
        Action.tell (.created sec.key id comment.packed.replyTo comment.packed.toStored.modifier)
        return comment.packed.withId id) heard fun _ _ => True := by
      refine .bind (.store (hadd hid hkey)) fun id _ _ _ => ?_
      exact .bind (.tell _) fun _ _ _ _ => .pure trivial
    split
    next target _ =>
      exact .bind (.of_reads (sec.checkTarget_reads target)) fun _ _ _ _ => hadded _
    · exact hadded heard

theorem Prepared.save_obeys (p : Prepared) (people : Comment → Participants)
    (hadd : p.comment.id = none → p.comment.key = p.sec.key →
      policy.adds p.comment.packed.toStored)
    (hrevise : ∀ id ∈ p.comment.id,
      ∃ x ∈ heard, x.id = id ∧ policy.revises x p.comment.packed.toStored) :
    (p.save people).Obeys policy heard fun _ _ => True :=
  .bind (p.sec.save_obeys p.comment hadd hrevise) fun comment _ _ _ =>
    .of_reads (p.sec.viewComment_reads comment p.cap _)

/-- The policy allows whatever an operation writes once it has passed its checks. -/
structure Policy.Admits (policy : Policy) (f : Forum) (op : Operation) : Prop where
  adds : ∀ {user req p}, req ∈ op.posts → f.Posts user req p → p.comment.key = p.sec.key →
    policy.adds p.comment.packed.toStored
  revises : ∀ {user req x p}, req ∈ op.edits → policy.trusts x → f.Edits user req x p →
    policy.revises x p.comment.packed.toStored
  votes : ∀ {user sec cap x}, policy.trusts x → f.Serves user sec cap → x.key = sec.key →
    cap.mayUpvote (.ofStored x) → policy.votes x user
  chooses : ∀ {user sec cap current status comment}, f.Serves user sec cap →
    cap.maySubscribe current status comment → policy.chooses sec.key

namespace Forum

variable {f : Forum}

/-- A batch is checked as a whole and saved one by one. What has been found out about a comment when
it was checked still counts when its turn comes. -/
theorem batch_obeys {ρ : Type} {prepare : ρ → Action Prepared} {reqs : List ρ}
    {Q : Prepared → List StoredComment → Prop}
    (hQ : ∀ p {heard more}, heard ⊆ more → Q p heard → Q p more)
    (hprepare : ∀ req ∈ reqs, ∀ heard, (prepare req).Obeys policy heard Q)
    (hsave : ∀ p people heard, Q p heard →
      (Prepared.save p people).Obeys policy heard fun _ _ => True)
    (ids : List Prepared → List UserId) (people : List Person → Comment → Participants) :
    Action.Obeys policy (do
      let pending ← reqs.mapM prepare
      let found ← Action.store (.peopleByIds (ids pending))
      pending.mapM fun p => p.save (people found)) heard fun _ _ => True := by
  apply Action.Obeys.bind (.mapM hQ fun req hreq more _ => hprepare req hreq more)
  intro pending more _ hpending
  apply Action.Obeys.bind (.of_reads (.store rfl))
  intro found more' hmore' _
  refine (Action.Obeys.mapM (R := fun _ _ => True) (fun _ _ _ _ _ => trivial) ?_).imp
    fun _ _ _ _ => trivial
  intro p hp more'' hmore''
  exact hsave p _ more'' (hQ p (List.Subset.trans hmore' hmore'') (hpending p hp))

theorem post_obeys {user : Option UserId} {batch : List PostRequest}
    (hf : ∀ d ∈ f.areas, d.handler.KeepsId) (h : policy.Admits f (.post user batch)) :
    (f.post user batch).Obeys policy heard fun _ _ => True := by
  apply Action.Obeys.bind (.of_reads (.lift_any _))
  intro user more _ _
  apply batch_obeys (Q := fun p _ => ∃ req ∈ batch, f.Posts user req p)
    (fun _ _ _ _ hp => hp) _ _ (fun _ => [user])
    fun people _ => ⟨personOf people user, personOf people user⟩
  · intro req hreq heard
    exact (Action.Obeys.of_reads (f.preparePost_posts user req)).imp
      fun p _ _ hp => ⟨req, hreq, hp⟩
  · rintro p people heard ⟨req, hreq, hp⟩
    refine p.save_obeys people (fun _ => h.adds hreq hp) fun id hid => ?_
    rw [hp.id_eq hf] at hid
    cases hid

theorem edit_obeys {user : Option UserId} {batch : List EditRequest}
    (hf : ∀ d ∈ f.areas, d.handler.KeepsId)
    (h : ∀ {u req x p}, user = some u → req ∈ batch → policy.trusts x → f.Edits u req x p →
      policy.revises x p.comment.packed.toStored) :
    (f.edit user batch).Obeys policy heard fun _ _ => True := by
  apply Action.Obeys.bind (.of_reads (.lift _))
  intro user more _ huser
  apply batch_obeys
    (Q := fun p heard => ∃ x ∈ heard, policy.trusts x ∧ ∃ req ∈ batch, f.Edits user req x p)
    (fun _ _ _ hmore hp => hp.imp fun x hx => ⟨hmore hx.1, hx.2⟩) _ _
    (fun pending => pending.flatMap fun p => [p.comment.author, user])
    fun people comment => ⟨personOf people comment.author, personOf people user⟩
  · intro req hreq heard
    exact (f.prepareEdit_edits user req).imp
      fun p _ _ ⟨x, hx, htrusted, hp⟩ => ⟨x, hx, htrusted, req, hreq, hp⟩
  · rintro p people heard ⟨x, hx, htrusted, req, hreq, hp⟩
    refine p.save_obeys people (fun hid => ?_) fun id hid => ⟨x, hx, ?_, ?_⟩
    · rw [hp.id_eq hf] at hid
      cases hid
    · rw [hp.id_eq hf] at hid
      exact Option.some.inj hid
    · exact h (f.memberOf_eq_ok huser) hreq htrusted hp

theorem prepareRemoval_obeys (user : UserId) (records : List StoredComment) :
    Action.Obeys policy (records.mapM (f.prepareRemoval user)) heard fun _ _ => True :=
  (Action.Obeys.of_reads (.mapM (f.prepareRemoval_reads user) records)).imp fun _ _ _ _ => trivial

theorem remove_obeys (user : Option UserId) (ids : List CommentId) :
    (f.remove user ids).Obeys policy heard fun _ _ => True := by
  apply Action.Obeys.bind (.of_reads (.lift_any _))
  intro user _ _ _
  apply Action.Obeys.bind (.of_reads (.store rfl))
  intro records _ _ _
  dsimp only
  split
  · exact .throw _
  · apply Action.Obeys.bind (prepareRemoval_obeys user records)
    intro targets _ _ _
    refine .bind (.mapM (R := fun _ _ => True) (fun _ _ _ _ _ => trivial) ?_) fun _ _ _ _ =>
      .pure trivial
    intro t _ more _
    unfold Section.delete
    split
    · exact .pure trivial
    · refine .bind (.store trivial) fun n _ _ _ => ?_
      split
      · exact .bind (.tell _) fun _ _ _ _ => .pure trivial
      · exact .pure trivial

theorem vote_obeys {user : Option UserId} {req : VoteRequest}
    (h : policy.Admits f (.vote user req)) :
    (f.vote user req).Obeys policy heard fun _ _ => True := by
  apply Action.Obeys.bind (.of_reads (.lift_any _))
  intro user _ _ _
  apply Action.Obeys.bind (.of_reads (f.sectionOf_declared req.key))
  rintro sec _ _ ⟨-, hsec⟩
  apply Action.Obeys.bind (sec.comment_obeys req.comment)
  rintro _ more _ ⟨x, hx, htrusted, hkey, rfl⟩
  apply Action.Obeys.bind (.of_reads (.lift _))
  intro cap more' hmore' hcap
  dsimp only
  split
  · exact .throw _
  next hvote =>
    have hallowed : policy.votes x user :=
      h.votes htrusted ⟨hsec, hcap⟩ hkey (by simpa using hvote)
    have hcast : policy.Allows more' (.store (.castVote x.id user req.upvote)) :=
      ⟨x, hmore' hx, rfl, hallowed⟩
    refine .bind (Q := fun _ _ => True) (.bind (.store hcast) fun changed _ _ _ => ?_)
      fun _ _ _ _ => .pure trivial
    split
    · exact .bind (.tell _) fun _ _ _ _ => .pure trivial
    · exact .pure trivial

theorem choose_obeys {user : Option UserId} {req : ChoiceRequest}
    (h : policy.Admits f (.choose user req)) :
    (f.choose user req).Obeys policy heard fun _ _ => True := by
  apply Action.Obeys.bind (.of_reads (.lift_any _))
  intro user _ _ _
  apply Action.Obeys.bind (.of_reads (.lift_any _))
  intro status _ _ _
  apply Action.Obeys.bind (.of_reads (f.sectionOf_declared req.key))
  rintro sec _ _ ⟨-, hsec⟩
  apply Action.Obeys.bind (.of_reads (sec.target_isSome req.comment))
  intro comment _ _ _
  apply Action.Obeys.bind (.of_reads (sec.status_reads user comment))
  intro current _ _ _
  apply Action.Obeys.bind (.of_reads (.lift _))
  intro cap _ _ hcap
  dsimp only
  split
  · exact .throw _
  next hchoose =>
    have hallowed : policy.chooses sec.key := h.chooses ⟨hsec, hcap⟩ (by simpa using hchoose)
    refine .bind (Q := fun _ _ => True) (.bind (.store hallowed) fun _ _ _ _ => .tell _) ?_
    exact fun _ _ _ _ => .of_reads (sec.status_reads user comment)

/-- Nothing that is asked of a forum writes what the policy does not allow. -/
theorem operation_obeys {op : Operation} (hf : ∀ d ∈ f.areas, d.handler.KeepsId)
    (h : policy.Admits f op) : (op.action f).Obeys policy heard fun _ _ => True := by
  have hfree {c : StoreCall} (hc : policy.Allows heard (.store c)) :
      Action.Obeys policy (discard (Action.store c)) heard fun _ _ => True :=
    .map (.store hc)
  cases op with
  | list user req => exact .map ((Action.Obeys.of_reads (f.list_reads user req)))
  | sectionViews user req => exact .map (.of_reads (f.sectionViews_reads user req))
  | post user batch => exact .map (post_obeys hf h)
  | edit user batch => exact .map (edit_obeys hf fun _ hreq => h.revises hreq)
  | remove user ids => exact .map (remove_obeys user ids)
  | vote user req => exact .map (vote_obeys h)
  | choose user req => exact .map (choose_obeys h)
  | introduce person => exact .store trivial
  | _ => exact hfree trivial

end Forum

end Discussion
