import Discussion.Proofs.ListingAsks

namespace Discussion

/-- Whatever is asked of a forum, of a section or an area, or of the site as a whole. -/
inductive Operation where
  | list (user : Option UserId) (req : ListRequest)
  | sectionViews (user : Option UserId) (req : SectionRequest)
  | post (user : Option UserId) (batch : List PostRequest)
  | edit (user : Option UserId) (batch : List EditRequest)
  | remove (user : Option UserId) (ids : List CommentId)
  | vote (user : Option UserId) (req : VoteRequest)
  | choose (user : Option UserId) (req : ChoiceRequest)
  | clearSection (sec : Section)
  | clearArea (area : Area)
  | purgeComponent (component : String)
  | purgeContexts (contexts : List ContextId)
  | purgeVotes (user : UserId)
  | purgeChoices (user : UserId)
  | introduce (person : Person)

def Operation.action (f : Forum) : Operation → Action Unit
  | .list user req => discard (f.list user req)
  | .sectionViews user req => discard (f.sectionViews user req)
  | .post user batch => discard (f.post user batch)
  | .edit user batch => discard (f.edit user batch)
  | .remove user ids => discard (f.remove user ids)
  | .vote user req => discard (f.vote user req)
  | .choose user req => discard (f.choose user req)
  | .clearSection sec => discard sec.clear
  | .clearArea area => discard area.clear
  | .purgeComponent component => discard (Forum.purgeComponent component)
  | .purgeContexts contexts => discard (Forum.purgeContexts contexts)
  | .purgeVotes user => discard (Forum.purgeVotes user)
  | .purgeChoices user => discard (Forum.purgeChoices user)
  | .introduce person => Action.store (.setPerson person)

/-- The worlds that come of an empty store, when one operation after another is run to its end. Each
may meet another forum, and other calls that fail. -/
inductive Reached (allowed : Forum → Operation → Prop) : World → Prop
  | start : Reached allowed {}
  | operate {w : World} {σ : Type} (f : Forum) (op : Operation) (faults : Faults σ) (state : σ) :
    Reached allowed w → allowed f op →
      Reached allowed ((op.action f).run.run faults state w).2.2

/-- What an operation makes of a world, where no call fails. -/
def World.after (w : World) (f : Forum) (op : Operation) : World :=
  ((op.action f).run.run Faults.never () w).2.2

theorem Reached.after {allowed : Forum → Operation → Prop} {w : World} {f : Forum}
    {op : Operation} (hw : Reached allowed w) (hop : allowed f op) :
    Reached allowed (w.after f op) :=
  .operate f op Faults.never () hw hop

/-- What operations on one forum make of a world, one after another. -/
def World.afterAll (w : World) (f : Forum) (ops : List Operation) : World :=
  ops.foldl (fun w op => w.after f op) w

theorem Reached.afterAll {allowed : Forum → Operation → Prop} {w : World} {f : Forum}
    {ops : List Operation} (hw : Reached allowed w) (hops : ∀ op ∈ ops, allowed f op) :
    Reached allowed (w.afterAll f ops) := by
  induction ops generalizing w with
  | nil => exact hw
  | cons op ops ih =>
    obtain ⟨hop, hops⟩ := List.forall_mem_cons.1 hops
    exact ih (hw.after hop) hops

/-- A wiki whose pages have a section each, where everybody may do everything. -/
def Forum.wiki (handler : Handler) : Forum where
  site := { permissions := fun _ _ _ => true, settings := {}, now := ⟨0, 0⟩ }
  areas := [⟨"wiki", "talk", { allowReplies := true }, handler⟩]

/-- The wiki component with all its usual contributions. -/
def Handler.wiki : Handler where
  item _ := pure (.plain "Page" "/page")

def Operation.postToWiki (user : UserId) (replies : List (Option CommentId)) : Operation :=
  .post (some user) (replies.map fun replyTo =>
    { key := ⟨"wiki", "talk", 1, 1⟩, content := "Text", replyTo })

/-- A call by which whole sections, or all that a user has left, are changed at once. -/
inductive StoreCall.IsBulk : StoreCall → Prop
  | removeSelected {f : Selection} : f.isWholeSections → IsBulk (.removeSelected f)
  | removeComponent (component : String) : IsBulk (.removeComponent component)
  | removeContexts (contexts : List ContextId) : IsBulk (.removeContexts contexts)
  | withdrawVotes (user : UserId) : IsBulk (.withdrawVotes user)
  | forgetChoices (user : UserId) : IsBulk (.forgetChoices user)
  | setPerson (person : Person) : IsBulk (.setPerson person)

/-- The calls that are made for an operation. A reply is stored only under a comment of its section
that is no reply, and selections cover whole sections. -/
def Store.Fits (s : Store) : StoreCall → Prop
  | .add r => ∀ p, r.replyTo = some p →
      ∃ t ∈ s.comments, t.id = p ∧ t.key = r.key ∧ t.replyTo = none
  | .removeSelected f => f.isWholeSections
  | _ => True

/-- Votes go to stored comments, and choices to sections and to the comments stored in them. -/
def Store.Finds (s : Store) : StoreCall → Prop
  | .castVote id _ _ => ∃ c ∈ s.comments, c.id = id
  | .choose _ key comment _ => ∀ id ∈ comment, ∃ c ∈ s.comments, c.id = id ∧ c.key = key
  | _ => True

theorem StoreCall.IsBulk.fits {s : Store} {c : StoreCall} (h : c.IsBulk) : s.Fits c := by
  cases h with
  | removeSelected hwhole => exact hwhole
  | _ => exact trivial

theorem StoreCall.IsBulk.finds {s : Store} {c : StoreCall} (h : c.IsBulk) : s.Finds c := by
  cases h <;> exact trivial

/-- A comment is stored anew or stored again, and told of; or an error ends it, after which at most a
comment that is gone was to be stored again. -/
theorem Section.save_keeps {I : World → Prop} (s : Section) (comment : Comment)
    (hadd : comment.key = s.key → ∀ w, I w → w.store.Fits (.add comment.packed.toStored) →
      I { store := (w.store.add comment.packed.toStored).2
          events := w.events ++ [.created s.key (w.store.add comment.packed.toStored).1
            comment.replyTo comment.modifier] })
    (hrevise : comment.id.isSome → ∀ w, I w →
      I { w with store := (w.store.revise comment.packed.toStored).2 })
    (htell : ∀ w id, I w → I { w with events := w.events ++ [.updated s.key id comment.modifier] }) :
    (s.save comment).Keeps I := by
  unfold Section.save
  split
  · exact Action.Keeps.throw _
  next hkey =>
  rw [not_not] at hkey
  have hadded {w : World} (hw : I w) (hc : w.store.Fits (.add comment.packed.toStored)) :
      Program.Ends (fun _ => True) (ExceptT.run (do
        let id ← Action.store (.add comment.packed.toStored)
        Action.tell (.created s.key id comment.packed.replyTo comment.packed.toStored.modifier)
        return comment.packed.withId id)) w fun _ _ w' => I w' :=
    ⟨fun _ _ => hw, hadd hkey w hw hc⟩
  dsimp only
  split
  next id hid =>
    have hsome : comment.id.isSome := Option.isSome_of_eq_some hid
    refine Action.Keeps.bind (Action.Keeps.store (hrevise hsome)) fun revised => ?_
    split
    · exact Action.Keeps.bind (Action.Keeps.tell fun w hw => htell w id hw) fun _ => .pure _
    · exact Action.Keeps.throw _
  next hid =>
    split
    next target htarget =>
      -- The target is asked for right before the reply is added, so that it is still there.
      intro w hw
      refine Action.ends_ask (fun _ _ _ _ _ h => h) (s.checkTarget_observes target) (fun _ => hw) ?_
      rintro _ ⟨t, ht, hid, hsec, htop⟩
      apply hadded hw
      intro p hp
      obtain rfl := Option.some.inj (htarget.symm.trans hp)
      exact ⟨t, ht, hid, hsec.trans hkey.symm, htop⟩
    next hnone =>
      intro w hw
      exact hadded hw fun p hp => (hnone p hp).elim

namespace Section

variable {P : Store → Prop} {w : World} (s : Section)

theorem delete_stores (comment : Comment) (hw : P w.store)
    (h : ∀ id ∈ comment.id, P (w.store.removeThread id comment.replyTo).2) :
    (s.delete comment).run.Ends (fun _ => True) w fun _ _ w' => P w'.store := by
  unfold Section.delete
  split
  · exact hw
  next id hid =>
    rw [Action.ends_bind]
    refine Action.ends_store (fun _ _ => hw) ?_
    have hkept : Action.Keeps (fun w => P w.store) (Action.tell (.deleted s.key id)) :=
      Action.Keeps.tell fun _ hw => hw
    dsimp only
    split
    · exact Action.Keeps.bind hkept (fun _ => Action.Keeps.pure _) _ (h id hid)
    · exact h id hid

theorem vote_stores (comment : Comment) (user : UserId) (upvote : Bool) (hw : P w.store)
    (h : ∀ id ∈ comment.id, P (w.store.castVote id user upvote).2) :
    (s.vote comment user upvote).run.Ends (fun _ => True) w fun _ _ w' => P w'.store := by
  unfold Section.vote
  split
  · exact hw
  next id hid =>
    rw [Action.ends_bind]
    refine Action.ends_store (fun _ _ => hw) ?_
    have hkept : Action.Keeps (fun w => P w.store) (Action.tell (.voted s.key id user upvote)) :=
      Action.Keeps.tell fun _ hw => hw
    dsimp only
    split
    · exact Action.Keeps.bind hkept (fun _ => Action.Keeps.pure _) _ (h id hid)
    · exact h id hid

theorem setStatus_ends (user : UserId) (comment : Option Comment) (status : Delivery)
    {faulty : Call → Prop} {Q : Except Error Unit → List Call → World → Prop}
    (hfail : ∀ failure, Q (.error (.storage failure)) [] w)
    (hdone : Q (.ok ()) [.store (.choose user s.key (comment.bind (·.id)) status)]
      { store := w.store.choose user s.key (comment.bind (·.id)) status
        events := w.events ++ [.chosen s.key (comment.bind (·.id)) user status] }) :
    (s.setStatus user comment status).run.Ends faulty w Q :=
  ⟨fun failure _ => hfail failure, hdone⟩

theorem setStatus_stores (user : UserId) (comment : Option Comment) (status : Delivery)
    (hw : P w.store) (h : P (w.store.choose user s.key (comment.bind (·.id)) status)) :
    (s.setStatus user comment status).run.Ends (fun _ => True) w fun _ _ w' => P w'.store :=
  s.setStatus_ends user comment status (fun _ => hw) h

end Section

/-- What the writes of sections keep, where they are given what operations give them: any comment to
save, one that was stored to remove, and one that is stored to vote for or to hear of. -/
structure Commits (I : World → Prop) : Prop where
  save : ∀ (s : Section) (comment : Comment), (s.save comment).Keeps I
  delete : ∀ (s : Section) {x : StoredComment} {w : World}, I w → x ∈ w.store.comments →
    (s.delete (.ofStored x)).Keeps I
  vote : ∀ (s : Section) {x : StoredComment} (user : UserId) (upvote : Bool) {w : World}, I w →
    x ∈ w.store.comments → x.key = s.key →
      (s.vote (.ofStored x) user upvote).run.Ends (fun _ => True) w fun _ _ w' => I w'
  setStatus : ∀ (s : Section) (user : UserId) {x : Option StoredComment} (status : Delivery)
    {w : World}, I w → (∀ c ∈ x, c ∈ w.store.comments ∧ c.key = s.key) →
      (s.setStatus user (x.map .ofStored) status).run.Ends (fun _ => True) w fun _ _ w' => I w'

/-- The operations that change comments, votes and choices one by one, or not at all. -/
def Operation.isSingle : Operation → Bool
  | .list .. | .sectionViews .. | .post .. | .edit .. | .remove .. | .vote .. | .choose .. => true
  | _ => false

namespace Forum

variable {I : World → Prop} (f : Forum)

/-- A batch is checked as a whole and saved one by one. What has been found out about all of its
comments holds where the batch is accepted. -/
theorem batch_ends {ρ : Type} {prepare : ρ → Action Prepared} {Q : ρ → Prepared → Prop} {w : World}
    (hw : I w) {reqs : List ρ}
    (hprepare : ∀ req ∈ reqs, (prepare req).Observes (fun _ => True) w (Q req))
    (hsave : ∀ req ∈ reqs, ∀ p, Q req p → (p.sec.save p.comment).Keeps I)
    (ids : List Prepared → List UserId) (people : List Person → Comment → Participants) :
    Program.Ends (fun _ => True) (ExceptT.run (do
      let pending ← reqs.mapM prepare
      let found ← Action.store (.peopleByIds (ids pending))
      pending.mapM fun p => p.save (people found))) w fun r _ w' =>
        I w' ∧ ∀ shown, r = .ok shown → ∀ req ∈ reqs, ∃ p, Q req p := by
  refine Action.ends_ask (fun _ _ _ _ _ h => h) (.mapM hprepare)
    (fun _ => ⟨hw, fun _ h => nomatch h⟩) ?_
  rintro pending ⟨hall, hfrom⟩
  have hsaved : ∀ p ∈ pending, ∀ found, (p.save (people found)).Keeps I := by
    intro p hp found
    obtain ⟨req, hreq, hp⟩ := hfrom p hp
    apply Action.Keeps.bind (hsave req hreq p hp)
    intro comment
    exact (p.sec.viewComment_reads comment p.cap _).keeps
  have hrest : Action.Keeps I (do
      let found ← Action.store (.peopleByIds (ids pending))
      pending.mapM fun p => p.save (people found)) := by
    apply Action.Keeps.bind (Action.Reads.store rfl).keeps
    intro found
    exact Action.Keeps.mapM fun p hp => hsaved p hp found
  exact (hrest w hw).mono fun _ _ _ hw' => ⟨hw', fun _ _ => hall⟩

theorem post_keeps (hsave : ∀ (s : Section) (comment : Comment), (s.save comment).Keeps I)
    (user : Option UserId) (reqs : List PostRequest) : (f.post user reqs).Keeps I := by
  apply Action.Keeps.bind (Action.Keeps.lift _)
  intro user w hw
  exact (batch_ends hw (Q := fun _ _ => True)
    (fun req _ => (preparePost_observes (P := fun _ => True) (fun _ _ => trivial) user req).mono
      fun _ _ => trivial)
    (fun _ _ p _ => hsave p.sec p.comment) (fun _ => [user])
    fun people _ => ⟨personOf people user, personOf people user⟩).mono fun _ _ _ h => h.1

theorem edit_keeps (hsave : ∀ (s : Section) (comment : Comment), (s.save comment).Keeps I)
    (user : Option UserId) (reqs : List EditRequest) : (f.edit user reqs).Keeps I := by
  apply Action.Keeps.bind (Action.Keeps.lift _)
  intro user w hw
  exact (batch_ends hw (Q := fun _ _ => True)
    (fun req _ => (prepareEdit_observes (P := fun _ => True) (fun _ _ => trivial) user req).mono
      fun _ _ => trivial)
    (fun _ _ p _ => hsave p.sec p.comment)
    (fun pending => pending.flatMap fun p => [p.comment.author, user])
    fun people comment => ⟨personOf people comment.author, personOf people user⟩).mono
      fun _ _ _ h => h.1

theorem statusOfName_eq_ok {name : String} {status : Delivery} (h : statusOfName name = .ok status) :
    Delivery.ofName? name = some status := by
  unfold statusOfName at h
  split at h
  next hname =>
    rw [hname, Except.ok.inj h]
  · cases h

theorem memberOf_eq_ok {user : Option UserId} {action : MemberAction} {u : UserId}
    (h : f.memberOf user action = .ok u) : user = some u := by
  unfold memberOf at h
  split at h
  · split at h
    · exact congrArg some (Except.ok.inj h)
    · cases h
  · cases h

theorem vote_ends (user : Option UserId) (req : VoteRequest) {faulty : Call → Prop} {w : World}
    {Q : Except Error Int → List Call → World → Prop} (hQ : Action.IgnoresAsked Q)
    (herror : ∀ e, Q (.error e) [] w)
    (hvote : ∀ u (sec : Section) x, sec.key = req.key → w.store.comment? req.comment = some x →
      x.key = sec.key → (sec.vote (.ofStored x) u req.upvote).run.Ends faulty w
        fun r calls w' => Q (r.map fun p => p.2.upvotes) calls w') :
    (f.vote user req).run.Ends faulty w Q := by
  refine Action.ends_ask hQ (.lift _) herror fun u _ => ?_
  refine Action.ends_ask hQ (f.sectionOf_reads _).observes herror fun sec hsec => ?_
  refine Action.ends_ask hQ (sec.comment_observes _) herror ?_
  rintro _ ⟨x, hx, hkey, rfl⟩
  refine Action.ends_ask hQ (.lift _) herror fun cap _ => ?_
  dsimp only
  split
  · exact herror _
  · rw [Action.ends_bind]
    apply (hvote u sec x hsec hx hkey).mono
    intro r calls w' h
    cases r with
    | error e => exact h
    | ok p =>
      rw [← List.append_nil calls] at h
      exact h

theorem choose_ends (user : Option UserId) (req : ChoiceRequest) {faulty : Call → Prop} {w : World}
    {Q : Except Error Delivery → List Call → World → Prop} (hQ : Action.IgnoresAsked Q)
    (herror : ∀ e, Q (.error e) [] w)
    (hchoose : ∀ u status (sec : Section) (x : Option StoredComment), user = some u →
      Delivery.ofName? req.status = some status → sec.key = req.key → f.Declares sec →
      x.map (·.id) = req.comment →
      (∀ c ∈ x, w.store.comment? c.id = some c ∧ c.key = sec.key) →
      Program.Ends faulty (ExceptT.run (do
        sec.setStatus u (x.map .ofStored) status
        sec.status u (x.map .ofStored))) w Q) :
    (f.choose user req).run.Ends faulty w Q := by
  refine Action.ends_ask hQ (.lift _) herror fun u hu => ?_
  refine Action.ends_ask hQ (.lift _) herror fun status hstatus => ?_
  refine Action.ends_ask hQ (f.sectionOf_declared _).observes herror fun sec hsec => ?_
  refine Action.ends_ask hQ (sec.target_observes _) herror ?_
  rintro _ ⟨x, hid, hx, rfl⟩
  refine Action.ends_ask hQ (sec.status_reads u _).observes herror fun _ _ => ?_
  refine Action.ends_ask hQ (.lift _) herror fun cap _ => ?_
  dsimp only
  split
  · exact herror _
  · exact hchoose u status sec x (f.memberOf_eq_ok hu) (statusOfName_eq_ok hstatus) hsec.1 hsec.2 hid
      hx

end Forum

namespace Commits

variable {I : World → Prop} {f : Forum}

/-- Every target was stored when the comments were read, also those that are gone by cascade when
their turn comes. -/
theorem deleteAll (h : Commits I) {w : World} (hw : I w) {records : List StoredComment}
    (hstored : ∀ x ∈ records, x ∈ w.store.comments) {targets : List (Section × Comment)}
    (htargets : List.Forall₂ (fun x t => t.1.key = x.key ∧ t.2 = .ofStored x) records targets) :
    Action.Keeps I (targets.mapM fun t => t.1.delete t.2) := by
  induction htargets with
  | nil => exact Action.Keeps.pure []
  | @cons x t records targets hx htargets ih =>
    obtain ⟨sec, comment⟩ := t
    obtain ⟨-, rfl⟩ := hx
    obtain ⟨hmem, hstored⟩ := List.forall_mem_cons.1 hstored
    rw [List.mapM_cons]
    apply Action.Keeps.bind (h.delete sec hw hmem)
    intro n
    apply Action.Keeps.bind (ih hstored)
    intro counts
    exact Action.Keeps.pure (n :: counts)

theorem remove (h : Commits I) (user : Option UserId) (ids : List CommentId) :
    (f.remove user ids).Keeps I := by
  apply Action.Keeps.bind (Action.Keeps.lift _)
  intro user w hw
  refine Action.ends_ask (fun _ _ _ _ _ h => h) (.question (c := .commentsByIds ids) rfl)
    (fun _ => hw) ?_
  rintro records rfl
  dsimp only
  split
  · exact hw
  · refine Action.ends_ask (fun _ _ _ _ _ h => h)
      (Action.Reads.mapM (f.prepareRemoval_reads user) _).observes (fun _ => hw) ?_
    intro targets htargets
    have hdelete := h.deleteAll hw (fun x hx => List.mem_of_mem_filter hx) htargets
    exact Action.Keeps.bind hdelete (fun _ => Action.Keeps.pure _) w hw

theorem voted (h : Commits I) (user : Option UserId) (req : VoteRequest) :
    (f.vote user req).Keeps I := by
  intro w hw
  refine f.vote_ends user req (fun _ _ _ _ _ h => h) (fun _ => hw) ?_
  intro u sec x _ hx hkey
  exact h.vote sec u req.upvote hw (Store.mem_of_comment? hx).1 hkey

theorem choose (h : Commits I) (user : Option UserId) (req : ChoiceRequest) :
    (f.choose user req).Keeps I := by
  intro w hw
  refine f.choose_ends user req (fun _ _ _ _ _ h => h) (fun _ => hw) ?_
  intro u status sec x _ _ _ _ _ hx
  refine Action.ends_bind_of (h.setStatus sec u status hw fun c hc => ?_) ?_ fun _ _ _ hw => hw
  · exact ⟨(Store.mem_of_comment? (hx c hc).1).1, (hx c hc).2⟩
  · exact fun _ _ w' hw' => (sec.status_reads u _).keeps w' hw'

theorem single (h : Commits I) (f : Forum) {op : Operation} (hop : op.isSingle) :
    (op.action f).Keeps I := by
  cases op with
  | list user req => exact .map (f.list_reads user req).keeps
  | sectionViews user req => exact .map (f.sectionViews_reads user req).keeps
  | post user batch => exact .map (f.post_keeps h.save user batch)
  | edit user batch => exact .map (f.edit_keeps h.save user batch)
  | remove user ids => exact .map (h.remove user ids)
  | vote user req => exact .map (h.voted user req)
  | choose user req => exact .map (h.choose user req)
  | _ => cases hop

theorem reached (h : Commits I) (hempty : I {}) {w : World}
    (hw : Reached (fun _ op => op.isSingle) w) : I w := by
  induction hw with
  | start => exact hempty
  | operate f op faults state _ hop ih => exact Program.Keeps.run (h.single f hop) faults state ih

/-- Of whatever is asked, nothing but the writes of sections and bulk calls can break an
invariant. -/
theorem operation (h : Commits I)
    (hbulk : ∀ {c : StoreCall}, c.IsBulk → ∀ w, I w → I { w with store := (w.store.answer c).2 })
    (f : Forum) (op : Operation) : (op.action f).Keeps I := by
  have hbulk {c : StoreCall} (hc : c.IsBulk) : (Action.store c).Keeps I :=
    Action.Keeps.store (hbulk hc)
  cases op with
  | clearSection sec => exact .map (hbulk (.removeSelected rfl))
  | clearArea area => exact .map (hbulk (.removeSelected rfl))
  | purgeComponent component => exact .map (hbulk (.removeComponent component))
  | purgeContexts contexts => exact .map (hbulk (.removeContexts contexts))
  | purgeVotes user => exact .map (hbulk (.withdrawVotes user))
  | purgeChoices user => exact .map (hbulk (.forgetChoices user))
  | introduce person => exact hbulk (.setPerson person)
  | _ => exact h.single f rfl

theorem reached_all (h : Commits I)
    (hbulk : ∀ {c : StoreCall}, c.IsBulk → ∀ w, I w → I { w with store := (w.store.answer c).2 })
    (hempty : I {}) {allowed : Forum → Operation → Prop} {w : World} (hw : Reached allowed w) :
    I w := by
  induction hw with
  | start => exact hempty
  | operate f op faults state _ _ ih =>
    exact Program.Keeps.run (h.operation hbulk f op) faults state ih

theorem of_store {P : Store → Prop}
    (h : ∀ s c, s.Fits c → s.Finds c → P s → P (s.answer c).2) : Commits fun w => P w.store where
  save := fun s comment => s.save_keeps comment (fun _ w hw hfits => h _ _ hfits trivial hw)
    (fun _ w hw => h _ (.revise _) trivial trivial hw) fun _ _ hw => hw
  delete := fun s _ _ _ _ _ hw =>
    s.delete_stores _ hw fun _ _ => h _ (.removeThread _ _) trivial trivial hw
  vote := by
    intro s x user upvote w hw hx _
    refine s.vote_stores _ user upvote hw ?_
    rintro _ ⟨⟩
    exact h _ (.castVote x.id user upvote) trivial ⟨x, hx, rfl⟩ hw
  setStatus := by
    intro s user x status w hw hx
    refine s.setStatus_stores user _ status hw ?_
    refine h _ (.choose user s.key _ status) trivial (fun id hid => ?_) hw
    obtain ⟨comment, hcomment, hid⟩ := Option.bind_eq_some_iff.1 hid
    obtain ⟨c, hc, rfl⟩ := Option.map_eq_some_iff.1 hcomment
    obtain rfl := Option.some.inj hid
    exact ⟨c, (hx c hc).1, rfl, (hx c hc).2⟩

end Commits

/-- What every write of the sections keeps, whatever comment they are given, and every bulk call. -/
structure Writes (I : World → Prop) : Prop where
  save : ∀ (s : Section) (comment : Comment), (s.save comment).Keeps I
  delete : ∀ (s : Section) (comment : Comment), (s.delete comment).Keeps I
  vote : ∀ (s : Section) (comment : Comment) (user : UserId) (upvote : Bool),
    (s.vote comment user upvote).Keeps I
  setStatus : ∀ (s : Section) (user : UserId) (comment : Option Comment) (status : Delivery),
    (s.setStatus user comment status).Keeps I
  bulk : ∀ {c : StoreCall}, c.IsBulk → ∀ w, I w → I { w with store := (w.store.answer c).2 }

namespace Writes

variable {I : World → Prop}

theorem commits (h : Writes I) : Commits I where
  save := h.save
  delete := fun s x _ _ _ => h.delete s (.ofStored x)
  vote := fun s x user upvote w hw _ _ => h.vote s (.ofStored x) user upvote w hw
  setStatus := fun s user x status w hw _ => h.setStatus s user (x.map .ofStored) status w hw

theorem of_store {P : Store → Prop} (h : ∀ s c, s.Fits c → P s → P (s.answer c).2) :
    Writes fun w => P w.store where
  save := (Commits.of_store fun s c hc _ => h s c hc).save
  delete := fun s comment _ hw =>
    s.delete_stores comment hw fun _ _ => h _ (.removeThread _ _) trivial hw
  vote := fun s comment user upvote _ hw =>
    s.vote_stores comment user upvote hw fun _ _ => h _ (.castVote _ _ _) trivial hw
  setStatus := fun s user comment status _ hw =>
    s.setStatus_stores user comment status hw (h _ (.choose _ _ _ _) trivial hw)
  bulk := fun hc _ hw => h _ _ hc.fits hw

theorem reached (h : Writes I) (hempty : I {}) {allowed : Forum → Operation → Prop} {w : World}
    (hw : Reached allowed w) : I w :=
  h.commits.reached_all h.bulk hempty hw

end Writes

end Discussion
