import Discussion.Proofs.Preparation

namespace Discussion

/-- Before a comment is saved, the component changes nothing but the contents and the pseudonym.
The capability that it gives may be any. -/
def Handler.Rewords (h : Handler) : Prop :=
  ∀ key (comment : Comment) cap, comment.Reworded (h.beforeSave key comment cap)

/-- The request is for a reply to a stored comment that is a reply itself. -/
def PostRequest.isNested (req : PostRequest) (s : Store) : Bool :=
  (req.replyTo.bind s.comment?).any fun x => x.replyTo.isSome

/-- Where no call to the store fails, the action ends with the error and leaves the second world. -/
def Action.Fails {α : Type} (m : Action α) (w : World) (e : Error) (w' : World) : Prop :=
  m.run.Ends Call.IsHost w fun r _ w'' => r = .error e ∧ w'' = w'

theorem Action.Fails.bind {α β : Type} {m : Action α} {g : α → Action β} {w w' : World} {e : Error}
    (h : m.Fails w e w') : (m >>= g).Fails w e w' := by
  refine ends_bind_of h ?_ ?_
  · rintro _ _ _ ⟨⟨⟩, -⟩
  · rintro _ _ _ ⟨⟨⟩, rfl⟩
    exact ⟨rfl, rfl⟩

/-- The world with one comment more, that has been told of. -/
def World.adding (w : World) (p : Prepared) : World where
  store := (w.store.add p.comment.packed.toStored).2
  events := w.events ++ [.created p.sec.key (w.store.add p.comment.packed.toStored).1
    p.comment.replyTo p.comment.modifier]

variable {s t : Store} {w : World} {p : Prepared} {target : CommentId}

theorem World.identities_adding (w : World) (p : Prepared) :
    w.store.identities <+: (w.adding p).store.identities :=
  (w.store.identities_add _).symm ▸ List.prefix_append _ _

/-- Stores a new comment and tells about it. -/
def Section.storeNew (sec : Section) (comment : Comment) : Action Comment := do
  let id ← Action.store (.add comment.packed.toStored)
  Action.tell (.created sec.key id comment.replyTo comment.modifier)
  return comment.packed.withId id

theorem Section.save_new (sec : Section) {comment : Comment} (hown : comment.key = sec.key)
    (hnew : comment.id = none) : sec.save comment = match comment.replyTo with
      | some target => sec.checkTarget target >>= fun _ => sec.storeNew comment
      | none => sec.storeNew comment := by
  unfold save storeNew
  rw [if_neg (not_not.2 hown)]
  dsimp only
  rw [show comment.packed.id = none from hnew,
    show comment.packed.replyTo = comment.replyTo from rfl]
  cases comment.replyTo with
  | none => rfl
  | some target => rfl

namespace Prepared

/-- A new comment whose target is found to be a reply. -/
structure Nests (s : Store) (p : Prepared) (target : CommentId) : Prop where
  own : p.comment.key = p.sec.key
  new : p.comment.id = none
  replies : p.comment.replyTo = some target
  nested : ∃ k, s.identities.find? (·.id == target) = some k ∧ k.key = p.sec.key ∧
    k.replyTo.isSome

theorem Nests.mono (h : p.Nests s target) (hgrown : s.identities <+: t.identities) :
    p.Nests t target where
  own := h.own
  new := h.new
  replies := h.replies
  nested := h.nested.imp fun _ hk => ⟨hgrown.find?_eq_some hk.1, hk.2⟩

variable {people : Comment → Participants}

theorem Nests.save_fails (h : p.Nests w.store target) :
    (p.save people).Fails w (.mistake (.nestedReply target)) w := by
  obtain ⟨k, hk, hkey, hnested⟩ := h.nested
  rw [Store.find?_identities] at hk
  obtain ⟨x, hx, rfl⟩ := Option.map_eq_some_iff.1 hk
  have hchecked : (p.sec.checkTarget target).Fails w (.mistake (.nestedReply target)) w := by
    refine Action.ends_bind_of (p.sec.comment_finds hx hkey) ?_ ?_
    · rintro _ _ _ ⟨rfl, ⟨⟩⟩
      rw [if_pos (show (Comment.ofStored x).isReply from hnested)]
      exact ⟨rfl, rfl⟩
    · rintro _ _ _ ⟨-, ⟨⟩⟩
  unfold save
  rw [p.sec.save_new h.own h.new, h.replies]
  exact hchecked.bind.bind

theorem Ready.save_ends (h : p.Ready w.store) (hnew : p.comment.id = none) :
    (p.save people).run.Ends Call.IsHost w fun r _ w' => (∃ v, r = .ok v) ∧ w' = w.adding p := by
  have hstored : (p.sec.storeNew p.comment).run.Ends Call.IsHost w fun r _ w' =>
      (∃ id, r = .ok (p.comment.packed.withId id)) ∧ w' = w.adding p :=
    ⟨fun _ hc => hc.elim, ⟨_, rfl⟩, rfl⟩
  have hsaved : (p.sec.save p.comment).run.Ends Call.IsHost w fun r _ w' =>
      (∃ id, r = .ok (p.comment.packed.withId id)) ∧ w' = w.adding p := by
    rw [p.sec.save_new h.own hnew]
    cases hreply : p.comment.replyTo with
    | none => exact hstored
    | some target =>
      obtain ⟨k, hk, hkey, htop⟩ := h.attached hnew target hreply
      refine Action.ends_bind_of (p.sec.checkTarget_finds hk hkey htop) ?_ ?_
      · rintro _ _ _ ⟨rfl, -⟩
        exact hstored
      · rintro _ _ _ ⟨-, _, ⟨⟩⟩
  obtain ⟨fields, hread⟩ := h.readable
  refine Action.ends_bind_of hsaved ?_ ?_
  · rintro _ _ _ ⟨⟨id, ⟨⟩⟩, rfl⟩
    have hread : (p.comment.packed.withId id).customData.toFields = .ok fields := hread
    apply (p.sec.viewComment_finds hread p.cap _).mono
    rintro _ _ _ ⟨rfl, hv⟩
    exact ⟨hv, rfl⟩
  · rintro _ _ _ ⟨⟨_, ⟨⟩⟩, -⟩

/-- Of comments that are saved one after another, those before the first reply to a reply are
stored, and that reply ends it. -/
theorem saveAll_fails {done later : List Prepared}
    (hdone : ∀ q ∈ done, q.Ready w.store ∧ q.comment.id = none) (hp : p.Nests w.store target) :
    Action.Fails ((done ++ p :: later).mapM fun q => q.save people) w
      (.mistake (.nestedReply target)) (done.foldl World.adding w) := by
  induction done generalizing w with
  | nil =>
    rw [List.nil_append, List.mapM_cons]
    exact hp.save_fails.bind
  | cons q done ih =>
    obtain ⟨⟨hready, hnew⟩, hdone⟩ := List.forall_mem_cons.1 hdone
    have hgrown := w.identities_adding q
    rw [List.cons_append, List.mapM_cons]
    refine Action.ends_bind_of (hready.save_ends hnew) ?_ ?_
    · rintro v _ _ ⟨-, rfl⟩
      refine (ih (fun r hr => ?_) (hp.mono hgrown)).bind
      exact ⟨(hdone r hr).1.mono hgrown, (hdone r hr).2⟩
    · rintro _ _ _ ⟨⟨_, ⟨⟩⟩, -⟩

end Prepared

namespace Forum

variable {f : Forum} {user : UserId} {req : PostRequest} {batch : List PostRequest}

theorem PostsIn.kept (h : f.PostsIn s user req p) (hf : ∀ d ∈ f.areas, d.handler.Rewords) :
    p.comment.key = p.sec.key ∧ p.comment.id = none ∧ p.comment.replyTo = req.replyTo ∧
      ∃ fields, CustomData.fieldsOf p.comment.customData.toText = .ok fields := by
  have hrewords := ((sectionOf_handler hf req.key).look h.located).2
  obtain ⟨fields, hread, -, hp⟩ := Prepared.check_inv h.checked
  obtain ⟨content, format, pseudonym, hkept⟩ := (hrewords p.sec.key
    { f.draft user req p.sec.key with customData := .fields fields } p.cap).kept
  rw [hp]
  dsimp only [Section.beforeSave]
  rw [hkept]
  exact ⟨rfl, rfl, rfl, CustomData.fieldsOf_textOf hread⟩

theorem PostsIn.attached (h : f.PostsIn s user req p) (htarget : req.replyTo = some target) :
    ∃ k, s.identities.find? (·.id == target) = some k ∧ k.key = p.sec.key ∧
      k.replyTo.isSome = req.isNested s := by
  obtain ⟨x, hid, hx, -⟩ := h.target
  rw [htarget] at hid
  obtain ⟨c, rfl, rfl⟩ := Option.map_eq_some_iff.1 hid
  obtain ⟨hstored, hkey⟩ := hx c rfl
  refine ⟨c.identity, ?_, hkey, ?_⟩
  · rw [Store.find?_identities, hstored]
    rfl
  · rw [PostRequest.isNested, htarget, Option.bind_some, hstored]
    rfl

theorem PostsIn.ready (h : f.PostsIn s user req p) (hf : ∀ d ∈ f.areas, d.handler.Rewords)
    (hnested : req.isNested s = false) : p.Ready s ∧ p.comment.id = none := by
  obtain ⟨hown, hnew, hreply, hreadable⟩ := h.kept hf
  refine ⟨⟨hown, hreadable, fun id hid => ?_, fun _ target htarget => ?_⟩, hnew⟩
  · rw [hnew] at hid
    cases hid
  · obtain ⟨k, hk, hkey, hreplies⟩ := h.attached (hreply.symm.trans htarget)
    rw [hnested, Option.isSome_eq_false_iff, Option.isNone_iff_eq_none] at hreplies
    exact ⟨k, hk, hkey, hreplies⟩

theorem PostsIn.nests (h : f.PostsIn s user req p) (hf : ∀ d ∈ f.areas, d.handler.Rewords)
    (hnested : req.isNested s) : ∃ target, req.replyTo = some target ∧ p.Nests s target := by
  obtain ⟨hown, hnew, hreply, -⟩ := h.kept hf
  cases htarget : req.replyTo with
  | none => simp [PostRequest.isNested, htarget] at hnested
  | some target =>
    obtain ⟨k, hk, hkey, hreplies⟩ := h.attached htarget
    exact ⟨target, rfl, hown, hnew, hreply.trans htarget, k, hk, hkey, hreplies.trans hnested⟩

/-- The batch breaks off at its first reply to a reply, though every comment of it has passed the
checks. The comments before that one are stored and told of. -/
structure BreaksOff (f : Forum) (w : World) (user : UserId) (batch : List PostRequest)
    (r : Except Error (List ShownComment)) (w' : World) : Prop where
  checked : ∀ req ∈ batch, ∃ p, f.PostsIn w.store user req p
  split : ∃ done req later, batch = done ++ req :: later ∧
    (∀ d ∈ done, d.isNested w.store = false) ∧ req.isNested w.store ∧
    (∃ target, req.replyTo = some target ∧ r = .error (.mistake (.nestedReply target))) ∧
    ∃ saved, List.Forall₂ (f.PostsIn w.store user) done saved ∧ w' = saved.foldl World.adding w

theorem saveAll_breaksOff {pending : List Prepared} (hf : ∀ d ∈ f.areas, d.handler.Rewords)
    (hpending : List.Forall₂ (f.PostsIn w.store user) batch pending)
    (hnested : ∃ req ∈ batch, req.isNested w.store) (people : Comment → Participants) :
    (pending.mapM fun p : Prepared => p.save people).run.Ends Call.IsHost w fun r _ w' =>
      f.BreaksOff w user batch r w' := by
  have hchecked : ∀ req ∈ batch, ∃ p, f.PostsIn w.store user req p :=
    exists_of_forall₂ hpending.flip
  cases hfirst : batch.find? fun req => req.isNested w.store with
  | none =>
    obtain ⟨req, hreq, hreply⟩ := hnested
    exact (List.find?_eq_none.1 hfirst req hreq hreply).elim
  | some req =>
    clear hnested
    obtain ⟨hnested, done, later, rfl, hdone⟩ := List.find?_eq_some_iff_append.1 hfirst
    obtain ⟨saved, _, rfl, hsaved, hrest⟩ := exists_append_of_forall₂ hpending
    obtain ⟨p, left, hp, -, rfl⟩ := List.forall₂_cons_left_iff.1 hrest
    have hdone : ∀ d ∈ done, d.isNested w.store = false := by
      simpa only [Bool.not_eq_true'] using hdone
    have hready : ∀ q ∈ saved, q.Ready w.store ∧ q.comment.id = none := by
      intro q hq
      obtain ⟨d, hd, hposts⟩ :=
        exists_of_forall₂ ((List.forall₂_and_left _ _).2 ⟨hdone, hsaved⟩) q hq
      exact hposts.ready hf hd
    obtain ⟨target, htarget, hnests⟩ := hp.nests hf hnested
    apply (Prepared.saveAll_fails hready hnests).mono
    rintro r _ w' ⟨hr, hw'⟩
    exact ⟨hchecked, done, req, later, rfl, hdone, hnested, ⟨target, htarget, hr⟩, saved, hsaved,
      hw'⟩

theorem look_mapM_preparePost {pending : List Prepared} :
    Action.look s (batch.mapM (f.preparePost user)) = .ok pending ↔
      List.Forall₂ (f.PostsIn s user) batch pending := by
  simp only [Action.look_mapM_eq_ok, look_preparePost]

theorem post_ends (hf : ∀ d ∈ f.areas, d.handler.Rewords)
    (hnested : ∃ req ∈ batch, req.isNested w.store) (user : Option UserId) :
    (f.post user batch).run.Ends Call.IsHost w fun r _ w' => (∃ e, r = .error e) ∧
      (w' = w ∨ ∃ u, user = some u ∧ f.BreaksOff w u batch r w') := by
  have hrejected (e : Error) : (∃ e', Except.error (α := List ShownComment) e = .error e') ∧
      (w = w ∨ ∃ u, user = some u ∧ f.BreaksOff w u batch (.error e) w) := ⟨⟨e, rfl⟩, .inl rfl⟩
  refine Action.ends_ask (fun _ _ _ _ _ h => h) (.lift _) hrejected fun u hu => ?_
  refine Action.ends_ask (fun _ _ _ _ _ h => h)
    ((Action.Asks.mapM (f.preparePost_asks u) batch).truthful _ w) hrejected fun pending hlook => ?_
  refine Action.ends_ask (fun _ _ _ _ _ h => h) (.question (c := .peopleByIds [u]) rfl) hrejected
    fun people _ => ?_
  apply (saveAll_breaksOff hf (look_mapM_preparePost.1 hlook) hnested _).mono
  intro r _ w' h
  obtain ⟨_, _, _, -, -, -, ⟨_, -, hr⟩, -⟩ := h.split
  exact ⟨⟨_, hr⟩, .inr ⟨u, f.memberOf_eq_ok hu, h⟩⟩

/-- Where no call to the store fails, a batch with a reply to a reply is not accepted, whatever the
components allow. All stays as it was unless each of its comments passes the checks, among them that
the user may post that reply; then, where no question to a component fails either, the comments
before the first reply to a reply are stored and told of before the batch ends with the error. -/
theorem post_nested {σ : Type} (faults : Faults σ)
    (hfaults : ∀ state c, (faults state (.store c)).1 = none)
    (hf : ∀ d ∈ f.areas, d.handler.Rewords) (user : Option UserId) (state : σ) (w : World)
    (hnested : ∃ req ∈ batch, req.isNested w.store) :
    let run := (f.post user batch).run.run faults state w
    let calm := (f.post user batch).run.run Faults.never () w
    (∃ e, run.1 = .error e) ∧
    (run.2.2 = w ∨ ∃ u, user = some u ∧ f.BreaksOff w u batch run.1 run.2.2) ∧
    ∀ u, user = some u → f.site.settings.enabled →
      (∀ req ∈ batch, ∃ p, f.PostsIn w.store u req p) → f.BreaksOff w u batch calm.1 calm.2.2 := by
  intro run calm
  obtain ⟨herror, hend⟩ :=
    Program.ends_run (Faults.isHost_of_isSome hfaults) (post_ends hf hnested user) state
  refine ⟨herror, hend, ?_⟩
  rintro u rfl henabled hchecked
  obtain ⟨pending, hpending⟩ := exists_forall₂ hchecked
  have hmember : (liftM (f.memberOf (some u) .post) : Action UserId).Answers w u := by
    rw [memberOf, if_pos henabled]
    rfl
  have hprepared : Action.Answers (batch.mapM (f.preparePost u)) w pending :=
    (Action.Asks.mapM (f.preparePost_asks u) batch).reads.answers (look_mapM_preparePost.2 hpending)
  have hpeople : (Action.store (.peopleByIds [u])).Answers w (w.store.peopleByIds [u]) :=
    (Action.Reads.store rfl).answers rfl
  have hcalm : calm = Program.run Faults.never (ExceptT.run (pending.mapM fun p : Prepared =>
      p.save fun _ => ⟨personOf (w.store.peopleByIds [u]) u, personOf (w.store.peopleByIds [u]) u⟩))
        () w := by
    change (f.post (some u) batch).run.run Faults.never () w = _
    rw [post, hmember.run_bind, hprepared.run_bind, hpeople.run_bind]
  rw [hcalm]
  exact Program.ends_run (fun _ _ h => nomatch h) (saveAll_breaksOff hf hpending hnested _) ()

/-- A wiki where everybody may reply to everything. -/
def permissiveWiki : Handler where
  item := Handler.wiki.item
  capability _ c := { c.toCapability with mayPost := fun _ _ => true }

/-- A comment at the top and a reply to a reply. -/
def talk (target : CommentId) : List PostRequest :=
  [{ key := ⟨"wiki", "talk", 1, 1⟩, content := "Top" },
    { key := ⟨"wiki", "talk", 1, 1⟩, content := "Below", replyTo := some target }]

theorem post_nested_twoThreads :
    let f := Forum.wiki permissiveWiki
    let run := (f.post (some 5) (talk 3)).run.run Faults.never () twoThreads
    (∀ state c, (Faults.never state (.store c)).1 = none) ∧ (∀ d ∈ f.areas, d.handler.Rewords) ∧
      (∃ req ∈ talk 3, req.isNested twoThreads.store) ∧
        f.BreaksOff twoThreads 5 (talk 3) run.1 run.2.2 := by
  intro f run
  have hf : ∀ d ∈ f.areas, d.handler.Rewords := by
    intro d hd
    rw [List.mem_singleton.1 hd]
    exact fun _ _ _ => .same
  have hnested : ∃ req ∈ talk 3, req.isNested twoThreads.store := by decide
  have hchecked : ∀ req ∈ talk 3, ∃ p, f.PostsIn twoThreads.store 5 req p := by
    have hall : (talk 3).all fun req =>
        ((f.preparePost 5 req).look twoThreads.store).toBool := by decide
    intro req hreq
    have hposts := List.all_eq_true.1 hall req hreq
    cases hlook : (f.preparePost 5 req).look twoThreads.store with
    | ok p => exact ⟨p, look_preparePost.1 hlook⟩
    | error e =>
      rw [hlook] at hposts
      cases hposts
  obtain ⟨-, -, h⟩ := post_nested Faults.never (fun _ _ => rfl) hf (some 5) () twoThreads hnested
  exact ⟨fun _ _ => rfl, hf, hnested, h 5 rfl rfl hchecked⟩

/-- The comment at the top is stored and told of, though the batch is rejected for the other one. -/
theorem post_nested_stored :
    let run := ((Forum.wiki permissiveWiki).post (some 5) (talk 3)).run.run Faults.never ()
      twoThreads
    Reached (fun _ _ => True) twoThreads ∧ (∃ req ∈ talk 3, req.isNested twoThreads.store) ∧
      run.1 = .error (.mistake (.nestedReply 3)) ∧
      run.2.2.store.comments.map (·.id) = twoThreads.store.comments.map (·.id) ++ [6] ∧
      run.2.2.events = twoThreads.events ++ [.created ⟨"wiki", "talk", 1, 1⟩ 6 none 5] :=
  ⟨reached_twoThreads, by decide, rfl, by decide, by decide⟩

end Forum

end Discussion
