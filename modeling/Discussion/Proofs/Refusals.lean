import Discussion.Proofs.HiddenAuthors.Rows
import Discussion.Proofs.Preparation
import Discussion.Proofs.Removal

namespace Discussion

variable {α β : Type} {w : World}

namespace Action

/-- Where no call fails, the action ends with the user being refused. -/
def Refuses (m : Action α) (w : World) : Prop :=
  ∃ cause, (m.run.run Faults.never () w).1 = .error (.refused cause)

/-- Whatever becomes of its calls, the action does not end with the user being refused. -/
def Spares (m : Action α) : Prop :=
  ∀ w, m.run.Ends (fun _ => True) w fun r _ _ => ∀ cause, r ≠ .error (.refused cause)

variable {m : Action α} {g : α → Action β} {a : α}

theorem spares_iff : m.Spares ↔ m.FailsOnly fun e => ∀ cause, e ≠ .refused cause := by
  constructor
  · rintro h w
    apply (h w).mono
    rintro _ _ _ hr e rfl cause rfl
    exact hr cause rfl
  · rintro h w
    apply (h w).mono
    rintro _ _ _ hr cause rfl
    exact hr _ rfl cause rfl

namespace Spares

theorem pure (a : α) : (Pure.pure a : Action α).Spares :=
  spares_iff.2 (.pure a)

theorem lift {r : Except Error α} (h : ∀ cause, r ≠ .error (.refused cause)) :
    (liftM r : Action α).Spares := fun _ => h

theorem throw {e : Error} (h : ∀ cause, e ≠ .refused cause) :
    (MonadExcept.throw e : Action α).Spares :=
  spares_iff.2 (.throw h)

theorem store (c : StoreCall) : (Action.store c).Spares :=
  spares_iff.2 (.store (fun _ => nofun) c)

theorem tell (event : Event) : (Action.tell event).Spares :=
  spares_iff.2 (.tell event)

theorem bind (hm : m.Spares) (hg : ∀ a, (g a).Spares) : (m >>= g).Spares :=
  spares_iff.2 (.bind (spares_iff.1 hm) fun a => spares_iff.1 (hg a))

theorem mapM {f : α → Action β} (hf : ∀ a, (f a).Spares) (l : List α) :
    Action.Spares (l.mapM f) :=
  spares_iff.2 (.mapM (fun a => spares_iff.1 (hf a)) l)

theorem not_refuses (h : m.Spares) : ¬m.Refuses w := by
  rintro ⟨cause, hcause⟩
  exact (h w).run_any Faults.never () cause hcause

end Spares

theorem refuses_bind (hg : ∀ a, (g a).Spares) : (m >>= g).Refuses w ↔ m.Refuses w := by
  unfold Refuses
  change (∃ cause, (Program.run Faults.never (m.run >>= ExceptT.bindCont g) () w).1 = _) ↔ _
  rw [Program.run_bind]
  obtain ⟨r, u, w'⟩ := m.run.run Faults.never () w
  cases r with
  | ok a =>
    constructor
    · exact fun h => ((hg a).not_refuses h).elim
    · rintro ⟨_, ⟨⟩⟩
  | error e =>
    refine exists_congr fun cause => ?_
    change Except.error e = _ ↔ Except.error e = _
    rw [Except.error.injEq, Except.error.injEq]

theorem Answers.refuses_bind (h : m.Answers w a) : (m >>= g).Refuses w ↔ (g a).Refuses w := by
  rw [Refuses, h.run_bind, Refuses]

theorem answers_lift {r : Except Error α} (h : r = .ok a) : (liftM r : Action α).Answers w a := by
  rw [h]
  rfl

theorem refuses_unless {allowed : Bool} {cause : Refusal} (hm : m.Spares) :
    Action.Refuses (if !allowed then do
        throw (.refused cause)
        m
      else m) w ↔ allowed = false := by
  cases allowed with
  | false => exact iff_of_true ⟨cause, rfl⟩ rfl
  | true => exact iff_of_false hm.not_refuses nofun

theorem refuses_mapM_singleton {f : α → Action β} :
    Action.Refuses ([a].mapM f) w ↔ (f a).Refuses w := by
  rw [List.mapM_cons, List.mapM_nil]
  exact refuses_bind fun _ => .bind (.pure _) fun _ => .pure _

end Action

namespace Section

variable (sec : Section)

theorem comment_spares (id : CommentId) : (sec.comment id).Spares := by
  refine .bind (.bind (.store _) fun _ => .pure _) fun found => ?_
  cases found with
  | some comment => exact .pure _
  | none => exact .throw nofun

theorem save_spares (comment : Comment) : (sec.save comment).Spares := by
  unfold save
  split
  · exact .throw nofun
  dsimp only
  split
  · refine .bind (.store _) fun revised => ?_
    split
    · exact .bind (.tell _) fun _ => .pure _
    · exact .throw nofun
  · have hadd : Action.Spares (do
        let id ← Action.store (.add comment.packed.toStored)
        Action.tell (.created sec.key id comment.packed.replyTo comment.packed.toStored.modifier)
        return comment.packed.withId id) :=
      .bind (.store _) fun _ => .bind (.tell _) fun _ => .pure _
    split
    · refine .bind (.bind (sec.comment_spares _) fun target => ?_) fun _ => hadd
      split
      · exact .throw nofun
      · exact .pure _
    · exact hadd

theorem delete_failsOnly {E : Error → Prop} (h : ∀ failure, E (.storage failure))
    (comment : Comment) : (sec.delete comment).FailsOnly E := by
  unfold delete
  split
  · exact .pure _
  · refine .bind (.store h _) fun deleted => ?_
    split
    · exact .bind (.tell _) fun _ => .pure _
    · exact .pure _

theorem delete_spares (comment : Comment) : (sec.delete comment).Spares :=
  Action.spares_iff.2 (sec.delete_failsOnly (fun _ => nofun) comment)

theorem vote_spares (comment : Comment) (user : UserId) (upvote : Bool) :
    (sec.vote comment user upvote).Spares := by
  unfold vote
  split
  · exact .throw nofun
  · refine .bind (.store _) fun changed => ?_
    split
    · exact .bind (.tell _) fun _ => .pure _
    · exact .pure _

theorem setStatus_spares (user : UserId) (comment : Option Comment) (status : Delivery) :
    (sec.setStatus user comment status).Spares :=
  .bind (.store _) fun _ => .tell _

theorem status_spares (user : UserId) (comment : Option Comment) :
    (sec.status user comment).Spares := by
  refine fun w => Program.Ends.mono (Program.Asks.ends (sec.status_asks user comment)) ?_
  rintro _ _ _ ⟨rfl | ⟨failure, rfl⟩, -⟩
  · intro cause hcause
    cases (sec.look_status user comment).symm.trans hcause
  · exact nofun

end Section

theorem CustomData.asFields_spares (d : CustomData) (cause : Refusal) :
    d.asFields ≠ .error (.refused cause) := by
  have hfields : d.toFields ≠ .error (.refused cause) := by
    cases d with
    | fields entries => exact nofun
    | text json =>
      change fieldsOf json ≠ _
      unfold fieldsOf
      split
      · exact nofun
      · split <;> exact nofun
  unfold asFields
  cases hd : d.toFields with
  | ok entries => exact nofun
  | error e =>
    intro h
    rw [hd] at hfields
    exact hfields (congrArg Except.error (Except.error.inj h))

theorem Section.viewComment_spares (sec : Section) (comment : Comment) (cap : Capability)
    (people : Participants) : (sec.viewComment comment cap people).Spares := by
  have hupvoted (id : CommentId) : (hasUpvoted cap.user id).Spares := by
    cases cap.user with
    | none => exact .pure _
    | some user => exact .store _
  have hhearing (comment : Comment) : (sec.hearing cap.user (some comment)).Spares := by
    cases cap.user with
    | none => exact .pure _
    | some user => exact .bind (sec.status_spares _ _) fun _ => .pure _
  exact .bind (.lift comment.customData.asFields_spares) fun _ => .bind (hupvoted _) fun _ =>
    .bind (hhearing _) fun _ => .pure _

namespace Prepared

variable {sec : Section} {cap : Capability} {comment : Comment} {id : Option CommentId}

theorem check_spares (cause : Refusal) : check sec cap comment id ≠ .error (.refused cause) := by
  unfold check
  dsimp only
  split <;> exact nofun

theorem save_spares (p : Prepared) (people : Comment → Participants) : (p.save people).Spares :=
  .bind (p.sec.save_spares _) fun _ => p.sec.viewComment_spares _ _ _

end Prepared

/-- The component gives everybody the usual capability. -/
def Handler.GrantsUsual (h : Handler) : Prop :=
  h.capability = fun _ c => c.toCapability

/-- The site has comments enabled, and the capability is the user's in the section. -/
structure Forum.Welcomes (f : Forum) (s : Store) (user : UserId) (sec : Section)
    (cap : Capability) : Prop where
  enabled : f.site.settings.enabled
  located : (f.sectionOf sec.key).look s = .ok sec
  capability : sec.capability f.site (some user) = .ok cap

/-- The comment is stored and stands in the section. -/
structure Section.Contains (sec : Section) (s : Store) (x : StoredComment) : Prop where
  stored : s.comment? x.id = some x
  own : x.key = sec.key

namespace Section

variable {sec : Section} {x : StoredComment}

theorem Contains.of_mem {s : Store} (hn : s.Numbered) (hx : x ∈ s.comments)
    (hown : x.key = sec.key) : sec.Contains s x := by
  refine ⟨?_, hown⟩
  cases hfound : s.comment? x.id with
  | none => exact absurd hfound (Option.isSome_iff_ne_none.1 (List.find?_isSome.2 ⟨x, hx, BEq.rfl⟩))
  | some y =>
    obtain ⟨hy, hid⟩ := Store.mem_of_comment? hfound
    rw [hn.eq_of_id hy hx hid]

theorem Contains.answers (h : sec.Contains w.store x) :
    (sec.comment x.id).Answers w (.ofStored x) :=
  (sec.comment_reads x.id).answers (sec.look_comment.2 ⟨x, h.stored, h.own, rfl⟩)

theorem answers_target {x : Option StoredComment} (hx : ∀ c ∈ x, sec.Contains w.store c) :
    Action.Answers ((x.map (·.id)).mapM sec.comment) w (x.map .ofStored) := by
  refine (sec.target_isSome _).answers (sec.look_target.2 ⟨x, rfl, fun c hc => ?_, rfl⟩)
  exact ⟨(hx c hc).stored, (hx c hc).own⟩

theorem Contains.commentsByIds (h : sec.Contains w.store x) (hn : w.store.Numbered) :
    w.store.commentsByIds [x.id] = [x] := by
  obtain ⟨hmem, -⟩ := Store.mem_of_comment? h.stored
  refine List.perm_singleton.1 ((List.perm_ext_iff_of_nodup ?_ (List.nodup_singleton x)).2 ?_)
  · exact hn.nodup_ids.of_map.filter _
  · intro y
    rw [Store.commentsByIds, List.mem_filter, List.contains_iff_mem, List.mem_singleton,
      List.mem_singleton]
    constructor
    · rintro ⟨hy, hid⟩
      exact hn.eq_of_id hy hmem hid
    · rintro rfl
      exact ⟨hmem, rfl⟩

end Section

namespace Forum

variable {f : Forum} {user : UserId} {sec : Section} {cap : Capability} {x : StoredComment}

theorem Welcomes.member {s : Store} (h : f.Welcomes s user sec cap) (action : MemberAction) :
    (liftM (f.memberOf (some user) action) : Action UserId).Answers w user := by
  refine Action.answers_lift ?_
  rw [memberOf, if_pos h.enabled]
  rfl

theorem Welcomes.answers (h : f.Welcomes w.store user sec cap) :
    (f.sectionOf sec.key).Answers w sec :=
  (f.sectionOf_reads sec.key).answers h.located

theorem Welcomes.answers_capability {s : Store} (h : f.Welcomes s user sec cap) :
    (liftM (sec.capability f.site (some user)) : Action Capability).Answers w cap :=
  Action.answers_lift h.capability

variable (h : f.Welcomes w.store user sec cap)

include h

theorem vote_refuses (hx : sec.Contains w.store x) {req : VoteRequest} (hkey : req.key = sec.key)
    (hid : req.comment = x.id) :
    (f.vote (some user) req).Refuses w ↔ cap.mayUpvote (.ofStored x) = false := by
  unfold vote
  rw [(h.member .vote).refuses_bind, hkey, h.answers.refuses_bind, hid, hx.answers.refuses_bind,
    h.answers_capability.refuses_bind]
  exact Action.refuses_unless (.bind (sec.vote_spares _ _ _) fun _ => .pure _)

theorem choose_refuses {x : Option StoredComment} (hx : ∀ c ∈ x, sec.Contains w.store c)
    {req : ChoiceRequest} (hkey : req.key = sec.key) (hid : req.comment = x.map (·.id))
    {status : Delivery} (hstatus : Delivery.ofName? req.status = some status) :
    (f.choose (some user) req).Refuses w ↔
      cap.maySubscribe (sec.statusIn w.store user req.comment) status (x.map .ofStored) =
        false := by
  have hname : (liftM (statusOfName req.status) : Action Delivery).Answers w status := by
    refine Action.answers_lift ?_
    rw [statusOfName, hstatus]
    rfl
  have hcurrent : (sec.status user (x.map .ofStored)).Answers w
      (sec.statusIn w.store user (x.map (·.id))) := by
    rw [← Comment.bind_ofStored]
    exact (sec.status_reads user _).answers (sec.look_status user _)
  unfold choose
  rw [(h.member .subscribe).refuses_bind, hname.refuses_bind, hkey, h.answers.refuses_bind, hid,
    (Section.answers_target hx).refuses_bind, hcurrent.refuses_bind,
    h.answers_capability.refuses_bind]
  exact Action.refuses_unless (.bind (sec.setStatus_spares _ _ _) fun _ => sec.status_spares _ _)

theorem post_refuses {x : Option StoredComment} (hx : ∀ c ∈ x, sec.Contains w.store c)
    {req : PostRequest} (hkey : req.key = sec.key) (hid : req.replyTo = x.map (·.id)) :
    (f.post (some user) [req]).Refuses w ↔
      cap.mayPost (.ofPseudonym (normalPseudonym (some req.pseudonym))) (x.map .ofStored) =
        false := by
  unfold post
  rw [(h.member .post).refuses_bind, Action.refuses_bind, Action.refuses_mapM_singleton]
  · unfold preparePost
    rw [hkey, h.answers.refuses_bind, h.answers_capability.refuses_bind, hid,
      (Section.answers_target hx).refuses_bind]
    exact Action.refuses_unless (.lift Prepared.check_spares)
  · exact fun pending => .bind (.store _) fun people => .mapM (fun p => p.save_spares _) _

/-- An edit is refused where the user may not edit the comment. That a pseudonym is not allowed is
another error. -/
theorem edit_refuses (hx : sec.Contains w.store x) {req : EditRequest} (hkey : req.key = sec.key)
    (hid : req.id = x.id) :
    (f.edit (some user) [req]).Refuses w ↔ cap.mayEdit (.ofStored x) = false := by
  unfold edit
  rw [(h.member .edit).refuses_bind, Action.refuses_bind, Action.refuses_mapM_singleton]
  · unfold prepareEdit
    rw [hkey, h.answers.refuses_bind, hid, hx.answers.refuses_bind,
      h.answers_capability.refuses_bind]
    refine Action.refuses_unless ?_
    dsimp only
    split
    · exact .throw nofun
    split
    · exact .throw nofun
    · exact .lift Prepared.check_spares
  · exact fun pending => .bind (.store _) fun people => .mapM (fun p => p.save_spares _) _

theorem remove_refuses (hn : w.store.Numbered) (hx : sec.Contains w.store x) :
    (f.remove (some user) [x.id]).Refuses w ↔ cap.mayDelete (.ofStored x) = false := by
  have hfound : (Action.store (.commentsByIds [x.id])).Answers w [x] :=
    (Action.Reads.store rfl).answers (congrArg Except.ok (hx.commentsByIds hn))
  have hmissing : (missingIds [x.id] [x]).isEmpty :=
    missingIds_isEmpty.2 (List.forall_mem_singleton.2 ⟨x, List.mem_singleton_self x, rfl⟩)
  unfold remove
  rw [(h.member .delete).refuses_bind, hfound.refuses_bind]
  dsimp only
  rw [hmissing, Bool.not_true, if_neg Bool.false_ne_true, Action.refuses_bind,
    Action.refuses_mapM_singleton]
  · unfold prepareRemoval
    rw [hx.own, h.answers.refuses_bind, h.answers_capability.refuses_bind]
    exact Action.refuses_unless (.pure _)
  · exact fun targets => .bind (.mapM (fun t => t.1.delete_spares t.2) _) fun _ => .pure _

end Forum

end Discussion
