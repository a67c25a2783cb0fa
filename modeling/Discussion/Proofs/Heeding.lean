import Discussion.Proofs.BatchStepwise

namespace Discussion

/-- The call fits every store that holds the comments. -/
def Call.Heeds (told : List StoredComment) : Call → Prop
  | .store c => Store.Fits { comments := told } c
  | .host .. => True

/-- Each call of the program fits what the call right before it has told, if the answers are those of
some worlds, of another one each time. Its result satisfies a condition. -/
def Program.Heeds {α : Type} :
    Program α → List StoredComment → (α → List StoredComment → Prop) → Prop
  | .done result, told, Q => Q result told
  | .tell _ next, _, Q => next.Heeds [] Q
  | .call request next, told, Q => request.Heeds told ∧
      (∀ failure, (next (.error failure)).Heeds [] Q) ∧
        ∀ w : World, (next (w.answer request).1).Heeds (request.told (w.answer request).1) Q

theorem Call.Heeds.of_question {c : Call} (h : c.isQuestion) (told : List StoredComment) :
    c.Heeds told := by
  cases c with
  | host handler question => trivial
  | store c =>
    cases c with
    | add | removeSelected => cases h
    | _ => trivial

namespace Program.Heeds

variable {α β : Type} {p : Program α} {f : α → Program β} {told : List StoredComment}
variable {Q R : α → List StoredComment → Prop}

theorem mono (h : p.Heeds told Q) (hQ : ∀ a more, Q a more → R a more) : p.Heeds told R := by
  induction p generalizing told with
  | done a => exact hQ a told h
  | tell event next ih => exact ih h
  | call c next ih =>
    exact ⟨h.1, fun failure => ih _ (h.2.1 failure), fun w => ih _ (h.2.2 w)⟩

theorem bind {Q : β → List StoredComment → Prop}
    (h : p.Heeds told fun a more => (f a).Heeds more Q) : (p >>= f).Heeds told Q := by
  induction p generalizing told with
  | done a => exact h
  | tell event next ih => exact ih h
  | call c next ih =>
    exact ⟨h.1, fun failure => ih _ (h.2.1 failure), fun w => ih _ (h.2.2 w)⟩

theorem of_reads {Q : α → Prop} (h : p.Reads Q) : p.Heeds told fun a _ => Q a := by
  induction p generalizing told with
  | done a => exact h
  | tell event next ih => exact h.elim
  | call c next ih => exact ⟨.of_question h.1 told, fun _ => ih _ (h.2 _), fun _ => ih _ (h.2 _)⟩

end Program.Heeds

/-- The calls of the action fit what was told right before. Its result, unless it is an error,
satisfies a condition. -/
def Action.Heeds {α : Type} (m : Action α) (told : List StoredComment)
    (Q : α → List StoredComment → Prop) : Prop :=
  m.run.Heeds told fun r more => ∀ a, r = .ok a → Q a more

/-- The calls of the action fit what was told right before, whatever came before the action. -/
def Action.Heedful {α : Type} (m : Action α) : Prop :=
  ∀ told, m.Heeds told fun _ _ => True

namespace Action

variable {α β : Type} {m : Action α} {g : α → Action β} {told : List StoredComment}
variable {Q : α → List StoredComment → Prop} {R : β → List StoredComment → Prop}

theorem Heeds.pure {a : α} (h : Q a told) : Action.Heeds (Pure.pure a) told Q := by
  rintro _ ⟨⟩
  exact h

theorem Heeds.throw (e : Error) : (MonadExcept.throw e : Action α).Heeds told Q := nofun

theorem Heeds.bind (hm : m.Heeds told Q) (hg : ∀ a more, Q a more → (g a).Heeds more R) :
    (m >>= g).Heeds told R := by
  apply Program.Heeds.bind
  refine Program.Heeds.mono hm fun r more hr => ?_
  cases r with
  | ok a => exact hg a more (hr a rfl)
  | error e => exact nofun

theorem Heeds.store {c : StoreCall} (h : Store.Fits { comments := told } c) :
    (Action.store c).Heeds told fun answer more =>
      ∃ s : Store, answer = (s.answer c).1 ∧ more = c.told answer := by
  refine ⟨h, fun failure => nofun, fun w => ?_⟩
  rintro _ ⟨⟩
  exact ⟨w.store, rfl, rfl⟩

namespace Heedful

theorem of_reads {Q : α → Prop} (h : m.Reads Q) : m.Heedful :=
  fun _ => Program.Heeds.mono (Program.Heeds.of_reads h) fun _ _ _ _ _ => trivial

theorem pure (a : α) : Heedful (Pure.pure a) := fun _ => .pure trivial

theorem bind (hm : m.Heedful) (hg : ∀ a, (g a).Heedful) : (m >>= g).Heedful :=
  fun told => (hm told).bind fun a more _ => hg a more

theorem map {f : α → β} (hm : m.Heedful) : (f <$> m).Heedful :=
  hm.bind fun _ => pure _

theorem mapM {f : α → Action β} {l : List α} (hf : ∀ a ∈ l, (f a).Heedful) :
    Action.Heedful (l.mapM f) := by
  induction l with
  | nil => exact pure []
  | cons a l ih =>
    obtain ⟨ha, hl⟩ := List.forall_mem_cons.1 hf
    rw [List.mapM_cons]
    exact ha.bind fun b => (ih hl).bind fun bs => pure _

theorem store {c : StoreCall} (h : ∀ told, Store.Fits { comments := told } c) :
    (Action.store c).Heedful :=
  fun told => Program.Heeds.mono (Heeds.store (h told)) fun _ _ _ _ _ => trivial

theorem tell (event : Event) : (Action.tell event).Heedful := fun _ _ _ => trivial

end Heedful

end Action

namespace Section

variable (sec : Section) {told : List StoredComment}

theorem comment_heeds (id : CommentId) : (sec.comment id).Heeds told fun c more =>
    ∃ t ∈ more, t.id = id ∧ t.key = sec.key ∧ c = .ofStored t := by
  have hfound : (sec.comment? id).Heeds told fun found more =>
      ∀ c ∈ found, ∃ t ∈ more, t.id = id ∧ t.key = sec.key ∧ c = .ofStored t := by
    refine (Action.Heeds.store (c := .comment id) trivial).bind fun record more hrecord => .pure ?_
    obtain ⟨s, hanswer, rfl⟩ := hrecord
    intro c hc
    obtain ⟨t, ht, rfl⟩ := Option.map_eq_some_iff.1 hc
    obtain ⟨ht, hkey⟩ := Option.filter_eq_some_iff.1 ht
    refine ⟨t, Option.mem_toList.2 ht, ?_, beq_iff_eq.1 hkey, rfl⟩
    exact (Store.mem_of_comment? (hanswer.symm.trans ht)).2
  refine hfound.bind fun found more hstored => ?_
  cases found with
  | some comment => exact .pure (hstored comment rfl)
  | none => exact .throw _

theorem checkTarget_heeds (target : CommentId) : (sec.checkTarget target).Heeds told fun _ more =>
    ∃ t ∈ more, t.id = target ∧ t.key = sec.key ∧ t.replyTo = none := by
  refine (sec.comment_heeds target).bind fun c more hc => ?_
  obtain ⟨t, ht, hid, hkey, rfl⟩ := hc
  split
  · exact .throw _
  next htop => exact .pure ⟨t, ht, hid, hkey, Option.not_isSome_iff_eq_none.1 htop⟩

/-- Between the check of the target and the reply itself nothing else is asked. -/
theorem save_heedful (comment : Comment) : (sec.save comment).Heedful := by
  intro told
  unfold save
  split
  · exact .throw _
  next hkey =>
  rw [not_not] at hkey
  dsimp only
  split
  next id hid =>
    have hrevise : (Action.store (.revise comment.packed.toStored)).Heedful := .store fun _ => trivial
    refine hrevise.bind (fun revised => ?_) told
    split
    · exact .bind (.tell _) fun _ => .pure _
    · exact fun _ => .throw _
  next hid =>
    have hadded {told : List StoredComment}
        (h : Store.Fits { comments := told } (.add comment.packed.toStored)) : Action.Heeds (do
          let id ← Action.store (.add comment.packed.toStored)
          Action.tell (.created sec.key id comment.packed.replyTo comment.packed.toStored.modifier)
          return comment.packed.withId id) told fun _ _ => True :=
      (Action.Heeds.store h).bind fun id _ _ =>
        ((Action.Heedful.tell _).bind fun _ => .pure _) _
    split
    next target htarget =>
      refine (sec.checkTarget_heeds target).bind fun _ more hmore => hadded fun p hp => ?_
      obtain ⟨t, ht, hid, hsec, htop⟩ := hmore
      obtain rfl := Option.some.inj (htarget.symm.trans hp)
      exact ⟨t, ht, hid, hsec.trans hkey.symm, htop⟩
    next hnone => exact hadded fun p hp => (hnone p hp).elim

theorem delete_heedful (comment : Comment) : (sec.delete comment).Heedful := by
  unfold delete
  split
  · exact .pure _
  · refine .bind (.store fun _ => trivial) fun n => ?_
    dsimp only
    split
    · exact .bind (.tell _) fun _ => .pure _
    · exact .pure _

theorem vote_heedful (comment : Comment) (user : UserId) (upvote : Bool) :
    (sec.vote comment user upvote).Heedful := by
  unfold vote
  split
  · exact fun _ => .throw _
  · refine .bind (.store fun _ => trivial) fun changed => ?_
    split
    · exact .bind (.tell _) fun _ => .pure _
    · exact .pure _

end Section

namespace Forum

variable (f : Forum)

theorem batch_heedful {ρ : Type} {prepare : ρ → Action Prepared}
    (hreads : ∀ req, (prepare req).Reads fun _ => True) (ids : List Prepared → List UserId)
    (people : List Person → Comment → Participants) (reqs : List ρ) :
    (batch prepare ids people reqs).Heedful :=
  .bind (.of_reads (.mapM hreads reqs)) fun _ => .bind (.of_reads (.store rfl)) fun _ =>
    .mapM fun p _ => .bind (p.sec.save_heedful p.comment) fun c =>
      .of_reads (p.sec.viewComment_reads c p.cap _)

theorem operation_heedful (op : Operation) : (op.action f).Heedful := by
  have hfree {c : StoreCall} (hc : ∀ told, Store.Fits { comments := told } c) :
      Action.Heedful (discard (Action.store c)) :=
    .map (.store hc)
  cases op with
  | list user req => exact .map (.of_reads (f.list_reads user req))
  | sectionViews user req => exact .map (.of_reads (f.sectionViews_reads user req))
  | post user batch =>
    refine .map (.bind (.of_reads (.lift_any _)) fun u => ?_)
    exact batch_heedful (fun req => (f.preparePost_posts u req).mono fun _ _ => trivial)
      (fun _ => [u]) (fun people _ => ⟨personOf people u, personOf people u⟩) batch
  | edit user batch =>
    refine .map (.bind (.of_reads (.lift_any _)) fun u => ?_)
    exact batch_heedful (f.prepareEdit_reads u)
      (fun pending => pending.flatMap fun p => [p.comment.author, u])
      (fun people comment => ⟨personOf people comment.author, personOf people u⟩) batch
  | remove user ids =>
    refine .map (.bind (.of_reads (.lift_any _)) fun u => .bind (.of_reads (.store rfl)) ?_)
    intro records
    dsimp only
    split
    · exact fun _ => .throw _
    · exact .bind (.of_reads (.mapM (f.prepareRemoval_reads u) records)) fun targets =>
        .bind (.mapM fun t _ => t.1.delete_heedful t.2) fun _ => .pure _
  | vote user req =>
    refine .map (.bind (.of_reads (.lift_any _)) fun u => .bind (.of_reads (f.sectionOf_reads _)) ?_)
    intro sec
    refine .bind (.of_reads (sec.comment_reads _)) fun c => .bind (.of_reads (.lift_any _)) ?_
    intro cap
    dsimp only
    split
    · exact fun _ => .throw _
    · exact .bind (sec.vote_heedful c u _) fun _ => .pure _
  | choose user req =>
    refine .map (.bind (.of_reads (.lift_any _)) fun u => .bind (.of_reads (.lift_any _)) ?_)
    intro status
    refine .bind (.of_reads (f.sectionOf_reads _)) fun sec =>
      .bind (.of_reads (sec.target_isSome _)) fun c =>
        .bind (.of_reads (sec.status_reads u c)) fun current => .bind (.of_reads (.lift_any _)) ?_
    intro cap
    dsimp only
    split
    · exact fun _ => .throw _
    · exact .bind (.bind (.store fun _ => trivial) fun _ => .tell _) fun _ =>
        .of_reads (sec.status_reads u c)
  | introduce person => exact .store fun _ => trivial
  | clearSection sec => exact hfree fun _ => rfl
  | clearArea area => exact hfree fun _ => rfl
  | _ => exact hfree fun _ => trivial

end Forum

end Discussion
