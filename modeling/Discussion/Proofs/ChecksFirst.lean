import Discussion.Proofs.JsonBounds
import Discussion.Proofs.Removal

namespace Discussion

/-- What comes of a comment when its contents and its pseudonym are set anew, any number of
times. -/
inductive Comment.Reworded (c : Comment) : Comment → Prop
  | same : Reworded c c
  | content {d : Comment} (content : String) (format : TextFormat) :
    Reworded c d → Reworded c (d.withContent content format)
  | pseudonym {d e : Comment} (pseudonym : String) :
    Reworded c d → d.withPseudonym pseudonym = .ok e → Reworded c e

/-- The component keeps the usual capability, and before a comment is saved it changes nothing but
the contents and the pseudonym. Its checks may be any. -/
structure Handler.OnlyRewords (h : Handler) : Prop where
  capability : h.capability = fun _ c => c.toCapability
  beforeSave : ∀ key (comment : Comment) cap, comment.Reworded (h.beforeSave key comment cap)

/-- Where it ends with an error, the action has asked questions only, and all is as it was. -/
def Action.ChecksFirst {α σ : Type} (m : Action α) (faults : Faults σ) (state : σ) (w : World) :
    Prop :=
  ∀ e, (m.run.run faults state w).1 = .error e →
    (m.run.run faults state w).2.2 = w ∧ ∀ c ∈ m.run.carried faults state w, c.isQuestion

theorem CustomData.fieldsOf_textOf {json : String} {entries : Json.Fields}
    (h : fieldsOf json = .ok entries) : ∃ again, fieldsOf (textOf entries) = .ok again := by
  cases entries with
  | nil => exact ⟨[], rfl⟩
  | cons entry rest =>
    unfold fieldsOf at h
    split at h
    · cases h
    · split at h
      next fields hread =>
        obtain rfl := Except.ok.inj h
        rw [show textOf (entry :: rest) = Json.write (.object (entry :: rest)) from rfl, fieldsOf,
          Json.parseObject_write hread]
        split <;> exact ⟨_, rfl⟩
      · cases h

namespace Comment

variable {c d : Comment}

theorem withPseudonym_kept {pseudonym : String} (h : c.withPseudonym pseudonym = .ok d) :
    ∃ p, d = { c with pseudonym := p } := by
  unfold withPseudonym at h
  split at h
  next p _ => exact ⟨some p, (Except.ok.inj h).symm⟩
  · split at h
    · cases h
    · exact ⟨c.pseudonym, (Except.ok.inj h).symm⟩

theorem Reworded.kept (h : c.Reworded d) : ∃ content format pseudonym,
    d = { c with content, format, pseudonym } := by
  induction h with
  | same => exact ⟨c.content, c.format, c.pseudonym, rfl⟩
  | content content format _ ih =>
    obtain ⟨_, _, pseudonym, rfl⟩ := ih
    exact ⟨content, format, pseudonym, rfl⟩
  | pseudonym pseudonym _ hset ih =>
    obtain ⟨content, format, _, rfl⟩ := ih
    obtain ⟨p, rfl⟩ := withPseudonym_kept hset
    exact ⟨content, format, p, rfl⟩

end Comment

/-- A comment that can be saved, and shown to its user when it is saved. The target of a reply is the
first comment with the id, as it is looked up. -/
structure Prepared.Ready (s : Store) (p : Prepared) : Prop where
  own : p.comment.key = p.sec.key
  readable : ∃ fields, CustomData.fieldsOf p.comment.customData.toText = .ok fields
  stored : ∀ id ∈ p.comment.id, ∃ k ∈ s.identities, k.id = id
  attached : p.comment.id = none → ∀ id ∈ p.comment.replyTo, ∃ k,
    s.identities.find? (·.id == id) = some k ∧ k.key = p.sec.key ∧ k.replyTo = none

theorem Prepared.Ready.mono {s t : Store} {p : Prepared} (h : p.Ready s)
    (hgrown : s.identities <+: t.identities) : p.Ready t where
  own := h.own
  readable := h.readable
  stored := fun id hid => (h.stored id hid).imp fun _ hk => ⟨hgrown.subset hk.1, hk.2⟩
  attached := fun hnew id hid => (h.attached hnew id hid).imp fun _ hk =>
    ⟨hgrown.find?_eq_some hk.1, hk.2⟩

/-- Where no call to the store fails, the action ends with a result and leaves all as it was. -/
def Action.Finds {α : Type} (m : Action α) (w : World) : Prop :=
  m.run.Ends Call.IsHost w fun r _ w' => w' = w ∧ ∃ a, r = .ok a

namespace Action.Finds

variable {α β : Type} {m : Action α} {g : α → Action β} {w : World}

theorem pure (a : α) : Action.Finds (Pure.pure a) w := ⟨rfl, a, rfl⟩

theorem bind (hm : m.Finds w) (hg : ∀ a, (g a).Finds w) : (m >>= g).Finds w := by
  refine ends_bind_of hm ?_ ?_
  · rintro a _ w' ⟨rfl, -⟩
    exact hg a
  · rintro e _ w' ⟨-, a, ha⟩
    cases ha

theorem question {c : StoreCall} (h : c.isQuestion) : (Action.store c).Finds w :=
  ends_store (fun _ hc => hc.elim) ⟨World.answer_of_isQuestion (c := .store c) h w, _, rfl⟩

end Action.Finds

namespace Section

variable (sec : Section) {w : World}

theorem status_finds (user : UserId) (comment : Option Comment) :
    (sec.status user comment).Finds w := by
  have hasked (comment : Option Comment) : (sec.chosenStatus user comment).Finds w :=
    .question rfl
  have hsection : (sec.status user none).Finds w := by
    apply Action.Finds.bind (hasked none)
    intro status
    cases status <;> exact .pure _
  unfold status
  split
  · apply Action.Finds.bind (hasked comment)
    intro status
    cases status with
    | some status => exact .pure status
    | none => exact hsection
  · exact hsection

theorem viewComment_finds {comment : Comment} {fields : Json.Fields}
    (hread : comment.customData.toFields = .ok fields) (cap : Capability)
    (people : Participants) : (sec.viewComment comment cap people).Finds w := by
  have hdecoded : comment.customData.asFields = .ok (fields, .fields fields) := by
    rw [CustomData.asFields, hread]
    rfl
  have hupvoted (viewer : Option UserId) (id : CommentId) : (hasUpvoted viewer id).Finds w := by
    cases viewer with
    | none => exact .pure false
    | some user => exact .question rfl
  have hhearing (viewer : Option UserId) (comment : Option Comment) :
      (sec.hearing viewer comment).Finds w := by
    cases viewer with
    | none => exact .pure _
    | some user => exact .bind (sec.status_finds user comment) fun _ => .pure _
  unfold viewComment
  rw [hdecoded]
  apply Action.Finds.bind (.pure (fields, CustomData.fields fields))
  intro _
  apply Action.Finds.bind (hupvoted _ _)
  intro _
  exact .bind (hhearing _ _) fun _ => .pure _

theorem comment_finds {id : CommentId} {x : StoredComment} (hx : w.store.comment? id = some x)
    (hkey : x.key = sec.key) : (sec.comment id).run.Ends Call.IsHost w fun r _ w' =>
      w' = w ∧ r = .ok (.ofStored x) := by
  have hfound : ((w.store.comment? id).filter fun r => r.key == sec.key) = some x := by
    rw [hx]
    exact Option.filter_some_pos (beq_iff_eq.2 hkey)
  unfold comment comment?
  rw [Action.ends_bind, Action.ends_bind]
  refine Action.ends_store (fun _ hc => hc.elim) ?_
  dsimp only [Store.answer]
  rw [hfound]
  exact ⟨rfl, rfl⟩

theorem checkTarget_finds {k : Identity} {target : CommentId}
    (hk : w.store.identities.find? (·.id == target) = some k) (hkey : k.key = sec.key)
    (htop : k.replyTo = none) : (sec.checkTarget target).Finds w := by
  rw [Store.find?_identities] at hk
  obtain ⟨x, hx, rfl⟩ := Option.map_eq_some_iff.1 hk
  have hreply : ¬(Comment.ofStored x).isReply := by
    rw [Comment.isReply, show (Comment.ofStored x).replyTo = none from htop]
    exact Bool.false_ne_true
  refine Action.ends_bind_of (sec.comment_finds hx hkey) ?_ ?_
  · rintro _ _ w' ⟨rfl, ⟨⟩⟩
    rw [if_neg hreply]
    exact ⟨rfl, (), rfl⟩
  · rintro e _ w' ⟨-, ⟨⟩⟩

end Section

/-- Where no call to the store fails, the action ends with a result that satisfies a condition.
Comments may come by it, but none goes or changes its identity. -/
def Action.Adds {α : Type} (m : Action α) (w : World) (Q : α → Prop) : Prop :=
  m.run.Ends Call.IsHost w fun r _ w' =>
    w.store.identities <+: w'.store.identities ∧ ∃ a, r = .ok a ∧ Q a

namespace Action.Adds

variable {α β : Type} {m : Action α} {g : α → Action β} {w : World} {Q : α → Prop} {R : β → Prop}

theorem pure {a : α} (h : Q a) : Action.Adds (Pure.pure a) w Q :=
  ⟨List.prefix_refl _, a, rfl, h⟩

theorem bind (hm : m.Adds w Q)
    (hg : ∀ a w', w.store.identities <+: w'.store.identities → Q a → (g a).Adds w' R) :
    (m >>= g).Adds w R := by
  refine ends_bind_of hm ?_ ?_
  · rintro a calls w' ⟨hgrown, _, ⟨⟩, ha⟩
    apply (hg a w' hgrown ha).mono
    intro r calls' w'' hend
    exact ⟨hgrown.trans hend.1, hend.2⟩
  · rintro e _ w' ⟨-, _, ⟨⟩, -⟩

theorem of_finds (h : m.Finds w) : m.Adds w fun _ => True := by
  apply h.mono
  rintro r calls w' ⟨rfl, a, ha⟩
  exact ⟨List.prefix_refl _, a, ha, trivial⟩

theorem tell (event : Event) : (Action.tell event).Adds w fun _ => True :=
  ⟨List.prefix_refl _, (), rfl, trivial⟩

theorem add (r : StoredComment) : (Action.store (.add r)).Adds w fun _ => True := by
  refine ends_store (fun _ hc => hc.elim) ⟨?_, _, rfl, trivial⟩
  exact (w.store.identities_add r).symm ▸ List.prefix_append _ _

theorem revise {r : StoredComment} {k : Identity} (hk : k ∈ w.store.identities)
    (hid : k.id = r.id) : (Action.store (.revise r)).Adds w fun revised => revised = true := by
  refine ends_store (fun _ hc => hc.elim) ⟨?_, _, rfl, ?_⟩
  · exact (w.store.identities_revise r).symm ▸ List.prefix_refl _
  · obtain ⟨x, hx, rfl⟩ := List.mem_map.1 hk
    exact List.any_eq_true.2 ⟨x, hx, beq_iff_eq.2 hid⟩

end Action.Adds

/-- Where no call to the store fails but the action ends with an error, it has asked questions only,
and all is as it was. -/
def Action.Rejects {α : Type} (m : Action α) (w : World) : Prop :=
  m.run.Ends Call.IsHost w fun r calls w' =>
    ∀ e, r = .error e → w' = w ∧ ∀ c ∈ calls, c.isQuestion

namespace Action.Rejects

variable {α β σ : Type} {m : Action α} {g : α → Action β} {w : World} {Q : α → Prop}

theorem of_adds (h : m.Adds w Q) : m.Rejects w := by
  apply h.mono
  rintro _ _ _ ⟨-, _, rfl, -⟩ _ ⟨⟩

theorem bind (hm : m.Observes Call.IsHost w Q) (hg : ∀ a, Q a → (g a).Rejects w) :
    (m >>= g).Rejects w := by
  refine ends_ask (fun asked hasked r calls w' h e he => ?_) hm (fun _ _ _ => ?_) hg
  · obtain ⟨hworld, hcalls⟩ := h e he
    exact ⟨hworld, List.forall_mem_append.2 ⟨hasked, hcalls⟩⟩
  · exact ⟨rfl, fun _ h => nomatch h⟩

theorem checksFirst (h : m.Rejects w) {faults : Faults σ}
    (hfaults : ∀ state c, (faults state (.store c)).1 = none) (state : σ) :
    m.ChecksFirst faults state w :=
  Program.ends_run (Faults.isHost_of_isSome hfaults) h state

end Action.Rejects

namespace Prepared.Ready

variable {w : World} {p : Prepared}

theorem save_adds (h : p.Ready w.store) : (p.sec.save p.comment).Adds w fun saved =>
    ∃ fields, saved.customData.toFields = .ok fields := by
  unfold Section.save
  rw [if_neg (not_not.2 h.own)]
  dsimp only
  split
  next id hid =>
    obtain ⟨k, hk, hkid⟩ := h.stored id hid
    have hrow : k.id = p.comment.packed.toStored.id := by
      rw [hkid, Comment.toStored, hid]
      rfl
    apply Action.Adds.bind (.revise hk hrow)
    rintro _ _ - rfl
    exact .bind (.tell _) fun _ _ _ _ => .pure h.readable
  next hid =>
    have hadded : Action.Adds (do
        let id ← Action.store (.add p.comment.packed.toStored)
        Action.tell (.created p.sec.key id p.comment.packed.replyTo
          p.comment.packed.toStored.modifier)
        return p.comment.packed.withId id) w fun saved =>
          ∃ fields, saved.customData.toFields = .ok fields := by
      apply Action.Adds.bind (.add _)
      intro id _ _ _
      exact .bind (.tell _) fun _ _ _ _ => .pure h.readable
    split
    next target htarget =>
      obtain ⟨k, hk, hkey, htop⟩ := h.attached hid target htarget
      refine Action.ends_bind_of (p.sec.checkTarget_finds hk hkey htop) ?_ ?_
      · rintro _ _ w' ⟨rfl, -⟩
        exact hadded
      · rintro e _ w' ⟨-, _, ⟨⟩⟩
    · exact hadded

theorem saved (h : p.Ready w.store) (people : Comment → Participants) :
    (p.save people).Adds w fun _ => True := by
  apply Action.Adds.bind h.save_adds
  rintro comment _ - ⟨fields, hread⟩
  exact .of_finds (p.sec.viewComment_finds hread p.cap (people comment))

end Prepared.Ready

/-- Every comment that is saved leaves those that wait ready to be saved. -/
theorem Prepared.saveAll_adds {w : World} {pending : List Prepared}
    (h : ∀ p ∈ pending, p.Ready w.store) (people : Comment → Participants) :
    Action.Adds (pending.mapM fun p => p.save people) w fun _ => True := by
  induction pending generalizing w with
  | nil => exact .pure trivial
  | cons p pending ih =>
    obtain ⟨hp, hpending⟩ := List.forall_mem_cons.1 h
    rw [List.mapM_cons]
    apply Action.Adds.bind (hp.saved people)
    intro shown w' hgrown _
    apply Action.Adds.bind (ih fun q hq => (hpending q hq).mono hgrown)
    intro rest _ _ _
    exact .pure trivial

theorem Section.validate_ok {sec : Section} {comment valid : Comment} {cap : Capability}
    (h : sec.validate comment cap = ([], valid)) : ∃ fields,
      comment.customData.toFields = .ok fields ∧
        valid = { comment with customData := .fields fields } := by
  unfold validate CustomData.asFields at h
  cases hread : comment.customData.toFields with
  | ok fields =>
    rw [hread] at h
    exact ⟨fields, rfl, (Prod.ext_iff.1 h).2.symm⟩
  | error e =>
    rw [hread] at h
    exact absurd (Prod.ext_iff.1 h).1 (Dictionary.insert_ne_nil _ _ _)

/-- A comment that has passed the checks is the one that was checked, with its custom data decoded
and changed by the component's last word. -/
theorem Prepared.check_inv {sec : Section} {cap : Capability} {comment : Comment}
    {id : Option CommentId} {p : Prepared} (h : check sec cap comment id = .ok p) :
    ∃ fields, comment.customData.toFields = .ok fields ∧
      sec.validate comment cap = ([], { comment with customData := .fields fields }) ∧
      p = ⟨sec, cap, sec.beforeSave { comment with customData := .fields fields } cap⟩ := by
  unfold check at h
  cases hvalid : sec.validate comment cap with
  | mk errors valid =>
    rw [hvalid] at h
    cases errors with
    | cons => cases h
    | nil =>
      obtain rfl := Except.ok.inj h
      obtain ⟨fields, hread, rfl⟩ := Section.validate_ok hvalid
      exact ⟨fields, hread, rfl, rfl⟩

theorem Prepared.check_ready {s : Store} {sec : Section} (hsec : sec.handler.OnlyRewords)
    {cap : Capability} {comment : Comment} {id : Option CommentId} {p : Prepared}
    (h : check sec cap comment id = .ok p) {json : String} (hdata : comment.customData = .text json)
    (hown : comment.key = sec.key)
    (hstored : ∀ id ∈ comment.id, ∃ k ∈ s.identities, k.id = id)
    (hattached : comment.id = none → ∀ id ∈ comment.replyTo, ∃ k,
      s.identities.find? (·.id == id) = some k ∧ k.key = sec.key ∧ k.replyTo = none) :
    p.Ready s := by
  obtain ⟨fields, hread, -, rfl⟩ := check_inv h
  obtain ⟨content, format, pseudonym, hkept⟩ :=
    (hsec.beforeSave sec.key { comment with customData := .fields fields } cap).kept
  rw [hdata] at hread
  rw [Section.beforeSave, hkept]
  exact ⟨hown, CustomData.fieldsOf_textOf hread, hstored, hattached⟩

theorem UsualCapability.replyTo_of_mayPost {c : UsualCapability} {signature : Signature}
    {x : StoredComment}
    (h : c.toCapability.mayPost signature ((some x).map .ofStored)) : x.replyTo = none := by
  have htarget : c.allowsTarget (some (.ofStored x)) = true := (Bool.and_eq_true_iff.1 h).2
  have htop := (Bool.and_eq_true_iff.1 htarget).2
  rw [Bool.not_eq_true', Comment.isReply, Option.isSome_eq_false_iff, Option.isNone_iff_eq_none]
    at htop
  exact htop

namespace Forum

variable {f : Forum} {w : World} {faulty : Call → Prop}

theorem preparePost_ready (hf : ∀ d ∈ f.areas, d.handler.OnlyRewords) (user : UserId)
    (req : PostRequest) :
    (f.preparePost user req).Observes faulty w fun p => p.Ready w.store := by
  refine (preparePost_observes hf user req).mono ?_
  rintro p ⟨sec, cap, x, -, hsec, hcap, hid, hx, hpost, hp⟩
  obtain ⟨usual, -, rfl⟩ := Section.capability_usual hsec.capability hcap
  refine Prepared.check_ready hsec hp rfl rfl (fun _ hid => nomatch hid) ?_
  intro _ id htarget
  obtain ⟨c, rfl, rfl⟩ := Option.map_eq_some_iff.1 (hid.trans htarget)
  rw [Store.find?_identities, (hx c rfl).1]
  exact ⟨c.identity, rfl, (hx c rfl).2, UsualCapability.replyTo_of_mayPost hpost⟩

theorem prepareEdit_ready (hf : ∀ d ∈ f.areas, d.handler.OnlyRewords) (user : UserId)
    (req : EditRequest) :
    (f.prepareEdit user req).Observes faulty w fun p => p.Ready w.store := by
  refine (prepareEdit_observes hf user req).mono ?_
  rintro p ⟨sec, cap, x, edited, -, hsec, hx, hown, hset, hp⟩
  obtain ⟨pseudonym, rfl⟩ := Comment.withPseudonym_kept hset
  refine Prepared.check_ready hsec hp rfl hown ?_ fun hnew => nomatch hnew
  rintro _ ⟨⟩
  exact ⟨x.identity, Store.mem_identities (Store.mem_of_comment? hx).1, rfl⟩

/-- Checks leave the world as it is, so that all of them are made where the first comment of the
batch is saved. -/
theorem batch_rejects {ρ : Type} {prepare : ρ → Action Prepared}
    (hready : ∀ req, (prepare req).Observes Call.IsHost w fun p => p.Ready w.store)
    (reqs : List ρ) (ids : List Prepared → List UserId)
    (people : List Person → Comment → Participants) :
    Action.Rejects (do
      let pending ← reqs.mapM prepare
      let found ← Action.store (.peopleByIds (ids pending))
      pending.mapM fun p => p.save (people found)) w := by
  apply Action.Rejects.bind (.mapM fun req _ => hready req)
  rintro pending ⟨-, hpending⟩
  have hready : ∀ p ∈ pending, p.Ready w.store := fun p hp =>
    have ⟨_, _, hp⟩ := hpending p hp
    hp
  apply Action.Rejects.of_adds (Q := fun _ => True)
  apply Action.Adds.bind (.of_finds (.question rfl))
  intro found w' hgrown _
  exact Prepared.saveAll_adds (fun p hp => (hready p hp).mono hgrown) _

theorem post_rejects (hf : ∀ d ∈ f.areas, d.handler.OnlyRewords) (user : Option UserId)
    (batch : List PostRequest) : (f.post user batch).Rejects w := by
  apply Action.Rejects.bind (.lift _)
  intro user _
  exact batch_rejects (preparePost_ready hf user) batch
    (fun _ => [user]) fun people _ => ⟨personOf people user, personOf people user⟩

theorem edit_rejects (hf : ∀ d ∈ f.areas, d.handler.OnlyRewords) (user : Option UserId)
    (batch : List EditRequest) : (f.edit user batch).Rejects w := by
  apply Action.Rejects.bind (.lift _)
  intro user _
  exact batch_rejects (prepareEdit_ready hf user) batch
    (fun pending => pending.flatMap fun p => [p.comment.author, user])
    fun people comment => ⟨personOf people comment.author, personOf people user⟩

/-- A batch is checked as a whole before the first of its comments is written. Where no call to the
store fails, every error therefore comes before that, also one that the component raises. -/
theorem checksFirst_post_edit {σ : Type} (faults : Faults σ)
    (hfaults : ∀ state c, (faults state (.store c)).1 = none)
    (hf : ∀ d ∈ f.areas, d.handler.OnlyRewords) (w : World) (user : Option UserId) (state : σ) :
    (∀ batch, (f.post user batch).ChecksFirst faults state w) ∧
      ∀ batch, (f.edit user batch).ChecksFirst faults state w :=
  ⟨fun batch => (post_rejects hf user batch).checksFirst hfaults state,
    fun batch => (edit_rejects hf user batch).checksFirst hfaults state⟩

/-- The wiki component, where it asks for contents and trims them before a comment is saved. -/
def strictWiki : Handler where
  item := Handler.wiki.item
  checkContent _ content _ _ :=
    if Text.isBlankText content then [("content", "required")] else []
  beforeSave _ comment _ := comment.withContent (Text.trim comment.content) comment.format

/-- A component answers no question but the first one. -/
def componentFailsLater : Faults Nat := fun asked c =>
  match c with
  | .host _ _ => (if asked = 0 then none else some "no answer", asked + 1)
  | .store _ => (none, asked)

theorem checksFirst_strictWiki :
    let posted := ((Forum.wiki strictWiki).post (some 4)
      [{ key := ⟨"wiki", "talk", 1, 1⟩, content := " Text", replyTo := some 2 },
        { key := ⟨"wiki", "talk", 1, 1⟩, content := " " }]).run.run Faults.never () twoThreads
    let edited := ((Forum.wiki strictWiki).edit (some 4)
      [{ key := ⟨"wiki", "talk", 1, 1⟩, id := 1, content := "New" },
        { key := ⟨"wiki", "talk", 1, 1⟩, id := 2, content := "New" }]).run.run
          componentFailsLater 0 twoThreads
    posted.1 = .error (.validation none [("content", "required")]) ∧ posted.2.2 = twoThreads ∧
      edited.1 = .error (.storage "no answer") ∧ edited.2.2 = twoThreads := by
  intro posted edited
  have hf : ∀ d ∈ (Forum.wiki strictWiki).areas, d.handler.OnlyRewords := by
    intro d hd
    rw [List.mem_singleton.1 hd]
    exact ⟨rfl, fun _ _ _ => .content _ _ .same⟩
  have hposted : posted.1 = .error (.validation none [("content", "required")]) := rfl
  have hedited : edited.1 = .error (.storage "no answer") := rfl
  have hposts := (checksFirst_post_edit Faults.never (fun _ _ => rfl) hf twoThreads (some 4) ()).1
  have hedits := (checksFirst_post_edit componentFailsLater (fun _ _ => rfl) hf twoThreads (some 4)
    0).2
  exact ⟨hposted, (hposts _ _ hposted).1, hedited, (hedits _ _ hedited).1⟩

end Forum

end Discussion
