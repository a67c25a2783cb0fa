import Discussion.Proofs.Run
import Discussion.Forum.Choice
import Discussion.Forum.Page
import Mathlib.Data.List.Forall2

namespace Discussion

/-- The call only looks at the store. -/
def StoreCall.isQuestion : StoreCall → Bool
  | .comment _ | .commentsByIds _ | .select .. | .countSelected _ | .peopleByIds _ | .upvoted ..
  | .choice .. | .choicesFor .. => true
  | _ => false

def Call.isQuestion : Call → Bool
  | .store call => call.isQuestion
  | .host .. => true

theorem World.answer_of_isQuestion {c : Call} (h : c.isQuestion) (w : World) :
    (w.answer c).2 = w := by
  cases c with
  | host handler call => rfl
  | store call =>
    cases call with
    | comment | commentsByIds | select | countSelected | peopleByIds | upvoted | choice
    | choicesFor => rfl
    | _ => cases h

/-- The program only asks questions, and whatever is answered its results satisfy a condition. -/
def Program.Reads {α : Type} : Program α → (α → Prop) → Prop
  | .done result, Q => Q result
  | .tell _ _, _ => False
  | .call request next, Q => request.isQuestion ∧ ∀ answer, (next answer).Reads Q

namespace Program.Reads

variable {α β : Type} {p : Program α} {f : α → Program β} {Q : α → Prop} {R : β → Prop}
variable {faulty : Call → Prop} {w : World}

theorem mono {R : α → Prop} (h : p.Reads Q) (hQ : ∀ a, Q a → R a) : p.Reads R := by
  induction p with
  | done a => exact hQ a h
  | tell event next ih => exact h
  | call c next ih => exact ⟨h.1, fun answer => ih answer (h.2 answer)⟩

theorem bind (hp : p.Reads Q) (hf : ∀ a, Q a → (f a).Reads R) : (p >>= f).Reads R := by
  induction p with
  | done a => exact hf a hp
  | tell event next ih => exact hp
  | call c next ih => exact ⟨hp.1, fun answer => ih answer (hp.2 answer)⟩

theorem ends (h : p.Reads Q) :
    p.Ends faulty w fun a calls w' => Q a ∧ w' = w ∧ ∀ c ∈ calls, c.isQuestion := by
  induction p generalizing w with
  | done a => exact ⟨h, rfl, fun _ hc => nomatch hc⟩
  | tell event next ih => exact h.elim
  | call c next ih =>
    refine ⟨fun failure _ => ih _ (h.2 _), ?_⟩
    rw [World.answer_of_isQuestion h.1]
    apply (ih _ (h.2 _)).mono
    intro a calls w' hend
    exact ⟨hend.1, hend.2.1, List.forall_mem_cons.2 ⟨h.1, hend.2.2⟩⟩

theorem keeps {I : World → Prop} (h : p.Reads Q) : p.Keeps I := by
  intro w hw
  apply h.ends.mono
  intro a calls w' hend
  rw [hend.2.1]
  exact hw

end Program.Reads

/-- The program only asks questions. It ends where one of them fails, with a result that is related to
the failure. -/
def Program.Asks {α : Type} (ends : String → α → Prop) : Program α → Prop
  | .done _ => True
  | .tell _ _ => False
  | .call request next =>
    request.isQuestion ∧ (∀ failure, ∃ result, next (.error failure) = .done result ∧
      ends failure result) ∧ ∀ answer, (next (.ok answer)).Asks ends

namespace Program.Asks

variable {α β : Type} {p : Program α} {f : α → Program β} {ends : String → α → Prop}
variable {ends' : String → β → Prop}

theorem bind (hp : p.Asks ends) (hf : ∀ a, (f a).Asks ends')
    (hfail : ∀ failure a, ends failure a → ∃ b, f a = .done b ∧ ends' failure b) :
    (p >>= f).Asks ends' := by
  induction p with
  | done a => exact hf a
  | tell event next ih => exact hp
  | call c next ih =>
    refine ⟨hp.1, fun failure => ?_, fun answer => ih _ (hp.2.2 answer)⟩
    obtain ⟨a, ha, hends⟩ := hp.2.1 failure
    obtain ⟨b, hb, hends'⟩ := hfail failure a hends
    refine ⟨b, ?_, hends'⟩
    change (next (.error failure)).bind f = _
    rw [ha]
    exact hb

theorem reads (h : p.Asks ends) : p.Reads fun _ => True := by
  induction p with
  | done a => trivial
  | tell event next ih => exact h
  | call c next ih =>
    refine ⟨h.1, fun answer => ?_⟩
    cases answer with
    | ok answer => exact ih _ (h.2.2 answer)
    | error failure =>
      obtain ⟨a, ha, -⟩ := h.2.1 failure
      rw [ha]
      trivial

end Program.Asks

/-- The action only asks questions, and its results, but not its errors, satisfy a condition. -/
def Action.Reads {α : Type} (m : Action α) (Q : α → Prop) : Prop :=
  m.run.Reads fun r => ∀ a, r = .ok a → Q a

namespace Action.Reads

variable {α β : Type} {m : Action α} {g : α → Action β} {Q : α → Prop} {R : β → Prop}

theorem mono {R : α → Prop} (h : m.Reads Q) (hQ : ∀ a, Q a → R a) : m.Reads R :=
  Program.Reads.mono h fun _ hr a ha => hQ a (hr a ha)

theorem pure {a : α} (h : Q a) : Action.Reads (Pure.pure a) Q := by
  rintro _ ⟨⟩
  exact h

theorem throw (e : Error) : Action.Reads (MonadExcept.throw e : Action α) Q := nofun

theorem lift (r : Except Error α) : Action.Reads (liftM r : Action α) fun a => r = .ok a :=
  fun _ h => h

theorem lift_any (r : Except Error α) : Action.Reads (liftM r : Action α) fun _ => True :=
  fun _ _ => trivial

theorem bind (hm : m.Reads Q) (hg : ∀ a, Q a → (g a).Reads R) : (m >>= g).Reads R := by
  apply Program.Reads.bind hm
  intro r hr
  cases r with
  | ok a => exact hg a (hr a rfl)
  | error e => exact nofun

theorem call {c : Call} (h : c.isQuestion) : (Action.call c).Reads fun _ => True :=
  ⟨h, fun _ _ _ => trivial⟩

theorem store {c : StoreCall} (h : c.isQuestion) : (Action.store c).Reads fun _ => True :=
  call h

theorem host (h : Handler) (c : HostCall) : (Action.host h c).Reads fun _ => True :=
  call rfl

theorem mapM {f : α → Action β} {R : α → β → Prop} (hf : ∀ a, (f a).Reads (R a)) (l : List α) :
    Action.Reads (l.mapM f) (List.Forall₂ R l) := by
  induction l with
  | nil => exact pure List.Forall₂.nil
  | cons a l ih =>
    rw [List.mapM_cons]
    exact bind (hf a) fun b hb => bind ih fun bs hbs => pure (List.Forall₂.cons hb hbs)

theorem keeps {I : World → Prop} (h : m.Reads Q) : m.Keeps I := Program.Reads.keeps h

end Action.Reads

/-- The action only asks questions, and the failure of one of them is its error. -/
def Action.Asks {α : Type} (m : Action α) : Prop :=
  m.run.Asks fun failure r => r = .error (.storage failure)

namespace Action.Asks

variable {α β : Type} {m : Action α} {g : α → Action β}

theorem pure (a : α) : (Pure.pure a : Action α).Asks := trivial

theorem throw (e : Error) : (MonadExcept.throw e : Action α).Asks := trivial

theorem lift (r : Except Error α) : (liftM r : Action α).Asks := trivial

theorem call {c : Call} (h : c.isQuestion) : (Action.call c).Asks :=
  ⟨h, fun _ => ⟨_, rfl, rfl⟩, fun _ => trivial⟩

theorem store {c : StoreCall} (h : c.isQuestion) : (Action.store c).Asks :=
  call h

theorem host (h : Handler) (c : HostCall) : (Action.host h c).Asks :=
  call rfl

theorem bind (hm : m.Asks) (hg : ∀ a, (g a).Asks) : (m >>= g).Asks := by
  apply Program.Asks.bind hm
  · intro r
    cases r with
    | ok a => exact hg a
    | error e => trivial
  · rintro failure _ rfl
    exact ⟨_, rfl, rfl⟩

theorem mapM {f : α → Action β} (hf : ∀ a, (f a).Asks) (l : List α) :
    Action.Asks (l.mapM f) := by
  induction l with
  | nil => exact pure []
  | cons a l ih =>
    rw [List.mapM_cons]
    exact bind (hf a) fun _ => bind ih fun _ => pure _

theorem reads (h : m.Asks) : m.Reads fun _ => True :=
  Program.Reads.mono (Program.Asks.reads h) fun _ _ _ _ => trivial

end Action.Asks

/-- The action asks questions only, and what it finds in the world satisfies a condition, whichever
of the calls that may fail do so. -/
def Action.Observes {α : Type} (m : Action α) (faulty : Call → Prop) (w : World) (P : α → Prop) :
    Prop :=
  m.run.Ends faulty w fun r calls w' =>
    (∀ a, r = .ok a → P a) ∧ w' = w ∧ ∀ c ∈ calls, c.isQuestion

theorem Action.Reads.observes {α : Type} {m : Action α} {Q : α → Prop} {faulty : Call → Prop}
    {w : World} (h : m.Reads Q) : m.Observes faulty w Q :=
  Program.Reads.ends h

/-- It makes no difference to the condition what was asked before. -/
def Action.IgnoresAsked {β : Type} (Q : Except Error β → List Call → World → Prop) : Prop :=
  ∀ asked, (∀ c ∈ asked, c.isQuestion) → ∀ r calls w, Q r calls w → Q r (asked ++ calls) w

/-- An action that first asks questions ends where they fail, or goes on in the same world. -/
theorem Action.ends_ask {α β : Type} {m : Action α} {g : α → Action β} {P : α → Prop}
    {Q : Except Error β → List Call → World → Prop} {faulty : Call → Prop} {w : World}
    (hQ : IgnoresAsked Q) (hm : m.Observes faulty w P)
    (herror : ∀ e, Q (.error e) [] w) (hg : ∀ a, P a → (g a).run.Ends faulty w Q) :
    (m >>= g).run.Ends faulty w Q := by
  refine ends_bind_of hm ?_ ?_
  · rintro a asked w' ⟨ha, rfl, hasked⟩
    exact (hg a (ha a rfl)).mono fun r calls w'' h => hQ asked hasked r calls w'' h
  · rintro e asked w' ⟨-, rfl, hasked⟩
    have h := hQ asked hasked _ _ _ (herror e)
    rwa [List.append_nil] at h

namespace Action.Observes

variable {α β : Type} {m : Action α} {g : α → Action β} {faulty : Call → Prop} {w : World}
variable {P : α → Prop} {R : β → Prop}

theorem mono {P' : α → Prop} (h : m.Observes faulty w P) (hP : ∀ a, P a → P' a) :
    m.Observes faulty w P' :=
  Program.Ends.mono h fun _ _ _ h => ⟨fun a ha => hP a (h.1 a ha), h.2⟩

theorem pure {a : α} (h : P a) : (Pure.pure a : Action α).Observes faulty w P :=
  (Reads.pure h).observes

theorem throw (e : Error) : (MonadExcept.throw e : Action α).Observes faulty w P :=
  (Reads.throw e).observes

theorem lift (r : Except Error α) : (liftM r : Action α).Observes faulty w fun a => r = .ok a :=
  (Reads.lift r).observes

theorem bind (hm : m.Observes faulty w P) (hg : ∀ a, P a → (g a).Observes faulty w R) :
    (m >>= g).Observes faulty w R := by
  refine ends_ask (fun asked hasked r calls w' h => ?_) hm (fun _ => ?_) hg
  · exact ⟨h.1, h.2.1, List.forall_mem_append.2 ⟨hasked, h.2.2⟩⟩
  · exact ⟨fun _ h => (nomatch h), rfl, fun _ h => nomatch h⟩

theorem mapM {f : α → Action β} {R : α → β → Prop} {l : List α}
    (hf : ∀ a ∈ l, (f a).Observes faulty w (R a)) : (l.mapM f).Observes faulty w fun bs =>
      (∀ a ∈ l, ∃ b, R a b) ∧ ∀ b ∈ bs, ∃ a ∈ l, R a b := by
  induction l with
  | nil => exact pure ⟨fun _ ha => (nomatch ha), fun _ hb => nomatch hb⟩
  | cons a l ih =>
    obtain ⟨ha, hl⟩ := List.forall_mem_cons.1 hf
    rw [List.mapM_cons]
    refine bind ha fun b hb => bind (ih hl) fun bs hbs => pure ?_
    refine ⟨List.forall_mem_cons.2 ⟨⟨b, hb⟩, hbs.1⟩, List.forall_mem_cons.2 ⟨?_, ?_⟩⟩
    · exact ⟨a, List.mem_cons_self, hb⟩
    · intro c hc
      obtain ⟨d, hd, hr⟩ := hbs.2 c hc
      exact ⟨d, List.mem_cons_of_mem a hd, hr⟩

theorem question {c : StoreCall} (h : c.isQuestion) :
    (Action.store c).Observes faulty w fun a => a = (w.store.answer c).1 := by
  refine Action.ends_store (fun failure _ => ⟨?_, rfl, ?_⟩) ⟨?_, ?_, ?_⟩
  · intro a ha
    cases ha
  · exact fun _ hc => nomatch hc
  · intro a ha
    exact (Except.ok.inj ha).symm
  · exact World.answer_of_isQuestion (c := .store c) h w
  · intro d hd
    rw [List.mem_singleton.1 hd]
    exact h

end Action.Observes

theorem Store.mem_of_comment? {s : Store} {id : CommentId} {t : StoredComment}
    (h : s.comment? id = some t) : t ∈ s.comments ∧ t.id = id := by
  unfold comment? at h
  have hid := List.find?_some h
  exact ⟨List.mem_of_find?_eq_some h, beq_iff_eq.1 hid⟩

theorem Area.sectionOf_asks (a : Area) (item : ItemId) : (a.sectionOf item).Asks :=
  .bind (.host _ _) fun _ => .pure _

theorem Area.sectionOf_reads (a : Area) (item : ItemId) :
    (a.sectionOf item).Reads fun s => s.area = a ∧ s.key = a.sectionKey item := by
  apply Action.Reads.bind (Action.Reads.host _ _)
  intro host _
  exact Action.Reads.pure ⟨rfl, rfl⟩

theorem Forum.area_key {f : Forum} {component name : String} {context : ContextId} {a : Area}
    (h : f.area component name context = .ok a) (item : ItemId) :
    a.sectionKey item = ⟨component, name, context, item⟩ := by
  unfold Forum.area at h
  split at h
  · cases h
    rfl
  · cases h

theorem Forum.area_handler {f : Forum} {P : Handler → Prop} (h : ∀ d ∈ f.areas, P d.handler)
    {component name : String} {context : ContextId} {a : Area}
    (ha : f.area component name context = .ok a) : P a.handler := by
  unfold Forum.area declared? at ha
  split at ha
  next d hd =>
    obtain rfl := Except.ok.inj ha
    exact h d (List.mem_of_find?_eq_some hd)
  · cases ha

theorem Forum.sectionOf_handler {f : Forum} {P : Handler → Prop} (h : ∀ d ∈ f.areas, P d.handler)
    (key : SectionKey) : (f.sectionOf key).Reads fun s => s.key = key ∧ P s.handler := by
  apply Action.Reads.bind (Action.Reads.lift _)
  intro a ha
  apply (a.sectionOf_reads key.item).mono
  intro s hs
  rw [Section.handler, hs.1, hs.2, Forum.area_key ha]
  exact ⟨rfl, Forum.area_handler h ha⟩

theorem Forum.sectionOf_asks (f : Forum) (key : SectionKey) : (f.sectionOf key).Asks :=
  .bind (.lift _) fun a => a.sectionOf_asks key.item

theorem Forum.sectionOf_reads (f : Forum) (key : SectionKey) :
    (f.sectionOf key).Reads fun s => s.key = key :=
  (sectionOf_handler (P := fun _ => True) (fun _ _ => trivial) key).mono fun _ hs => hs.1

/-- The section has the component and the options that are declared for its area. -/
def Forum.Declares (f : Forum) (sec : Section) : Prop :=
  ∃ d, f.declared? sec.key.component sec.key.area = some d ∧
    sec.options = d.options ∧ sec.handler = d.handler

theorem Forum.Declares.handler_eq {f : Forum} {sec other : Section} (h : f.Declares sec)
    (hother : f.Declares other) (hkey : sec.key = other.key) : sec.handler = other.handler := by
  obtain ⟨d, hd, -, hhandler⟩ := h
  obtain ⟨e, he, -, hhandler'⟩ := hother
  rw [hkey, he] at hd
  rw [hhandler, hhandler', Option.some.inj hd]

theorem Forum.sectionOf_declared (f : Forum) (key : SectionKey) :
    (f.sectionOf key).Reads fun sec => sec.key = key ∧ f.Declares sec := by
  apply Action.Reads.bind (Action.Reads.lift _)
  intro a ha
  apply (a.sectionOf_reads key.item).mono
  rintro sec ⟨harea, hkey⟩
  rw [Declares, hkey, area_key ha, Section.options, Section.handler, harea]
  refine ⟨rfl, ?_⟩
  unfold area at ha
  split at ha
  next d hd =>
    obtain rfl := Except.ok.inj ha
    exact ⟨d, hd, rfl, rfl⟩
  · cases ha

theorem Settings.editingTime_eq_ok {s : Settings} {window : Duration}
    (h : s.editingTime = .ok window) : window.nanos = max s.maxEditingSeconds 0 * 1000000000 := by
  unfold editingTime at h
  dsimp only at h
  split at h
  next window' hwindow =>
    obtain rfl := Except.ok.inj h
    unfold Duration.ofSeconds? at hwindow
    split at hwindow
    · rw [← Option.some.inj hwindow]
    · cases hwindow
  · cases h

theorem Section.capability_eq_ok {s : Section}
    (h : s.handler.capability = fun _ c => c.toCapability) {site : Site} {user : Option UserId}
    {cap : Capability} (hcap : s.capability site user = .ok cap) :
    ∃ window, site.settings.editingTime = .ok window ∧
      cap = (UsualCapability.ofPermissions site.permissions s.key.context user s.options window
        site.now).toCapability := by
  unfold capability at hcap
  cases hwindow : site.settings.editingTime with
  | error e =>
    rw [hwindow] at hcap
    cases hcap
  | ok window =>
    rw [hwindow, h] at hcap
    exact ⟨window, rfl, (Except.ok.inj hcap).symm⟩

theorem Section.capability_usual {s : Section}
    (h : s.handler.capability = fun _ c => c.toCapability) {site : Site} {user : Option UserId}
    {cap : Capability} (hcap : s.capability site user = .ok cap) :
    ∃ usual : UsualCapability, usual.user = user ∧ cap = usual.toCapability := by
  obtain ⟨window, -, rfl⟩ := capability_eq_ok h hcap
  exact ⟨_, rfl, rfl⟩

namespace Section

variable (s : Section) {faulty : Call → Prop} {w : World}

theorem comment?_reads (id : CommentId) :
    (s.comment? id).Reads fun found => ∀ c ∈ found, c.key = s.key := by
  refine Action.Reads.bind (Action.Reads.store rfl) fun record _ => Action.Reads.pure ?_
  intro c hc
  obtain ⟨r, hr, rfl⟩ := Option.map_eq_some_iff.1 hc
  exact beq_iff_eq.1 (Option.filter_eq_some_iff.1 hr).2

theorem comment_reads (id : CommentId) : (s.comment id).Reads fun c => c.key = s.key := by
  refine Action.Reads.bind (s.comment?_reads id) fun found hfound => ?_
  cases found with
  | some comment => exact Action.Reads.pure (hfound comment rfl)
  | none => exact Action.Reads.throw _

theorem comment_asks (id : CommentId) : (s.comment id).Asks := by
  refine Action.Asks.bind (.bind (.store rfl) fun _ => .pure _) fun found => ?_
  cases found with
  | some comment => exact .pure _
  | none => exact .throw _

theorem target_asks (target : Option CommentId) : Action.Asks (target.mapM s.comment) := by
  cases target with
  | none => exact .pure none
  | some id => exact .bind (s.comment_asks id) fun _ => .pure _

theorem checkTarget_reads (target : CommentId) : (s.checkTarget target).Reads fun _ => True := by
  refine Action.Reads.bind (s.comment_reads target) fun c _ => ?_
  split
  · exact Action.Reads.throw _
  · exact Action.Reads.pure trivial

theorem comment?_observes (id : CommentId) : (s.comment? id).Observes faulty w fun found =>
    ∀ c ∈ found, ∃ t, w.store.comment? id = some t ∧ t.key = s.key ∧ c = .ofStored t := by
  refine Action.Observes.bind (.question (c := .comment id) rfl) fun record hrecord => .pure ?_
  intro c hc
  obtain ⟨t, ht, rfl⟩ := Option.map_eq_some_iff.1 hc
  obtain ⟨ht, hkey⟩ := Option.filter_eq_some_iff.1 ht
  rw [hrecord] at ht
  exact ⟨t, ht, beq_iff_eq.1 hkey, rfl⟩

theorem comment_observes (id : CommentId) : (s.comment id).Observes faulty w fun c =>
    ∃ t, w.store.comment? id = some t ∧ t.key = s.key ∧ c = .ofStored t := by
  refine Action.Observes.bind (s.comment?_observes id) fun found hstored => ?_
  cases found with
  | none => exact .throw _
  | some comment => exact .pure (hstored comment rfl)

theorem target_observes (target : Option CommentId) :
    Action.Observes (target.mapM s.comment) faulty w fun found =>
      ∃ x : Option StoredComment, x.map (·.id) = target ∧
        (∀ c ∈ x, w.store.comment? c.id = some c ∧ c.key = s.key) ∧ found = x.map .ofStored := by
  cases target with
  | none => exact .pure ⟨none, rfl, fun _ hc => (nomatch hc), rfl⟩
  | some id =>
    refine Action.Observes.bind (s.comment_observes id) fun c hc => .pure ?_
    obtain ⟨t, ht, hkey, rfl⟩ := hc
    obtain rfl := (Store.mem_of_comment? ht).2
    refine ⟨some t, rfl, ?_, rfl⟩
    rintro _ ⟨⟩
    exact ⟨ht, hkey⟩

theorem checkTarget_observes (target : CommentId) :
    (s.checkTarget target).Observes faulty w fun _ =>
      ∃ t ∈ w.store.comments, t.id = target ∧ t.key = s.key ∧ t.replyTo = none := by
  refine Action.Observes.bind (s.comment_observes target) fun c hc => ?_
  obtain ⟨t, ht, hkey, rfl⟩ := hc
  split
  · exact .throw _
  next htop =>
    obtain ⟨hmem, hid⟩ := Store.mem_of_comment? ht
    exact .pure ⟨t, hmem, hid, hkey, Option.not_isSome_iff_eq_none.1 htop⟩

theorem status_asks (user : UserId) (comment : Option Comment) : (s.status user comment).Asks := by
  have hasked (comment : Option Comment) : (s.chosenStatus user comment).Asks := .store rfl
  have hsection : (s.status user none).Asks := by
    apply Action.Asks.bind (hasked none)
    intro status
    cases status <;> exact .pure _
  unfold status
  split
  · apply Action.Asks.bind (hasked comment)
    intro status
    cases status with
    | some status => exact .pure _
    | none => exact hsection
  · exact hsection

theorem status_reads (user : UserId) (comment : Option Comment) :
    (s.status user comment).Reads fun _ => True :=
  (s.status_asks user comment).reads

theorem hearing_asks (viewer : Option UserId) (comment : Option Comment) :
    (s.hearing viewer comment).Asks := by
  cases viewer with
  | none => exact .pure _
  | some user => exact .bind (s.status_asks user comment) fun _ => .pure _

theorem hasUpvoted_asks (viewer : Option UserId) (id : CommentId) :
    (hasUpvoted viewer id).Asks := by
  cases viewer with
  | none => exact .pure _
  | some user => exact .store rfl

theorem viewComment_asks (comment : Comment) (cap : Capability) (people : Participants) :
    (s.viewComment comment cap people).Asks :=
  .bind (.lift _) fun _ => .bind (hasUpvoted_asks _ _) fun _ => .bind (s.hearing_asks _ _) fun _ =>
    .pure _

theorem viewComment_reads (comment : Comment) (cap : Capability) (people : Participants) :
    (s.viewComment comment cap people).Reads fun _ => True :=
  (s.viewComment_asks comment cap people).reads

theorem viewComment_reads_id (comment : Comment) (cap : Capability) (people : Participants) :
    (s.viewComment comment cap people).Reads fun v => v.id = comment.id.getD 0 := by
  apply Action.Reads.bind (Action.Reads.lift_any _)
  intro data _
  apply Action.Reads.bind (hasUpvoted_asks _ _).reads
  intro _ _
  exact Action.Reads.bind (s.hearing_asks _ _).reads fun _ _ => Action.Reads.pure rfl

theorem view_asks (cap : Capability) : (s.view cap).Asks :=
  .bind (s.hearing_asks cap.user none) fun _ => .pure _

end Section

namespace Forum

variable (f : Forum) (user : UserId)

theorem comment?_asks (id : CommentId) : (f.comment? id).Asks := by
  apply Action.Asks.bind (.store rfl)
  intro record
  cases record with
  | none => exact .pure _
  | some record => exact .bind (f.sectionOf_asks _) fun _ => .pure _

theorem prepareRemoval_reads (record : StoredComment) : (f.prepareRemoval user record).Reads
    fun t => t.1.key = record.key ∧ t.2 = .ofStored record := by
  apply Action.Reads.bind (f.sectionOf_reads _)
  intro sec hsec
  apply Action.Reads.bind (Action.Reads.lift_any _)
  intro cap _
  dsimp only
  split
  · exact Action.Reads.throw _
  · exact Action.Reads.pure ⟨hsec, rfl⟩

theorem preparePost_asks (req : PostRequest) : (f.preparePost user req).Asks := by
  refine .bind (f.sectionOf_asks _) fun sec => .bind (.lift _) fun cap => ?_
  refine .bind (sec.target_asks _) fun target => ?_
  dsimp only
  split
  · exact .throw _
  · exact .lift _

theorem prepareEdit_reads (req : EditRequest) : (f.prepareEdit user req).Reads fun _ => True := by
  apply Action.Reads.bind (f.sectionOf_reads _)
  intro sec _
  apply Action.Reads.bind (sec.comment_reads _)
  intro comment _
  apply Action.Reads.bind (Action.Reads.lift_any _)
  intro cap _
  dsimp only
  split
  · exact Action.Reads.throw _
  split
  · exact Action.Reads.throw _
  split
  · exact Action.Reads.throw _
  · exact Action.Reads.lift_any _

variable {f} {faulty : Call → Prop} {w : World} {P : Handler → Prop}

/-- A new comment is checked in the section that is named, where its target, if it has one, is
stored. -/
theorem preparePost_observes (hf : ∀ d ∈ f.areas, P d.handler) (user : UserId)
    (req : PostRequest) : (f.preparePost user req).Observes faulty w fun p =>
      ∃ (sec : Section) (cap : Capability) (x : Option StoredComment),
        sec.key = req.key ∧ P sec.handler ∧ sec.capability f.site (some user) = .ok cap ∧
        x.map (·.id) = req.replyTo ∧ (∀ c ∈ x, w.store.comment? c.id = some c ∧ c.key = sec.key) ∧
        cap.mayPost (.ofPseudonym (normalPseudonym (some req.pseudonym))) (x.map .ofStored) ∧
        Prepared.check sec cap (.fresh sec.key ⟨req.content, req.format, user,
          normalPseudonym (some req.pseudonym), req.replyTo, req.customData⟩ f.site.now) none =
            .ok p := by
  refine Action.Observes.bind (sectionOf_handler hf req.key).observes fun sec ⟨hkey, hsec⟩ => ?_
  refine Action.Observes.bind (.lift _) fun cap hcap => ?_
  refine Action.Observes.bind (sec.target_observes req.replyTo) fun target htarget => ?_
  obtain ⟨x, hid, hx, rfl⟩ := htarget
  dsimp only
  split
  · exact .throw _
  next hpost =>
    rw [Bool.not_eq_true, Bool.not_eq_false'] at hpost
    exact (Action.Observes.lift _).mono fun p hp =>
      ⟨sec, cap, x, hkey, hsec, hcap, hid, hx, hpost, hp⟩

theorem prepareEdit_observes (hf : ∀ d ∈ f.areas, P d.handler) (user : UserId)
    (req : EditRequest) : (f.prepareEdit user req).Observes faulty w fun p =>
      ∃ (sec : Section) (cap : Capability) (x : StoredComment) (edited : Comment),
        sec.key = req.key ∧ P sec.handler ∧ w.store.comment? req.id = some x ∧ x.key = sec.key ∧
        ((Comment.ofStored x).withContent req.content req.format).withPseudonym req.pseudonym =
          .ok edited ∧
        Prepared.check sec cap ((edited.withCustomDataText req.customData).changedBy user
          f.site.now) (some req.id) = .ok p := by
  refine Action.Observes.bind (sectionOf_handler hf req.key).observes fun sec ⟨hkey, hsec⟩ => ?_
  refine Action.Observes.bind (sec.comment_observes req.id) fun comment hcomment => ?_
  obtain ⟨x, hx, hown, rfl⟩ := hcomment
  refine Action.Observes.bind (.lift _) fun cap _ => ?_
  dsimp only
  split
  · exact .throw _
  · split
    · exact .throw _
    · split
      · exact .throw _
      next edited hset =>
        exact (Action.Observes.lift _).mono fun p hp =>
          ⟨sec, cap, x, edited, hkey, hsec, hx, hown, hset, hp⟩

end Forum

end Discussion
