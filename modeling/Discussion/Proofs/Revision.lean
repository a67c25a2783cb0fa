import Discussion.Proofs.Forest
import Discussion.Proofs.Options

namespace Discussion

/-- What an edit of a comment changes: the words, and who changed them when. -/
structure Revision where
  wording : Wording
  modifier : UserId
  timeModified : Instant
deriving DecidableEq, Repr

def StoredComment.revision (c : StoredComment) : Revision :=
  ⟨c.wording, c.modifier, c.timeModified⟩

/-- What may become of a store. Comments may go and new ones may come, but those that stay are the
same. They have been revised at most where their identity lets them. -/
structure Store.LeadsTo (revisable : Identity → Prop) (s t : Store) : Prop where
  issued : s.lastId ≤ t.lastId
  kept : ∀ y ∈ t.comments, y.id ≤ s.lastId → ∃ x ∈ s.comments, x.identity = y.identity ∧
    (x.revision = y.revision ∨ revisable x.identity)

namespace Store.LeadsTo

variable {revisable : Identity → Prop} {s t u : Store}

theorem refl (s : Store) : s.LeadsTo revisable s where
  issued := Int.le_refl _
  kept := fun y hy _ => ⟨y, hy, rfl, .inl rfl⟩

theorem trans (h : s.LeadsTo revisable t) (h' : t.LeadsTo revisable u) :
    s.LeadsTo revisable u where
  issued := Int.le_trans h.issued h'.issued
  kept := by
    intro z hz hissued
    obtain ⟨y, hy, hyz, hrevised⟩ := h'.kept z hz (Int.le_trans hissued h.issued)
    have hid : y.id = z.id := congrArg Identity.id hyz
    obtain ⟨x, hx, hxy, hrevised'⟩ := h.kept y hy (hid ▸ hissued)
    refine ⟨x, hx, hxy.trans hyz, ?_⟩
    rcases hrevised' with hsame' | hrevisable
    · rcases hrevised with hsame | hrevisable
      · exact .inl (hsame'.trans hsame)
      · exact .inr (hxy ▸ hrevisable)
    · exact .inr hrevisable

theorem mono {revisable' : Identity → Prop} (h : s.LeadsTo revisable t)
    (himp : ∀ k, revisable k → revisable' k) : s.LeadsTo revisable' t where
  issued := h.issued
  kept := by
    intro y hy hissued
    obtain ⟨x, hx, hxy, hrevised⟩ := h.kept y hy hissued
    exact ⟨x, hx, hxy, hrevised.imp_right (himp x.identity)⟩

theorem of_id (h : s.LeadsTo revisable t) (hn : s.Numbered) {x y : StoredComment}
    (hx : x ∈ s.comments) (hy : y ∈ t.comments) (hid : y.id = x.id) :
    y.identity = x.identity ∧ (y.revision = x.revision ∨ revisable x.identity) := by
  obtain ⟨x', hx', hident, hrevised⟩ := h.kept y hy (hid ▸ hn.keyed.issued x hx)
  have hxid : x'.id = x.id := (congrArg Identity.id hident).trans hid
  obtain rfl := hn.eq_of_id hx' hx hxid
  exact ⟨hident.symm, hrevised.imp_left Eq.symm⟩

theorem answer {c : StoreCall}
    (hc : ∀ r, c = .revise r → ∀ x ∈ s.comments, x.id = r.id → revisable x.identity) :
    s.LeadsTo revisable (s.answer c).2 where
  issued := by
    have := s.lastId_answer c
    lia
  kept := by
    intro y hy hissued
    rcases mem_comments_answer hy with ⟨x, hx, hsame⟩ | ⟨r, rfl, hsame⟩ | ⟨r, rfl, x, hx, hid, rfl⟩
    · refine ⟨x, hx, (congrArg StoredComment.identity hsame).symm, .inl ?_⟩
      exact (congrArg StoredComment.revision hsame).symm
    · have hnew : y.id = s.lastId + 1 := congrArg StoredComment.id hsame
      lia
    · exact ⟨x, hx, rfl, .inr (hc r rfl x hx hid)⟩

end Store.LeadsTo

/-- A comment is stored again only where its identity lets it be revised. All else is free. -/
def Policy.revising (revisable : Identity → Prop) : Policy where
  trusts _ := True
  adds _ := True
  revises x _ := revisable x.identity
  votes _ _ := True
  chooses _ := True

theorem Policy.revising_guards (revisable : Identity → Prop) (s : Store) :
    (revising revisable).Guards (fun _ => True) (s.LeadsTo revisable) where
  trusts := fun _ _ => trivial
  answer := by
    intro t p c next h _ hp _ hrest
    refine h.trans (.answer ?_)
    rintro r rfl x hx hid
    obtain ⟨y, hy, hyid, hrevisable⟩ := hp.allows hrest
    rw [(hp.known y hy).only _ (Store.mem_identities hx) (hid.trans hyid.symm)]
    exact hrevisable

theorem Policy.leadsTo_run {revisable : Identity → Prop} {f : Forum} {op : Operation}
    (h : (op.action f).Obeys (revising revisable) [] fun _ _ => True) {σ : Type}
    (faults : Faults σ) (state : σ) {w : World} (hn : w.store.Numbered) :
    w.store.LeadsTo revisable ((op.action f).run.run faults state w).2.2.store := by
  obtain ⟨p, hruns⟩ : ∃ p, Traffic.Runs (fun _ _ => False) (fun _ => True)
      ⟨w, [⟨[], (op.action f).run⟩]⟩ ⟨((op.action f).run.run faults state w).2.2, [p]⟩ :=
    Traffic.runs_run faults [] (op.action f).run [] state w
  refine (hruns.orderly (revising_guards revisable w.store) (fun _ _ h => h.elim) ⟨hn, ?_⟩
    (.refl _)).2
  intro q hq
  rw [List.mem_singleton.1 hq]
  exact ⟨Program.Obeys.imp h fun _ _ _ _ => trivial, fun _ hx => nomatch hx⟩

/-- The components are plain, authors have some seconds to edit their comments, and nobody may edit
those of others in the context. -/
structure Forum.ClosesEdits (f : Forum) (context : ContextId) (seconds : Nat) : Prop where
  plain : ∀ d ∈ f.areas, d.handler.IsPlain
  window : f.site.settings.maxEditingSeconds = seconds
  strict : ∀ user, f.site.permissions Permissions.editAny context user = false

/-- The operation is an edit by the author of the comment, at a time when the window is open. -/
def Operation.EditsInTime (f : Forum) (op : Operation) (seconds : Nat) (k : Identity) : Prop :=
  (∃ batch, op = .edit (some k.author) batch) ∧
    (f.site.now.since k.timeCreated).nanos < seconds * 1000000000

namespace Forum

variable {f : Forum} {context : ContextId} {seconds : Nat}

/-- Who edits a comment there is its author, and has found the window open. -/
theorem Edits.inTime (hf : f.ClosesEdits context seconds) {user : UserId} {req : EditRequest}
    {x : StoredComment} {p : Prepared} (h : f.Edits user req x p) (hx : x.key.context = context) :
    x.author = user ∧ (f.site.now.since x.timeCreated).nanos < seconds * 1000000000 := by
  obtain ⟨window, hwindow, hcap⟩ :=
    Section.capability_eq_ok (h.serves.handler hf.plain).capability h.serves.capability
  have hmay := h.allowed
  rw [hcap] at hmay
  have hstrict : f.site.permissions Permissions.editAny p.sec.key.context (some user) = false := by
    rw [← h.own, hx]
    exact hf.strict (some user)
  have hfresh := (Bool.and_eq_true_iff.1 hmay).2
  dsimp only [UsualCapability.ofPermissions] at hfresh
  rw [hstrict, Bool.or_false] at hfresh
  obtain ⟨hauthor, hage⟩ := Bool.and_eq_true_iff.1 hfresh
  have hage : (f.site.now.since x.timeCreated).nanos < window.nanos := of_decide_eq_true hage
  rw [Settings.editingTime_eq_ok hwindow, hf.window] at hage
  exact ⟨beq_iff_eq.1 hauthor, by lia⟩

theorem ClosesEdits.obeys (hf : f.ClosesEdits context seconds) (op : Operation) :
    (op.action f).Obeys
      (.revising fun k => k.key.context = context → op.EditsInTime f seconds k) []
      fun _ _ => True := by
  have hkeeps : ∀ d ∈ f.areas, d.handler.KeepsId := fun d hd => (hf.plain d hd).asIs.keepsId
  cases op with
  | edit user batch =>
    refine .map (edit_obeys hkeeps ?_)
    intro u req x p huser _ _ hp hx
    obtain ⟨rfl, htime⟩ := hp.inTime hf hx
    exact ⟨⟨batch, congrArg (Operation.edit · batch) huser⟩, htime⟩
  | _ =>
    exact operation_obeys hkeeps
      { adds := fun _ _ _ => trivial
        revises := fun hreq => nomatch hreq
        votes := fun _ _ _ _ => trivial
        chooses := fun _ _ => trivial }

end Forum

/-- A world at some time. -/
structure Moment where
  now : Instant
  world : World

/-- Time passes, or an operation is run to its end. Its calls may fail. -/
inductive Moment.Step (allowed : Forum → Operation → Prop) : Moment → Moment → Prop
  | wait (m : Moment) (now : Instant) : 0 ≤ (now.since m.now).nanos → Step allowed m { m with now }
  | operate (m : Moment) {σ : Type} (f : Forum) (op : Operation) (faults : Faults σ) (state : σ) :
    allowed f op → f.site.now = m.now →
      Step allowed m { m with world := ((op.action f).run.run faults state m.world).2.2 }

/-- Any number of steps, while the clock never goes back. -/
def Moment.Runs (allowed : Forum → Operation → Prop) : Moment → Moment → Prop :=
  Relation.ReflTransGen (Step allowed)

theorem Instant.since_add (t s r : Instant) :
    (t.since s).nanos + (s.since r).nanos = (t.since r).nanos := by
  dsimp only [since]
  lia

namespace Moment

variable {allowed : Forum → Operation → Prop} {start : Instant} {m m' : Moment}
variable {context : ContextId} {seconds : Nat}

theorem Runs.reached (h : Runs allowed ⟨start, {}⟩ m) : Reached allowed m.world := by
  induction h with
  | refl => exact .start
  | tail _ hstep ih =>
    cases hstep with
    | wait => exact ih
    | operate f op faults state hop => exact .operate f op faults state ih hop

theorem Runs.leadsTo (hm : Runs (fun f _ => f.ClosesEdits context seconds) ⟨start, {}⟩ m)
    (h : Runs (fun f _ => f.ClosesEdits context seconds) m m') :
    0 ≤ (m'.now.since m.now).nanos ∧ m.world.store.LeadsTo (fun k => k.key.context = context →
      (m.now.since k.timeCreated).nanos < seconds * 1000000000) m'.world.store := by
  induction h with
  | refl =>
    refine ⟨?_, .refl _⟩
    have := m.now.since_add m.now m.now
    lia
  | @tail m₁ m₂ hruns hstep ih =>
    obtain ⟨hclock, hleads⟩ := ih
    cases hstep with
    | wait now hnow =>
      refine ⟨?_, hleads⟩
      have := now.since_add m₁.now m.now
      lia
    | operate f op faults state hf hnow =>
      refine ⟨hclock, hleads.trans ?_⟩
      have hn := (Store.forest_of_reached (Runs.reached (hm.trans hruns))).toNumbered
      refine (Policy.leadsTo_run (hf.obeys op) faults state hn).mono fun k htime hk => ?_
      have hopen := (htime hk).2
      have := m₁.now.since_add m.now k.timeCreated
      rw [hnow] at hopen
      lia

/-- What an edit changes of a comment changes only in an edit by the author of the comment, as long
as the window is open. From then on it stays the same while the comment is stored, whatever else
happens. -/
theorem revised_in_time (hm : Runs (fun f _ => f.ClosesEdits context seconds) ⟨start, {}⟩ m)
    {x : StoredComment} (hx : x ∈ m.world.store.comments) (hcontext : x.key.context = context) :
    (∀ {σ : Type} (f : Forum) (op : Operation) (faults : Faults σ) (state : σ),
        f.ClosesEdits context seconds → f.site.now = m.now →
          ∀ y ∈ ((op.action f).run.run faults state m.world).2.2.store.comments, y.id = x.id →
            y.identity = x.identity ∧
              (y.revision = x.revision ∨ op.EditsInTime f seconds x.identity)) ∧
      (seconds * 1000000000 ≤ (m.now.since x.timeCreated).nanos →
        ∀ m', Runs (fun f _ => f.ClosesEdits context seconds) m m' →
          ∀ y ∈ m'.world.store.comments, y.id = x.id →
            y.identity = x.identity ∧ y.revision = x.revision) := by
  have hn := (Store.forest_of_reached (Runs.reached hm)).toNumbered
  constructor
  · intro σ f op faults state hf hnow y hy hid
    have hleads := Policy.leadsTo_run (hf.obeys op) faults state hn
    obtain ⟨hident, hrevised⟩ := hleads.of_id hn hx hy hid
    exact ⟨hident, hrevised.imp_right fun hrevisable => hrevisable hcontext⟩
  · intro hclosed m' hruns y hy hid
    obtain ⟨hident, hrevised⟩ := (Runs.leadsTo hm hruns).2.of_id hn hx hy hid
    refine ⟨hident, hrevised.resolve_right fun hopen => ?_⟩
    exact Int.not_lt.2 hclosed (hopen hcontext)

end Moment

/-- A wiki where authors have ten seconds to edit their comments, and nobody may edit those of
others. -/
def Forum.hastyWiki (now : Instant) : Forum where
  site :=
    { permissions := fun permission _ _ => permission != Permissions.editAny
      settings := { maxEditingSeconds := 10 }
      now }
  areas := (Forum.wiki .wiki).areas

/-- Edits the first comment, which is the user's. -/
def Operation.reword (content : String) : Operation :=
  .edit (some 4) [{ id := 1, key := ⟨"wiki", "talk", 1, 1⟩, content }]

theorem Forum.hastyWiki_closes (now : Instant) : (hastyWiki now).ClosesEdits 1 10 where
  plain := by
    intro d hd
    rw [List.mem_singleton.1 hd]
    exact ⟨rfl, rfl⟩
  window := rfl
  strict := fun _ => bne_self_eq_false Permissions.editAny

namespace Moment

/-- The comment has been posted a little after the start of a second, which is what is stored. -/
def posted : Moment where
  now := ⟨0, 5⟩
  world := World.after {} (.hastyWiki ⟨0, 5⟩) (.postToWiki 4 [none])

def reworded (m : Moment) (content : String) (now : Instant) : Moment where
  now
  world := m.world.after (.hastyWiki now) (.reword content)

theorem step_reworded (m : Moment) (content : String) (now : Instant) :
    Step (fun f _ => f.ClosesEdits 1 10) { m with now } (m.reworded content now) :=
  .operate { m with now } (.hastyWiki now) (.reword content) Faults.never ()
    (Forum.hastyWiki_closes now) rfl

theorem runs_reworded (m : Moment) (content : String) (now : Instant)
    (hnow : 0 ≤ (now.since m.now).nanos) :
    Runs (fun f _ => f.ClosesEdits 1 10) m (m.reworded content now) :=
  .tail (.single (.wait m now hnow)) (step_reworded m content now)

theorem revised_in_time_hastyWiki :
    let first := posted
    let second := first.reworded "Better" ⟨9, 999999999⟩
    let third := second.reworded "Best" ⟨10, 0⟩
    first.world.store.comments.map (·.content) = ["Text"] ∧
      second.world.store.comments.map (·.content) = ["Better"] ∧
      (∀ x ∈ first.world.store.comments, ∀ y ∈ second.world.store.comments, y.id = x.id →
        y.revision = x.revision ∨
          (Operation.reword "Better").EditsInTime (.hastyWiki ⟨9, 999999999⟩) 10 x.identity) ∧
      ∀ x ∈ second.world.store.comments, ∀ y ∈ third.world.store.comments, y.id = x.id →
        y.revision = x.revision := by
  intro first second third
  have hfirst : Runs (fun f _ => f.ClosesEdits 1 10) ⟨⟨0, 5⟩, {}⟩ first :=
    .single (.operate ⟨⟨0, 5⟩, {}⟩ (.hastyWiki ⟨0, 5⟩) (.postToWiki 4 [none]) Faults.never ()
      (Forum.hastyWiki_closes _) rfl)
  have hsecond := hfirst.trans (runs_reworded first "Better" ⟨9, 999999999⟩ (by decide))
  have hopen : ∀ x ∈ first.world.store.comments, x.key.context = 1 := by decide
  have hclosed : ∀ x ∈ second.world.store.comments, x.key.context = 1 ∧
      (10 : Nat) * 1000000000 ≤ ((⟨10, 0⟩ : Instant).since x.timeCreated).nanos := by decide
  refine ⟨by decide, by decide, fun x hx y hy hid => ?_, fun x hx y hy hid => ?_⟩
  · have hwait := hfirst.tail (.wait first ⟨9, 999999999⟩ (by decide))
    exact ((revised_in_time hwait hx (hopen x hx)).1 _ _ Faults.never ()
      (Forum.hastyWiki_closes _) rfl y hy hid).2
  · have hwait := hsecond.tail (.wait second ⟨10, 0⟩ (by decide))
    refine ((revised_in_time hwait hx (hclosed x hx).1).2 (hclosed x hx).2 third ?_ y hy hid).2
    exact .single (step_reworded second "Best" ⟨10, 0⟩)

end Moment

end Discussion
