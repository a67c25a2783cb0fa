import Discussion.Proofs.Totals

namespace Discussion

variable {α β : Type} {w : World} {C : Call → Prop}

/-- The people that a call asks for. -/
def Call.asked? : Call → Option (List UserId)
  | .store (.peopleByIds ids) => some ids
  | _ => none

def Call.AsksNobody (c : Call) : Prop := c.asked? = none

theorem Program.Ends.and {faulty : Call → Prop} {p : Program α} {Q R : α → List Call → World → Prop}
    (hQ : p.Ends faulty w Q) (hR : p.Ends faulty w R) :
    p.Ends faulty w fun a calls w' => Q a calls w' ∧ R a calls w' := by
  induction p generalizing w Q R with
  | done a => exact ⟨hQ, hR⟩
  | tell event next ih => exact ih hQ hR
  | call c next ih =>
    exact ⟨fun failure hf => ih _ (hQ.1 failure hf) (hR.1 failure hf), ih _ hQ.2 hR.2⟩

/-- The action asks only questions of a kind. -/
def Action.AsksOnly (C : Call → Prop) (m : Action α) : Prop :=
  ∀ w, m.run.Ends (fun _ => True) w fun _ calls w' => w' = w ∧ ∀ c ∈ calls, C c

namespace Action.AsksOnly

variable {m : Action α} {g : α → Action β}

theorem pure (a : α) : (Pure.pure a : Action α).AsksOnly C :=
  fun _ => ⟨rfl, fun _ hc => nomatch hc⟩

theorem throw (e : Error) : (MonadExcept.throw e : Action α).AsksOnly C :=
  fun _ => ⟨rfl, fun _ hc => nomatch hc⟩

theorem lift (r : Except Error α) : (liftM r : Action α).AsksOnly C :=
  fun _ => ⟨rfl, fun _ hc => nomatch hc⟩

theorem call {c : Call} (h : c.isQuestion) (hC : C c) : (Action.call c).AsksOnly C := by
  refine fun w => ends_call (fun _ _ => ⟨rfl, fun _ hc => nomatch hc⟩) ⟨?_, ?_⟩
  · exact World.answer_of_isQuestion h w
  · exact List.forall_mem_singleton.2 hC

theorem store {c : StoreCall} (h : c.isQuestion) (hC : C (.store c)) : (Action.store c).AsksOnly C :=
  call h hC

theorem host {h : Handler} {c : HostCall} (hC : C (.host h c)) : (Action.host h c).AsksOnly C :=
  call rfl hC

theorem of_asks (h : m.Asks) : m.AsksOnly fun _ => True :=
  fun _ => (Program.Asks.ends h).mono fun _ _ _ hend => ⟨hend.2.1, fun _ _ => trivial⟩

theorem bind (hm : m.AsksOnly C) (hg : ∀ a, (g a).AsksOnly C) : (m >>= g).AsksOnly C := by
  refine fun w => ends_bind_of (hm w) ?_ fun _ _ _ h => h
  rintro a calls w' ⟨rfl, hcalls⟩
  apply (hg a w').mono
  rintro r calls' w'' ⟨rfl, hcalls'⟩
  exact ⟨rfl, List.forall_mem_append.2 ⟨hcalls, hcalls'⟩⟩

end Action.AsksOnly

theorem ListingM.ends_bind {faulty : Call → Prop} {m : ListingM α} {g : α → ListingM β} {l : Listing}
    {Q : Except Error β × Listing → List Call → World → Prop} :
    ((m >>= g).run.run l).Ends faulty w Q ↔ (m.run.run l).Ends faulty w fun r calls w' =>
      match r with
      | (.ok a, l') => ((g a).run.run l').Ends faulty w' fun r' calls' w'' => Q r' (calls ++ calls') w''
      | (.error e, l') => Q (.error e, l') calls w' := by
  change Program.Ends faulty (m.run.run l >>= fun r => (ExceptT.bindCont g r.1).run r.2) w Q ↔ _
  rw [Program.ends_bind]
  refine Iff.of_eq (congrArg ((m.run.run l).Ends faulty w) ?_)
  funext r calls w'
  obtain ⟨r, l'⟩ := r
  cases r with
  | ok a => rfl
  | error e =>
    change Q (.error e, l') (calls ++ []) w' = Q (.error e, l') calls w'
    rw [List.append_nil]

/-- Whichever calls fail, the computation makes only calls of a kind and leaves the world as it is.
The listing satisfies one condition where the computation fails, another one with its result. -/
def ListingM.Leads (C : Call → Prop) (w : World) (I : Listing → Prop) (m : ListingM α) (l : Listing)
    (Q : α → Listing → Prop) : Prop :=
  (m.run.run l).Ends (fun _ => True) w fun r calls w' =>
    w' = w ∧ (∀ c ∈ calls, C c) ∧ match r with
      | (.ok a, l') => Q a l'
      | (.error _, l') => I l'

namespace ListingM.Leads

variable {I J : Listing → Prop} {l : Listing} {m : ListingM α} {g : α → ListingM β}
variable {Q Q' : α → Listing → Prop} {R : β → Listing → Prop}

theorem imp (h : m.Leads C w I l Q) (hI : ∀ l', I l' → J l') (hQ : ∀ a l', Q a l' → Q' a l') :
    m.Leads C w J l Q' := by
  apply Program.Ends.mono h
  rintro ⟨r, l'⟩ calls w' ⟨hw, hcalls, hr⟩
  refine ⟨hw, hcalls, ?_⟩
  cases r with
  | ok a => exact hQ a l' hr
  | error e => exact hI l' hr

theorem pure {a : α} (h : Q a l) : (Pure.pure a : ListingM α).Leads C w I l Q :=
  ⟨rfl, fun _ hc => (nomatch hc), h⟩

theorem bind (hm : m.Leads C w I l Q) (hg : ∀ a l', Q a l' → (g a).Leads C w I l' R) :
    (m >>= g).Leads C w I l R := by
  apply ends_bind.2
  apply Program.Ends.mono hm
  rintro ⟨r, l'⟩ calls w' ⟨rfl, hcalls, hr⟩
  cases r with
  | ok a =>
    apply Program.Ends.mono (hg a l' hr)
    rintro r calls' w'' ⟨rfl, hcalls', hr⟩
    exact ⟨rfl, List.forall_mem_append.2 ⟨hcalls, hcalls'⟩, hr⟩
  | error e => exact ⟨rfl, hcalls, hr⟩

theorem get_bind {g : Listing → ListingM β} (h : (g l).Leads C w I l R) :
    ((MonadState.get : ListingM Listing) >>= g).Leads C w I l R := h

theorem modify {f : Listing → Listing} {R : Unit → Listing → Prop} (h : R () (f l)) :
    (modifyGet fun l => ((), f l) : ListingM Unit).Leads C w I l R :=
  ⟨rfl, fun _ hc => (nomatch hc), h⟩

theorem lift (r : Except Error α) (hI : I l) :
    (liftM r : ListingM α).Leads C w I l fun a l' => r = .ok a ∧ l' = l := by
  refine ⟨rfl, fun _ hc => (nomatch hc), ?_⟩
  cases r with
  | ok a => exact ⟨rfl, rfl⟩
  | error e => exact hI

theorem action {m : Action α} (hm : m.AsksOnly C) (hI : I l) :
    (liftM m : ListingM α).Leads C w I l fun _ l' => l' = l := by
  change Program.Ends _ (m.run >>= fun r => .done (r, l)) w _
  rw [Program.ends_bind]
  apply (hm w).mono
  rintro r calls w' ⟨rfl, hcalls⟩
  refine ⟨rfl, (List.append_nil calls).symm ▸ hcalls, ?_⟩
  cases r with
  | ok a => rfl
  | error e => exact hI

theorem and_settles (h : m.Leads C w I l Q) (hasks : m.Asks)
    (hm : m.Settles w.store (fun _ => True) l Q') :
    m.Leads C w I l fun a l' => Q a l' ∧ Q' a l' := by
  apply (Program.Ends.and h (Program.Asks.ends (hasks l))).mono
  rintro ⟨r, l'⟩ calls w' ⟨⟨hw, hcalls, hr⟩, hlook, -⟩
  refine ⟨hw, hcalls, ?_⟩
  cases r with
  | error e => exact hr
  | ok a =>
    rcases hlook with hlook | ⟨failure, hfailure⟩
    · unfold Settles at hm
      rw [look, ← hlook] at hm
      exact ⟨hr, hm⟩
    · cases hfailure

theorem of_look (h : m.Leads C w I l Q) (hasks : m.Asks) {a : α} {l' : Listing}
    (hlook : m.look w.store l = (.ok a, l')) : Q a l' := by
  have hrun := Program.Ends.run_any h Faults.never ()
  rw [Program.Reads.run_never (hasks.reads l), show (m.run.run l).look w.store = _ from hlook] at hrun
  exact hrun.2.2

end ListingM.Leads

namespace Listing

open ListingM

/-- A listing has looked at the section whose key has the text. -/
def HasMet (l : Listing) (text : String) : Prop :=
  (Dictionary.find? l.sections text).isSome

/-- A listing has looked at sections of rows on its page only. -/
def Confines (start : Listing) (s : Store) (l : Listing) : Prop :=
  ∀ text, l.HasMet text → ∃ rows, start.place.rows s start.params start.viewer = .ok rows ∧
    ∃ r ∈ rows, r.key.unique = text

/-- A listing of an area has looked at the sections of all the rows on its page. -/
def Exhausts (start : Listing) (s : Store) (l : Listing) : Prop :=
  ∀ a, start.place = .ofArea a → ∀ rows,
    start.place.rows s start.params start.viewer = .ok rows → ∀ r ∈ rows, l.HasMet r.key.unique

/-- What a listing has found out since its start, also where a failure has kept it from more. -/
structure Remembers (start : Listing) (site : Site) (s : Store) (l : Listing) : Prop
    extends start.Surveyed site s l where
  confined : start.Confines s l
  complete : l.results.isSome → start.Exhausts s l

/-- A listing goes on from one point to another on the way to its comments. -/
structure Endures (start : Listing) (site : Site) (s : Store) (l l' : Listing) : Prop where
  remembers : start.Remembers site s l'
  results : l'.results = l.results
  met : ∀ text, l.HasMet text → l'.HasMet text

/-- A listing goes on from one point to another without fetching its page, unless it is about one
comment. -/
structure Retains (start : Listing) (site : Site) (s : Store) (l l' : Listing) : Prop where
  remembers : start.Remembers site s l'
  results : l'.results = l.results ∨ start.params.comment.isSome ∧ l'.results.isSome

variable {start l : Listing} {site : Site} {s : Store}

theorem Endures.trans {l' l'' : Listing} (h : start.Endures site s l l')
    (h' : start.Endures site s l' l'') : start.Endures site s l l'' where
  remembers := h'.remembers
  results := h'.results.trans h.results
  met := fun text hmet => h'.met text (h.met text hmet)

theorem Endures.retains {l' : Listing} (h : start.Endures site s l l') :
    start.Retains site s l l' :=
  ⟨h.remembers, .inl h.results⟩

theorem remembers_start (place : Place) (params : ListingQuery) (viewer : Viewer) :
    Remembers { place, params, viewer } site s { place, params, viewer } where
  toSurveyed := surveyed_start place params viewer
  confined := fun _ h => nomatch h
  complete := fun h => nomatch h

theorem findReach_leads (a : Area) : (findReach a).Leads Call.AsksNobody w (· = l) l fun _ l' =>
    ∃ reach, l' = { l with reach } := by
  apply Leads.get_bind
  split
  · exact .pure ⟨l.reach, rfl⟩
  · extract_lets user rest
    have hrest (children : List ContextId) : (rest children).Leads Call.AsksNobody w (· = l) l
        fun _ l' => ∃ reach, l' = { l with reach } := by
      refine Leads.bind (.action (.host rfl) rfl) ?_
      rintro visibility _ rfl
      exact .bind (.modify ⟨_, rfl⟩) fun _ _ hl' => .pure hl'
    split
    · refine Leads.bind (.action (.host rfl) rfl) ?_
      rintro children _ rfl
      exact hrest children
    · exact hrest []

theorem selection_leads (includeReplies : Bool) :
    (selection includeReplies).Leads Call.AsksNobody w (· = l) l fun _ l' =>
      ∃ reach, l' = { l with reach } := by
  apply Leads.get_bind
  dsimp only
  split
  · exact .bind (.pure ⟨l.reach, rfl⟩) fun _ _ hl' => .pure hl'
  · apply Leads.bind (findReach_leads _)
    intro reach l' hl'
    exact .bind (.pure hl') fun _ _ hl' => .pure hl'

theorem hasMet_insert {text other : String} {known : Option Section} :
    HasMet { l with sections := Dictionary.insert l.sections text known } other ↔
      text = other ∨ l.HasMet other := by
  unfold HasMet
  rw [Dictionary.find?_insert]
  split
  next hsame => exact iff_of_true rfl (.inl hsame)
  next hother => exact (or_iff_right hother).symm

/-- A row is accepted by what is known of its section, or by looking at it. -/
theorem accept_leads (site : Site) (a : Area) (r : StoredComment) :
    (accept site a r).Leads Call.AsksNobody w (· = l) l fun _ l' =>
      l' = l ∧ l.HasMet r.key.unique ∨
        ∃ known, l' = { l with sections := Dictionary.insert l.sections r.key.unique known } := by
  apply Leads.get_bind
  split
  next known hknown => exact .pure (.inl ⟨rfl, Option.isSome_of_eq_some hknown⟩)
  next =>
    refine Leads.bind (.action (.bind (.host rfl) fun _ => .pure _) rfl) ?_
    rintro sec _ rfl
    refine Leads.bind (.lift _ rfl) ?_
    rintro allowed _ ⟨-, rfl⟩
    exact .bind (.modify (.inr ⟨_, rfl⟩)) fun _ _ hl' => .pure hl'

theorem Remembers.addSection (hl : start.Remembers site s l) {rows : List StoredComment}
    (hrows : start.place.rows s start.params start.viewer = .ok rows) {r : StoredComment}
    (hr : r ∈ rows) {known : Option Section}
    (hadded : start.Surveyed site s
      { l with sections := Dictionary.insert l.sections r.key.unique known }) :
    start.Endures site s l { l with
      sections := Dictionary.insert l.sections r.key.unique known } where
  remembers := {
    toSurveyed := hadded
    confined := fun text h => (hasMet_insert.1 h).elim
      (fun hsame => ⟨rows, hrows, r, hr, hsame⟩) (hl.confined text)
    complete := fun hresults a ha rows' hrows' r' hr' =>
      hasMet_insert.2 (.inr (hl.complete hresults a ha rows' hrows' r' hr')) }
  results := rfl
  met := fun _ hmet => hasMet_insert.2 (.inr hmet)

section Steps

variable (hl : start.Remembers site w.store l)

include hl

theorem Remembers.refl : start.Endures site w.store l l :=
  ⟨hl, rfl, fun _ hmet => hmet⟩

theorem selection_endures (includeReplies : Bool) :
    (selection includeReplies).Leads Call.AsksNobody w (start.Endures site w.store l) l fun _ l' =>
      start.Endures site w.store l l' := by
  refine ((selection_leads includeReplies).and_settles (selection_asks _)
    (selection_settles hl.toSurveyed .trivial _)).imp ?_ ?_
  · rintro _ rfl
    exact hl.refl
  · rintro f _ ⟨⟨reach, rfl⟩, -, hadvances⟩
    exact ⟨⟨hadvances.surveyed, hl.confined, hl.complete⟩, rfl, fun _ hmet => hmet⟩

theorem fetchRows_endures :
    fetchRows.Leads Call.AsksNobody w (start.Endures site w.store l) l fun _ l' =>
      start.Endures site w.store l l' := by
  apply Leads.get_bind
  split
  · apply Leads.bind (selection_endures hl _)
    intro f l' hl'
    refine Leads.bind (.action (.store rfl rfl) hl') ?_
    rintro record _ rfl
    exact .pure hl'
  · apply Leads.bind (selection_endures hl _)
    intro f l' hl'
    refine Leads.imp (.action (.store rfl rfl) hl') (fun _ h => h) ?_
    rintro rows _ rfl
    exact hl'

section Accept

variable {a : Area} (ha : start.place = .ofArea a) {rows : List StoredComment}
variable (hrows : start.place.rows w.store start.params start.viewer = .ok rows)

include ha hrows

theorem accept_endures {r : StoredComment} (hr : r ∈ rows) :
    (accept site a r).Leads Call.AsksNobody w (start.Endures site w.store l) l fun _ l' =>
      start.Endures site w.store l l' ∧ l'.HasMet r.key.unique := by
  refine ((accept_leads site a r).and_settles (accept_asks site a r) (accept_settles hl.toSurveyed ha
    (fun _ _ => trivial) (Place.rows_inv hrows hr).2 fun _ _ => trivial)).imp ?_ ?_
  · rintro _ rfl
    exact hl.refl
  · rintro seen _ ⟨⟨rfl, hmet⟩ | ⟨known, rfl⟩, -, -, hadvances⟩
    · exact ⟨hl.refl, hmet⟩
    · exact ⟨hl.addSection hrows hr hadvances.surveyed, hasMet_insert.2 (.inl rfl)⟩

theorem acceptAll_endures {part : List StoredComment} (hpart : ∀ r ∈ part, r ∈ rows) :
    (acceptAll site a part).Leads Call.AsksNobody w (start.Endures site w.store l) l fun _ l' =>
      start.Endures site w.store l l' ∧ ∀ r ∈ part, l'.HasMet r.key.unique := by
  induction part generalizing l with
  | nil => exact .pure ⟨hl.refl, fun _ hr => nomatch hr⟩
  | cons r rest ih =>
    obtain ⟨hr, hrest⟩ := List.forall_mem_cons.1 hpart
    apply Leads.bind (accept_endures hl ha hrows hr)
    rintro seen l' ⟨hl', hmet⟩
    have hmore : (acceptAll site a rest).Leads Call.AsksNobody w (start.Endures site w.store l) l'
        fun _ l'' => start.Endures site w.store l l'' ∧
          ∀ r' ∈ r :: rest, l''.HasMet r'.key.unique := by
      refine (ih hl'.remembers hrest).imp (fun l'' hl'' => hl'.trans hl'') ?_
      rintro cs l'' ⟨hl'', hmets⟩
      exact ⟨hl'.trans hl'', List.forall_mem_cons.2 ⟨hl''.met _ hmet, hmets⟩⟩
    split
    · exact .bind hmore fun _ _ h => .pure h
    · exact hmore

end Accept

theorem fetch_endures :
    (fetch site).Leads Call.AsksNobody w (start.Endures site w.store l) l fun _ l' =>
      start.Endures site w.store l l' ∧ start.Exhausts w.store l' := by
  apply Leads.get_bind
  refine Leads.bind (.lift _ hl.refl) ?_
  rintro visible l ⟨hvisible, rfl⟩
  cases visible with
  | false =>
    refine .pure ⟨hl.refl, fun a ha => ?_⟩
    rw [hl.isVisible_eq, isVisible, ha] at hvisible
    cases hvisible
  | true =>
    rw [Bool.not_true, if_neg Bool.false_ne_true]
    refine Leads.bind ((fetchRows_endures hl).and_settles fetchRows_asks
      (fetchRows_settles hl.toSurveyed .trivial)) ?_
    rintro rows l' ⟨hl', hrows, -⟩
    rw [hl.place]
    split
    next sec hplace =>
      refine .pure ⟨hl', fun a ha => ?_⟩
      cases hplace.symm.trans ha
    next a ha =>
      refine (acceptAll_endures hl'.remembers ha hrows fun _ hr => hr).imp
        (fun _ hl'' => hl'.trans hl'') ?_
      rintro cs l'' ⟨hl'', hmet⟩
      refine ⟨hl'.trans hl'', fun _ _ rows' hrows' => ?_⟩
      obtain rfl := Except.ok.inj (hrows.symm.trans hrows')
      exact hmet

theorem all_endures :
    (all site).Leads Call.AsksNobody w (start.Endures site w.store l) l fun cs l' =>
      start.Remembers site w.store l' ∧ l'.results = some cs := by
  suffices hstep : (all site).Leads Call.AsksNobody w (start.Endures site w.store l) l fun _ l' =>
      start.Confines w.store l' ∧ start.Exhausts w.store l' by
    refine (hstep.and_settles (all_asks site) (all_settles hl.toSurveyed .trivial)).imp
      (fun _ h => h) ?_
    rintro cs l' ⟨⟨hconfined, hcomplete⟩, -, hresults, hadvances⟩
    exact ⟨⟨hadvances.surveyed, hconfined, fun _ => hcomplete⟩, hresults⟩
  apply Leads.get_bind
  split
  next cs hcs => exact .pure ⟨hl.confined, hl.complete (Option.isSome_of_eq_some hcs)⟩
  next =>
    apply Leads.bind (fetch_endures hl)
    rintro cs l' ⟨hl', hmet⟩
    exact .bind (.modify ⟨hl'.remembers.confined, hmet⟩) fun _ _ h => .pure h

theorem Remembers.retains : start.Retains site w.store l l :=
  ⟨hl, .inl rfl⟩

/-- Only a listing about one comment counts by fetching its page. -/
theorem all_retains (hone : l.params.comment.isSome) :
    (all site).Leads Call.AsksNobody w (start.Endures site w.store l) l fun _ l' =>
      start.Retains site w.store l l' := by
  refine (all_endures hl).imp (fun _ h => h) ?_
  rintro cs l' ⟨hl', hresults⟩
  exact ⟨hl', .inr ⟨hl.params ▸ hone, Option.isSome_of_eq_some hresults⟩⟩

theorem count_retains :
    (count site).Leads Call.AsksNobody w (start.Endures site w.store l) l fun n l' =>
      start.Retains site w.store l l' ∧ ∀ cs, l.results = some cs → n = cs.length := by
  apply Leads.get_bind
  split
  next cs hcs =>
    refine .pure ⟨hl.retains, fun cs' hcs' => ?_⟩
    rw [Option.some.inj (hcs.symm.trans hcs')]
  next hnone =>
    have hnew (n : Nat) : ∀ cs, l.results = some cs → n = cs.length := fun cs hcs =>
      (hnone cs hcs).elim
    split
    next hone => exact .bind (all_retains hl hone) fun cs _ hl' => .pure ⟨hl', hnew _⟩
    next =>
      refine Leads.bind (.lift _ hl.refl) ?_
      rintro visible l ⟨-, rfl⟩
      split
      · exact .pure ⟨hl.retains, hnew _⟩
      · apply Leads.bind (selection_endures hl _)
        intro f l' hl'
        refine Leads.bind (.action (.store rfl rfl) hl') ?_
        rintro total _ rfl
        exact .pure ⟨hl'.retains, hnew _⟩

theorem countAllPages_retains (includeReplies : Bool) :
    (countAllPages site includeReplies).Leads Call.AsksNobody w (start.Endures site w.store l) l
      fun _ l' => start.Retains site w.store l l' := by
  suffices hstep : (countAllPages site includeReplies).Leads Call.AsksNobody w
      (start.Endures site w.store l) l fun n l' =>
        ∃ k, start.Retains site w.store l k ∧ (l' = k ∨ l' = k.setTotal includeReplies n) by
    refine (hstep.and_settles (countAllPages_asks site includeReplies)
      (countAllPages_settles hl.toSurveyed .trivial includeReplies)).imp (fun _ h => h) ?_
    rintro n l' ⟨⟨k, hk, rfl | rfl⟩, -, hadvances⟩
    · exact hk
    · have hresults : (k.setTotal includeReplies n).results = k.results := by
        cases includeReplies <;> rfl
      have hsections : (k.setTotal includeReplies n).sections = k.sections := by
        cases includeReplies <;> rfl
      refine ⟨⟨hadvances.surveyed, ?_, ?_⟩, hresults ▸ hk.results⟩
      · unfold Confines HasMet
        rw [hsections]
        exact hk.remembers.confined
      · unfold Exhausts HasMet
        rw [hsections, hresults]
        exact hk.remembers.complete
  apply Leads.get_bind
  split
  · exact .pure ⟨l, hl.retains, .inl rfl⟩
  · extract_lets rest
    have hrest (n : Nat) {k : Listing} (hk : start.Retains site w.store l k) :
        (rest n).Leads Call.AsksNobody w (start.Endures site w.store l) k fun n l' =>
          ∃ k, start.Retains site w.store l k ∧ (l' = k ∨ l' = k.setTotal includeReplies n) := by
      refine .bind (Q := fun _ l' => l' = k.setTotal includeReplies n) (.modify rfl) ?_
      rintro _ _ rfl
      exact .pure ⟨k, hk, .inr rfl⟩
    refine Leads.bind (.lift _ hl.refl) ?_
    rintro visible l ⟨-, rfl⟩
    split
    next hone =>
      rw [map_eq_pure_bind, bind_assoc]
      apply Leads.bind (all_retains hl hone)
      intro cs l' hl'
      exact .bind (.pure hl') fun _ _ h => hrest _ h
    next =>
      split
      · apply Leads.bind (selection_endures hl _)
        intro f l' hl'
        refine Leads.bind (.action (.store rfl rfl) hl') ?_
        rintro total _ rfl
        exact hrest total hl'.retains
      · exact hrest 0 hl.retains

theorem person_endures (id : UserId) :
    (person id).Leads (fun _ => True) w (start.Endures site w.store l) l fun p l' =>
      p = w.store.person? id ∧ start.Endures site w.store l l' := by
  suffices hstep : (person id).Leads (fun _ => True) w (start.Endures site w.store l) l fun _ l' =>
      ∃ people, l' = { l with people } by
    refine (hstep.and_settles (person_asks id) (person_settles hl.toSurveyed id)).imp
      (fun _ h => h) ?_
    rintro p _ ⟨⟨people, rfl⟩, hp, hadvances⟩
    exact ⟨hp, ⟨⟨hadvances.surveyed, hl.confined, hl.complete⟩, rfl, fun _ hmet => hmet⟩⟩
  apply Leads.get_bind
  refine Leads.bind (.action (.of_asks (l.people.get_asks id l.peopleOfPage)) hl.refl) ?_
  rintro found _ rfl
  exact .bind (.modify ⟨_, rfl⟩) fun _ _ h => .pure h

end Steps

end Listing

end Discussion
