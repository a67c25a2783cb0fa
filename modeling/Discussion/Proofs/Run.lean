import Discussion.Program

namespace Discussion

/-- The call asks a component. -/
def Call.IsHost : Call → Prop
  | .host .. => True
  | .store _ => False

theorem Faults.isHost_of_isSome {σ : Type} {faults : Faults σ}
    (h : ∀ state c, (faults state (.store c)).1 = none) (state : σ) (c : Call)
    (hc : (faults state c).1.isSome) : c.IsHost := by
  cases c with
  | host handler question => trivial
  | store c =>
    rw [h] at hc
    cases hc

namespace Program

variable {α β σ : Type}

instance : LawfulMonad Program := by
  refine LawfulMonad.mk' Program (fun p => ?_) (fun _ _ => rfl) fun p f g => ?_
  · change p.bind done = p
    induction p with
    | done => rfl
    | call c next ih => exact congrArg (call c) (funext ih)
    | tell event next ih => exact congrArg (tell event) ih
  · change (p.bind f).bind g = p.bind fun a => (f a).bind g
    induction p with
    | done => rfl
    | call c next ih => exact congrArg (call c) (funext ih)
    | tell event next ih => exact congrArg (tell event) ih

/-- The calls that a run carries out, in order. A call that fails is not carried out. -/
def carried (faults : Faults σ) : Program α → σ → World → List Call
  | .done _, _, _ => []
  | .tell event next, state, world =>
    next.carried faults state { world with events := world.events ++ [event] }
  | .call request next, state, world =>
    match faults state request with
    | (some failure, state) => (next (.error failure)).carried faults state world
    | (none, state) =>
      let (answer, world) := world.answer request
      request :: (next answer).carried faults state world

/-- Started in a world, the program ends with a result, the calls it has carried out, and a world
that satisfy a condition, whichever of the calls that may fail do so. -/
def Ends (faulty : Call → Prop) : Program α → World → (α → List Call → World → Prop) → Prop
  | .done result, world, Q => Q result [] world
  | .tell event next, world, Q =>
    next.Ends faulty { world with events := world.events ++ [event] } Q
  | .call request next, world, Q =>
    (∀ failure, faulty request → (next (.error failure)).Ends faulty world Q) ∧
      (next (world.answer request).1).Ends faulty (world.answer request).2
        fun result calls world => Q result (request :: calls) world

variable {faulty : Call → Prop} {p : Program α} {f : α → Program β} {w : World}

theorem ends_run {faults : Faults σ} (hf : ∀ state c, (faults state c).1.isSome → faulty c)
    {Q : α → List Call → World → Prop} (h : p.Ends faulty w Q) (state : σ) :
    Q (p.run faults state w).1 (p.carried faults state w) (p.run faults state w).2.2 := by
  induction p generalizing w state Q with
  | done a => exact h
  | tell event next ih => exact ih h state
  | call c next ih =>
    cases hc : faults state c with
    | mk failed state' =>
      simp only [run, carried, hc]
      cases failed with
      | some failure => exact ih _ (h.1 failure (hf state c (by rw [hc]; rfl))) state'
      | none => exact ih _ h.2 state'

theorem Ends.run_any {Q : α → List Call → World → Prop} (h : p.Ends (fun _ => True) w Q)
    (faults : Faults σ) (state : σ) :
    Q (p.run faults state w).1 (p.carried faults state w) (p.run faults state w).2.2 :=
  ends_run (fun _ _ _ => trivial) h state

theorem Ends.mono {Q R : α → List Call → World → Prop} (h : p.Ends faulty w Q)
    (hQ : ∀ a calls w', Q a calls w' → R a calls w') : p.Ends faulty w R := by
  induction p generalizing w Q R with
  | done a => exact hQ _ _ _ h
  | tell event next ih => exact ih h hQ
  | call c next ih =>
    exact ⟨fun failure hf => ih _ (h.1 failure hf) hQ, ih _ h.2 fun _ _ _ => hQ _ _ _⟩

theorem ends_bind {Q : β → List Call → World → Prop} :
    (p >>= f).Ends faulty w Q ↔ p.Ends faulty w fun a calls w' =>
      (f a).Ends faulty w' fun b calls' w'' => Q b (calls ++ calls') w'' := by
  induction p generalizing w Q with
  | done a => rfl
  | tell event next ih => exact ih
  | call c next ih => exact and_congr (forall_congr' fun _ => imp_congr Iff.rfl (ih _)) (ih _)

end Program

namespace Action

variable {α β : Type} {faulty : Call → Prop} {w : World} {m : Action α} {g : α → Action β}
variable {Q : Except Error α → List Call → World → Prop}

theorem ends_bind {Q : Except Error β → List Call → World → Prop} :
    (m >>= g).run.Ends faulty w Q ↔ m.run.Ends faulty w fun r calls w' =>
      match r with
      | .ok a => (g a).run.Ends faulty w' fun b calls' w'' => Q b (calls ++ calls') w''
      | .error e => Q (.error e) calls w' := by
  change Program.Ends faulty (m.run >>= ExceptT.bindCont g) w Q ↔ _
  rw [Program.ends_bind]
  refine Iff.of_eq (congrArg (m.run.Ends faulty w) ?_)
  funext r calls w'
  cases r with
  | ok a => rfl
  | error e =>
    change Q (.error e) (calls ++ []) w' = Q (.error e) calls w'
    rw [List.append_nil]

theorem ends_bind_of {R : Except Error α → List Call → World → Prop}
    {Q : Except Error β → List Call → World → Prop} (hm : m.run.Ends faulty w R)
    (hok : ∀ a calls w', R (.ok a) calls w' →
      (g a).run.Ends faulty w' fun b calls' w'' => Q b (calls ++ calls') w'')
    (herror : ∀ e calls w', R (.error e) calls w' → Q (.error e) calls w') :
    (m >>= g).run.Ends faulty w Q := by
  rw [ends_bind]
  apply hm.mono
  intro r calls w' hr
  cases r with
  | ok a => exact hok a calls w' hr
  | error e => exact herror e calls w' hr

theorem ends_map {h : α → β} {Q : Except Error β → List Call → World → Prop}
    (hm : m.run.Ends faulty w fun r => Q (r.map h)) : (h <$> m).run.Ends faulty w Q := by
  refine ends_bind_of hm (fun a calls w' hr => ?_) fun e calls w' hr => hr
  change Q (.ok (h a)) (calls ++ []) w'
  rw [List.append_nil]
  exact hr

theorem ends_call {c : Call} {Q : Except Error c.Answer → List Call → World → Prop}
    (hfail : ∀ failure, faulty c → Q (.error (.storage failure)) [] w)
    (hanswer : Q ((w.answer c).1.mapError .storage) [c] (w.answer c).2) :
    (call c).run.Ends faulty w Q :=
  ⟨hfail, hanswer⟩

theorem ends_store {c : StoreCall} {Q : Except Error c.Answer → List Call → World → Prop}
    (hfail : ∀ failure, faulty (.store c) → Q (.error (.storage failure)) [] w)
    (hanswer : Q (.ok (w.store.answer c).1) [.store c] { w with store := (w.store.answer c).2 }) :
    (store c).run.Ends faulty w Q :=
  ends_call hfail hanswer

end Action

/-- The program keeps an invariant, whichever calls fail. -/
def Program.Keeps {α : Type} (I : World → Prop) (p : Program α) : Prop :=
  ∀ w, I w → p.Ends (fun _ => True) w fun _ _ w' => I w'

namespace Program.Keeps

variable {α β σ : Type} {I : World → Prop} {p : Program α} {f : α → Program β}

theorem run (h : p.Keeps I) (faults : Faults σ) (state : σ) {w : World} (hw : I w) :
    I (p.run faults state w).2.2 :=
  (h w hw).run_any faults state

end Program.Keeps

/-- The action keeps an invariant, whether it ends with a result or an error. -/
def Action.Keeps {α : Type} (I : World → Prop) (m : Action α) : Prop := m.run.Keeps I

namespace Action.Keeps

variable {α β : Type} {I : World → Prop} {m : Action α} {g : α → Action β}

theorem pure (a : α) : Action.Keeps I (Pure.pure a) := fun _ hw => hw

theorem throw (e : Error) : Action.Keeps I (MonadExcept.throw e : Action α) := fun _ hw => hw

theorem lift (r : Except Error α) : Action.Keeps I (liftM r : Action α) := fun _ hw => hw

theorem bind (hm : Action.Keeps I m) (hg : ∀ a, Action.Keeps I (g a)) :
    Action.Keeps I (m >>= g) := by
  intro w hw
  exact ends_bind_of (hm w hw) (fun a _ w' hw' => hg a w' hw') fun _ _ _ hw' => hw'

theorem map {f : α → β} (hm : Action.Keeps I m) : Action.Keeps I (f <$> m) :=
  bind hm fun _ => pure _

theorem store {c : StoreCall}
    (h : ∀ w, I w → I { w with store := (w.store.answer c).2 }) :
    Action.Keeps I (Action.store c) :=
  fun w hw => ends_store (fun _ _ => hw) (h w hw)

theorem tell {event : Event} (h : ∀ w, I w → I { w with events := w.events ++ [event] }) :
    Action.Keeps I (Action.tell event) := h

theorem mapM {f : α → Action β} {l : List α} (hf : ∀ a ∈ l, Action.Keeps I (f a)) :
    Action.Keeps I (l.mapM f) := by
  induction l with
  | nil => exact pure []
  | cons a l ih =>
    obtain ⟨ha, hl⟩ := List.forall_mem_cons.1 hf
    rw [List.mapM_cons]
    exact bind ha fun b => bind (ih hl) fun bs => pure (b :: bs)

end Action.Keeps

/-- Whatever becomes of its calls, the action fails only with errors of a kind. -/
def Action.FailsOnly {α : Type} (m : Action α) (E : Error → Prop) : Prop :=
  ∀ w, m.run.Ends (fun _ => True) w fun r _ _ => ∀ e, r = .error e → E e

namespace Action.FailsOnly

variable {α β : Type} {E : Error → Prop} {m : Action α} {g : α → Action β}

theorem run {σ : Type} (h : m.FailsOnly E) (faults : Faults σ) (state : σ) {w : World} {e : Error}
    (he : (m.run.run faults state w).1 = .error e) : E e :=
  (h w).run_any faults state e he

theorem pure (a : α) : (Pure.pure a : Action α).FailsOnly E := fun _ => nofun

theorem lift {r : Except Error α} (h : ∀ e, r = .error e → E e) :
    (liftM r : Action α).FailsOnly E := fun _ => h

theorem throw {e : Error} (h : E e) : (MonadExcept.throw e : Action α).FailsOnly E := by
  rintro _ _ ⟨⟩
  exact h

theorem tell (event : Event) : (Action.tell event).FailsOnly E := fun _ => nofun

theorem call (h : ∀ failure, E (.storage failure)) (c : Call) : (Action.call c).FailsOnly E := by
  intro w
  apply ends_call
  · rintro failure - _ ⟨⟩
    exact h failure
  · intro e he
    cases hanswer : (w.answer c).1 with
    | ok answer =>
      rw [hanswer] at he
      cases he
    | error failure =>
      rw [hanswer] at he
      cases he
      exact h failure

theorem store (h : ∀ failure, E (.storage failure)) (c : StoreCall) :
    (Action.store c).FailsOnly E :=
  call h (.store c)

theorem host (h : ∀ failure, E (.storage failure)) (handler : Handler) (c : HostCall) :
    (Action.host handler c).FailsOnly E :=
  call h (.host handler c)

theorem bind (hm : m.FailsOnly E) (hg : ∀ a, (g a).FailsOnly E) : (m >>= g).FailsOnly E := by
  refine fun w => ends_bind_of (hm w) (fun a _ w' _ => hg a w') fun e _ _ he e' he' => ?_
  exact he e' (congrArg Except.error (Except.error.inj he'))

theorem mapM {f : α → Action β} (hf : ∀ a, (f a).FailsOnly E) (l : List α) :
    Action.FailsOnly (l.mapM f) E := by
  induction l with
  | nil => exact pure []
  | cons a l ih =>
    rw [List.mapM_cons]
    exact bind (hf a) fun _ => bind ih fun _ => pure _

end Action.FailsOnly

end Discussion
