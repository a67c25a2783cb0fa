import Discussion.Proofs.Look

namespace Discussion

variable {α β : Type}

theorem Program.run_bind {σ : Type} (faults : Faults σ) (p : Program α) (f : α → Program β)
    (state : σ) (w : World) : (p >>= f).run faults state w =
      (f (p.run faults state w).1).run faults (p.run faults state w).2.1
        (p.run faults state w).2.2 := by
  induction p generalizing state w with
  | done a => rfl
  | tell event next ih => exact ih state _
  | call c next ih =>
    change (Program.call c fun answer => next answer >>= f).run faults state w = _
    rw [run, run]
    split
    · exact ih _ _ _
    · exact ih _ _ _

namespace Action

variable {m : Action α} {g : α → Action β} {w w' w'' : World} {a : α} {b : β}

/-- Where no call fails, the action has the result and makes the second world of the first. -/
def Yields (m : Action α) (w : World) (a : α) (w' : World) : Prop :=
  m.run.run Faults.never () w = (.ok a, (), w')

theorem exists_yields (h : (m.run.run Faults.never () w).1.toBool) :
    ∃ a, m.Yields w a (m.run.run Faults.never () w).2.2 := by
  unfold Yields
  generalize m.run.run Faults.never () w = r at h ⊢
  obtain ⟨r, u, w'⟩ := r
  cases r with
  | ok a => exact ⟨a, rfl⟩
  | error e => cases h

theorem yields_bind :
    (m >>= g).Yields w b w'' ↔ ∃ a w', m.Yields w a w' ∧ (g a).Yields w' b w'' := by
  unfold Yields
  change Program.run Faults.never (m.run >>= ExceptT.bindCont g) () w = _ ↔ _
  rw [Program.run_bind]
  obtain ⟨r, u, w'⟩ := m.run.run Faults.never () w
  cases r with
  | ok a =>
    constructor
    · exact fun h => ⟨a, w', rfl, h⟩
    · rintro ⟨_, _, ⟨⟩, h⟩
      exact h
  | error e =>
    constructor
    · rintro ⟨⟩
    · rintro ⟨_, _, ⟨⟩, -⟩

theorem yields_pure {a' : α} : (pure a : Action α).Yields w a' w' ↔ a' = a ∧ w' = w := by
  constructor
  · rintro ⟨⟩
    exact ⟨rfl, rfl⟩
  · rintro ⟨rfl, rfl⟩
    rfl

theorem yields_store {c : StoreCall} {answer : c.Answer} : (store c).Yields w answer w' ↔
    answer = (w.store.answer c).1 ∧ w' = { w with store := (w.store.answer c).2 } := by
  constructor
  · rintro ⟨⟩
    exact ⟨rfl, rfl⟩
  · rintro ⟨rfl, rfl⟩
    rfl

theorem yields_tell {event : Event} {u : Unit} :
    (tell event).Yields w u w' ↔ w' = { w with events := w.events ++ [event] } := by
  constructor
  · rintro ⟨⟩
    rfl
  · rintro rfl
    rfl

theorem not_yields_throw {e : Error} : ¬(throw e : Action α).Yields w a w' := nofun

theorem Reads.yields_iff {Q : α → Prop} (h : m.Reads Q) :
    m.Yields w a w' ↔ m.look w.store = .ok a ∧ w' = w := by
  unfold Yields
  rw [Program.Reads.run_never h]
  constructor
  · intro heq
    obtain ⟨hlook, hrest⟩ := Prod.mk.inj heq
    exact ⟨hlook, (Prod.mk.inj hrest).2.symm⟩
  · rintro ⟨hlook, rfl⟩
    exact congrArg (·, (), w') hlook

theorem Reads.yields_bind {Q : α → Prop} (h : m.Reads Q) :
    (m >>= g).Yields w b w' ↔ ∃ a, m.look w.store = .ok a ∧ (g a).Yields w b w' := by
  rw [Action.yields_bind]
  constructor
  · rintro ⟨a, w₁, hm, hg⟩
    obtain ⟨hlook, rfl⟩ := h.yields_iff.1 hm
    exact ⟨a, hlook, hg⟩
  · rintro ⟨a, hlook, hg⟩
    exact ⟨a, w, h.yields_iff.2 ⟨hlook, rfl⟩, hg⟩

theorem Reads.run_bind {Q : α → Prop} (h : m.Reads Q) :
    (m >>= g).run.run Faults.never () w = match m.look w.store with
      | .ok a => (g a).run.run Faults.never () w
      | .error e => (.error e, (), w) := by
  change Program.run Faults.never (m.run >>= ExceptT.bindCont g) () w = _
  rw [Program.run_bind, Program.Reads.run_never h, Action.look]
  cases m.run.look w.store <;> rfl

theorem Answers.run_bind (h : m.Answers w a) :
    (m >>= g).run.run Faults.never () w = (g a).run.run Faults.never () w := by
  change Program.run Faults.never (m.run >>= ExceptT.bindCont g) () w = _
  rw [Program.run_bind, h]
  rfl

theorem yields_mapM_cons {f : α → Action β} {l : List α} {bs : List β} :
    ((a :: l).mapM f).Yields w bs w'' ↔ ∃ b bs' w', (f a).Yields w b w' ∧
      (l.mapM f).Yields w' bs' w'' ∧ bs = b :: bs' := by
  rw [List.mapM_cons, yields_bind]
  constructor
  · rintro ⟨b, w₁, hb, h⟩
    obtain ⟨bs', w₂, hbs, h⟩ := yields_bind.1 h
    obtain ⟨rfl, rfl⟩ := yields_pure.1 h
    exact ⟨b, bs', w₁, hb, hbs, rfl⟩
  · rintro ⟨b, bs', w₁, hb, hbs, rfl⟩
    exact ⟨b, w₁, hb, yields_bind.2 ⟨bs', w'', hbs, yields_pure.2 ⟨rfl, rfl⟩⟩⟩

end Action

end Discussion
