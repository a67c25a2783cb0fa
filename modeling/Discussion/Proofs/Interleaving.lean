import Discussion.Proofs.PreparedRequests
import Discussion.Proofs.Entries
import Mathlib.Logic.Relation

namespace Discussion

/-- An operation under way: the copies of comments that it was given, and what is left of it. -/
structure Process where
  heard : List StoredComment := []
  rest : Program (Except Error Unit)

namespace Process

def start (f : Forum) (op : Operation) : Process where
  rest := (op.action f).run

/-- Does what comes next. Each call is a step of its own. -/
def proceed (w : World) (p : Process) : Process × World :=
  match p.rest with
  | .done _ => (p, w)
  | .tell event next => ({ p with rest := next }, { w with events := w.events ++ [event] })
  | .call request next =>
    let (answer, world) := w.answer request
    ({ heard := request.told answer ++ p.heard, rest := next answer }, world)

/-- Does what comes next, a number of times. -/
def proceeds (p : Process) (w : World) (n : Nat) : Process × World :=
  match n with
  | 0 => (p, w)
  | n + 1 =>
    let (p, w) := p.proceed w
    p.proceeds w n

/-- Goes on where the next call has failed. -/
def refuse (failure : String) (p : Process) : Process :=
  match p.rest with
  | .call _ next => { p with rest := next (.error failure) }
  | _ => p

end Process

/-- Nothing is left to do. -/
def Process.isOver (p : Process) : Bool :=
  match p.rest with
  | .done _ => true
  | _ => false

theorem Process.isOver_of_proceed {p : Process} {w : World} (h : (p.proceed w).1.isOver = false) :
    p.isOver = false := by
  obtain ⟨heard, rest⟩ := p
  cases rest with
  | done r => exact h
  | tell | call => rfl

theorem Process.isOver_of_refuse {p : Process} {failure : String}
    (h : (p.refuse failure).isOver = false) : p.isOver = false := by
  obtain ⟨heard, rest⟩ := p
  cases rest with
  | done r => exact h
  | tell | call => rfl

theorem Process.mem_heard_proceed {p : Process} {w : World} {x : StoredComment}
    (h : x ∈ (p.proceed w).1.heard) : x ∈ p.heard ∨ x ∈ w.store.comments := by
  obtain ⟨heard, rest⟩ := p
  cases rest with
  | done | tell => exact .inl h
  | call c next =>
    rcases List.mem_append.1 h with h | h
    · cases c with
      | store c => exact .inr (StoreCall.mem_told h)
      | host handler question =>
        change x ∈ (Call.host handler question).told (handler.answer question) at h
        cases hanswer : handler.answer question <;> rw [hanswer] at h <;> cases h
    · exact .inl h

theorem Process.heard_refuse (p : Process) (failure : String) :
    (p.refuse failure).heard = p.heard := by
  unfold refuse
  split <;> rfl

/-- Operations that are under way at one time. -/
structure Traffic where
  world : World := {}
  processes : List Process := []

/-- An operation begins, or one of those under way does what comes next, or its next call fails. -/
inductive Traffic.Step (allowed : Forum → Operation → Prop) (carries : Process → Prop) :
    Traffic → Traffic → Prop
  | start (w : World) (ps : List Process) (f : Forum) (op : Operation) : allowed f op →
    Step allowed carries ⟨w, ps⟩ ⟨w, ps ++ [.start f op]⟩
  | proceed (w : World) (ps : List Process) (p : Process) (qs : List Process) : carries p →
    Step allowed carries ⟨w, ps ++ p :: qs⟩ ⟨(p.proceed w).2, ps ++ (p.proceed w).1 :: qs⟩
  | refuse (w : World) (ps : List Process) (p : Process) (qs : List Process) (failure : String) :
    Step allowed carries ⟨w, ps ++ p :: qs⟩ ⟨w, ps ++ p.refuse failure :: qs⟩

/-- Any number of steps, in any order of the operations. Of those under way only some are carried
on. -/
def Traffic.Runs (allowed : Forum → Operation → Prop) (carries : Process → Prop) :
    Traffic → Traffic → Prop :=
  Relation.ReflTransGen (Step allowed carries)

/-- What is left of the operation obeys the policy, and the comments that it was given are known for
good by their numbers. -/
structure Process.Orderly (policy : Policy) (s : Store) (p : Process) : Prop where
  obeys : p.rest.Obeys policy p.heard fun _ _ => True
  known : ∀ x ∈ p.heard, s.Knows x.identity

structure Traffic.Orderly (policy : Policy) (t : Traffic) : Prop where
  numbered : t.world.store.Numbered
  processes : ∀ p ∈ t.processes, p.Orderly policy t.world.store

/-- The invariant lets the copies of comments be trusted, and no call that the policy allows breaks
it. -/
structure Policy.Guards (policy : Policy) (carries : Process → Prop) (I : Store → Prop) : Prop where
  trusts : ∀ {s x}, I s → x ∈ s.comments → policy.trusts x
  answer : ∀ {s p c next}, I s → s.Numbered → p.Orderly policy s → carries p →
    p.rest = .call (.store c) next → I (s.answer c).2

variable {policy : Policy} {carries : Process → Prop} {I : Store → Prop}
variable {allowed : Forum → Operation → Prop}

namespace Process.Orderly

variable {s : Store} {p : Process}

theorem allows {c : Call} {next : Except String c.Answer → Program (Except Error Unit)}
    (h : p.Orderly policy s) (hrest : p.rest = .call c next) : policy.Allows p.heard c := by
  have hobeys := h.obeys
  rw [hrest] at hobeys
  exact hobeys.1

/-- What other operations do makes no difference. -/
theorem answer (h : p.Orderly policy s) (c : StoreCall) : p.Orderly policy (s.answer c).2 where
  obeys := h.obeys
  known := fun x hx => (h.known x hx).answer c

theorem refuse (h : p.Orderly policy s) (failure : String) :
    (p.refuse failure).Orderly policy s := by
  obtain ⟨heard, rest⟩ := p
  cases rest with
  | done | tell => exact h
  | call c next =>
    have htold : c.told (.error failure) = [] := by
      cases c <;> rfl
    refine ⟨?_, h.known⟩
    have hobeys := h.obeys.2 (.error failure)
    rw [htold] at hobeys
    exact hobeys fun _ hx => nomatch hx

end Process.Orderly

namespace Traffic

/-- One step of one operation leaves every operation in order, its own and the others. -/
theorem Orderly.proceed (hI : policy.Guards carries I) {w : World} {p : Process}
    (hn : w.store.Numbered) (hi : I w.store) (hp : p.Orderly policy w.store) (hc : carries p) :
    (p.proceed w).2.store.Numbered ∧ I (p.proceed w).2.store ∧
      (p.proceed w).1.Orderly policy (p.proceed w).2.store ∧
      ∀ q : Process, q.Orderly policy w.store → q.Orderly policy (p.proceed w).2.store := by
  obtain ⟨heard, rest⟩ := p
  cases rest with
  | done r => exact ⟨hn, hi, hp, fun _ hq => hq⟩
  | tell event next => exact ⟨hn, hi, ⟨hp.obeys, hp.known⟩, fun _ hq => hq⟩
  | call c next =>
    cases c with
    | host handler question =>
      have htold : (Call.host handler question).told (handler.answer question) = [] := by
        cases handler.answer question <;> rfl
      have hobeys := hp.obeys.2 (handler.answer question)
      rw [htold] at hobeys
      refine ⟨hn, hi, ?_, fun _ hq => hq⟩
      dsimp only [Process.proceed, World.answer]
      rw [htold]
      exact ⟨hobeys fun _ hx => (nomatch hx), hp.known⟩
    | store c =>
      have hobeys := hp.obeys.2 (.ok (w.store.answer c).1) fun x hx =>
        hI.trusts hi (StoreCall.mem_told hx)
      refine ⟨hn.answer c, hI.answer hi hn hp hc rfl, ⟨hobeys, ?_⟩, fun q hq => hq.answer c⟩
      intro x hx
      rcases List.mem_append.1 hx with hx | hx
      · exact (hn.keyed.knows (StoreCall.mem_told hx)).answer c
      · exact (hp.known x hx).answer c

theorem forall_mem_changed {P Q : Process → Prop} {ps qs : List Process} {p p' : Process}
    (h : ∀ q ∈ ps ++ p :: qs, P q) (hp : Q p') (hothers : ∀ q, P q → Q q) :
    ∀ q ∈ ps ++ p' :: qs, Q q := by
  rw [List.forall_mem_append, List.forall_mem_cons] at h ⊢
  exact ⟨fun q hq => hothers q (h.1 q hq), hp, fun q hq => hothers q (h.2.2 q hq)⟩

theorem Step.orderly (hI : policy.Guards carries I)
    (hops : ∀ f op, allowed f op → (op.action f).Obeys policy [] fun _ _ => True) {t u : Traffic}
    (h : Step allowed carries t u) (ht : t.Orderly policy) (hi : I t.world.store) :
    u.Orderly policy ∧ I u.world.store := by
  obtain ⟨hn, hps⟩ := ht
  cases h with
  | start w ps f op hop =>
    have hstart : (Process.start f op).Orderly policy w.store :=
      ⟨Program.Obeys.imp (hops f op hop) fun _ _ _ _ => trivial, fun _ hx => nomatch hx⟩
    exact ⟨⟨hn, List.forall_mem_append.2 ⟨hps, List.forall_mem_singleton.2 hstart⟩⟩, hi⟩
  | proceed w ps p qs hc =>
    obtain ⟨hn', hi', hp, hothers⟩ := Orderly.proceed hI hn hi (hps p List.mem_append_cons_self) hc
    exact ⟨⟨hn', forall_mem_changed hps hp hothers⟩, hi'⟩
  | refuse w ps p qs failure =>
    have hp := (hps p List.mem_append_cons_self).refuse failure
    exact ⟨⟨hn, forall_mem_changed hps hp fun _ hq => hq⟩, hi⟩

theorem Runs.orderly (hI : policy.Guards carries I)
    (hops : ∀ f op, allowed f op → (op.action f).Obeys policy [] fun _ _ => True) {t u : Traffic}
    (h : Runs allowed carries t u) (ht : t.Orderly policy) (hi : I t.world.store) :
    u.Orderly policy ∧ I u.world.store := by
  induction h with
  | refl => exact ⟨ht, hi⟩
  | tail _ hstep ih => exact hstep.orderly hI hops ih.1 ih.2

theorem orderly_start {w : World} (h : w.store.Numbered) : (Traffic.mk w []).Orderly policy :=
  ⟨h, fun _ hp => nomatch hp⟩

theorem runs_between (ps qs : List Process) {p : Process} {w : World} {n : Nat}
    (h : ∀ k < n, carries (p.proceeds w k).1) : Runs allowed carries ⟨w, ps ++ p :: qs⟩
      ⟨(p.proceeds w n).2, ps ++ (p.proceeds w n).1 :: qs⟩ := by
  induction n generalizing p w with
  | zero => exact .refl
  | succ n ih =>
    apply Relation.ReflTransGen.head (.proceed w ps p qs (h 0 (Nat.succ_pos n)))
    exact ih fun k hk => h (k + 1) (Nat.succ_lt_succ hk)

theorem runs_proceeds (ps : List Process) {p : Process} {w : World} {n : Nat}
    (h : ∀ k < n, carries (p.proceeds w k).1) :
    Runs allowed carries ⟨w, ps ++ [p]⟩ ⟨(p.proceeds w n).2, ps ++ [(p.proceeds w n).1]⟩ :=
  runs_between ps [] h

theorem runs_run {σ : Type} (faults : Faults σ) (ps : List Process)
    (rest : Program (Except Error Unit)) (heard : List StoredComment) (state : σ) (w : World) :
    ∃ p, Runs allowed (fun _ => True) ⟨w, ps ++ [⟨heard, rest⟩]⟩
      ⟨(rest.run faults state w).2.2, ps ++ [p]⟩ := by
  induction rest generalizing heard state w with
  | done r => exact ⟨_, .refl⟩
  | tell event next ih =>
    obtain ⟨p, hp⟩ := ih heard state { w with events := w.events ++ [event] }
    exact ⟨p, .head (.proceed w ps ⟨heard, .tell event next⟩ [] trivial) hp⟩
  | call c next ih =>
    rw [Program.run]
    split
    next failure state' _ =>
      obtain ⟨p, hp⟩ := ih (.error failure) heard state' w
      exact ⟨p, .head (.refuse w ps ⟨heard, .call c next⟩ [] failure) hp⟩
    next state' _ =>
      obtain ⟨p, hp⟩ := ih (w.answer c).1 (c.told (w.answer c).1 ++ heard) state' (w.answer c).2
      exact ⟨p, .head (.proceed w ps ⟨heard, .call c next⟩ [] trivial) hp⟩

/-- Operations one after another are a special case of operations at one time. -/
theorem exists_runs {w : World} (h : Reached allowed w) :
    ∃ ps, Runs allowed (fun _ => True) {} ⟨w, ps⟩ := by
  induction h with
  | start => exact ⟨[], .refl⟩
  | operate f op faults state _ hop ih =>
    obtain ⟨ps, hps⟩ := ih
    obtain ⟨p, hp⟩ := runs_run faults ps (op.action f).run [] state _
    exact ⟨ps ++ [p], (hps.tail (.start _ ps f op hop)).trans hp⟩

end Traffic

end Discussion
