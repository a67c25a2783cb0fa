import Discussion.Proofs.ListingAsks

namespace Discussion

variable {α β : Type} {s : Store}

/-- The result of a program that has every store call answered from one store. -/
def Program.look (s : Store) : Program α → α
  | .done result => result
  | .tell _ next => next.look s
  | .call request next => (next (World.answer { store := s } request).1).look s

namespace Program

theorem look_bind (p : Program α) (f : α → Program β) :
    (p >>= f).look s = (f (p.look s)).look s := by
  induction p with
  | done a => rfl
  | tell event next ih => exact ih
  | call c next ih => exact ih _

theorem Reads.run_never {p : Program α} {Q : α → Prop} (h : p.Reads Q) (w : World) :
    p.run Faults.never () w = (p.look w.store, (), w) := by
  induction p with
  | done a => rfl
  | tell event next ih => exact h.elim
  | call c next ih =>
    have hanswer : (w.answer c).1 = (World.answer { store := w.store } c).1 := by
      cases c <;> rfl
    simp only [run, Faults.never, look]
    rw [World.answer_of_isQuestion h.1, hanswer]
    exact ih _ (h.2 _)

theorem Reads.look {p : Program α} {Q : α → Prop} (h : p.Reads Q) : Q (p.look s) := by
  induction p with
  | done a => exact h
  | tell event next ih => exact h.elim
  | call c next ih => exact ih _ (h.2 _)

theorem Asks.ends {p : Program α} {ends : String → α → Prop} {faulty : Call → Prop} {w : World}
    (h : p.Asks ends) : p.Ends faulty w fun r calls w' =>
      (r = p.look w.store ∨ ∃ failure, ends failure r) ∧ w' = w ∧ ∀ c ∈ calls, c.isQuestion := by
  induction p generalizing w with
  | done a => exact ⟨.inl rfl, rfl, fun _ hc => nomatch hc⟩
  | tell event next ih => exact h.elim
  | call c next ih =>
    have hanswer : (w.answer c).1 = (World.answer { store := w.store } c).1 := by
      cases c <;> rfl
    refine ⟨fun failure _ => ?_, ?_⟩
    · obtain ⟨r, hr, hends⟩ := h.2.1 failure
      rw [hr]
      exact ⟨.inr ⟨failure, hends⟩, rfl, fun _ hc => nomatch hc⟩
    · rw [World.answer_of_isQuestion h.1, look, ← hanswer]
      cases (w.answer c).1 with
      | ok answer =>
        apply (ih _ (h.2.2 answer)).mono
        intro r calls w' hend
        exact ⟨hend.1, hend.2.1, List.forall_mem_cons.2 ⟨h.1, hend.2.2⟩⟩
      | error failure =>
        obtain ⟨r, hr, -⟩ := h.2.1 failure
        rw [hr]
        exact ⟨.inl rfl, rfl, List.forall_mem_singleton.2 h.1⟩

end Program

theorem exists_of_forall₂ {R : α → β → Prop} {as : List α} {bs : List β}
    (h : List.Forall₂ R as bs) : ∀ b ∈ bs, ∃ a, R a b := by
  induction h with
  | nil => exact fun _ hb => nomatch hb
  | cons hab _ ih => exact List.forall_mem_cons.2 ⟨⟨_, hab⟩, ih⟩

theorem exists_forall₂ {R : α → β → Prop} {as : List α}
    (h : ∀ a ∈ as, ∃ b, R a b) : ∃ bs, List.Forall₂ R as bs := by
  induction as with
  | nil => exact ⟨[], .nil⟩
  | cons a as ih =>
    obtain ⟨⟨b, hb⟩, has⟩ := List.forall_mem_cons.1 h
    obtain ⟨bs, hbs⟩ := ih has
    exact ⟨b :: bs, .cons hb hbs⟩

theorem exists_append_of_forall₂ {R : α → β → Prop} {as as' : List α} {bs : List β}
    (h : List.Forall₂ R (as ++ as') bs) :
    ∃ cs cs', bs = cs ++ cs' ∧ List.Forall₂ R as cs ∧ List.Forall₂ R as' cs' := by
  refine ⟨bs.take as.length, bs.drop as.length, (List.take_append_drop as.length bs).symm, ?_, ?_⟩
  · exact (List.forall₂_take_append bs as as' h.flip).flip
  · exact (List.forall₂_drop_append bs as as' h.flip).flip

theorem exists_of_bind_eq_ok {x : Except Error α} {f : α → Except Error β} {b : β}
    (h : x >>= f = .ok b) : ∃ a, x = .ok a ∧ f a = .ok b := by
  cases x with
  | ok a => exact ⟨a, rfl, h⟩
  | error e => cases h

theorem exists_of_toOption_map {x : Except Error α} {f : α → β} {b : β}
    (h : (x.map f).toOption = some b) : ∃ a, x = .ok a ∧ f a = b := by
  cases x with
  | ok a => exact ⟨a, rfl, Option.some.inj h⟩
  | error e => cases h

def Action.look (s : Store) (m : Action α) : Except Error α :=
  m.run.look s

namespace Action

theorem look_bind (m : Action α) (g : α → Action β) :
    (m >>= g).look s = m.look s >>= fun a => (g a).look s := by
  change Program.look s (m.run >>= ExceptT.bindCont g) = _
  rw [Program.look_bind, look]
  cases m.run.look s <;> rfl

theorem look_bind_of {m : Action α} {g : α → Action β} {a : α} (h : m.look s = .ok a) :
    (m >>= g).look s = (g a).look s := by
  rw [look_bind, h]
  rfl

@[simp] theorem look_pure (a : α) : (pure a : Action α).look s = .ok a := rfl

@[simp] theorem look_lift (r : Except Error α) : (liftM r : Action α).look s = r := rfl

@[simp] theorem look_host (h : Handler) (c : HostCall) :
    (host h c).look s = (h.answer c).mapError .storage := rfl

theorem Reads.look {m : Action α} {Q : α → Prop} (h : m.Reads Q) {a : α} (ha : m.look s = .ok a) :
    Q a :=
  Program.Reads.look h a ha

theorem look_bind_eq_ok {m : Action α} {g : α → Action β} {b : β}
    (h : (m >>= g).look s = .ok b) : ∃ a, m.look s = .ok a ∧ (g a).look s = .ok b :=
  exists_of_bind_eq_ok ((look_bind m g).symm.trans h)

theorem look_mapM_eq_ok {f : α → Action β} {l : List α} {bs : List β} :
    (l.mapM f).look s = .ok bs ↔ List.Forall₂ (fun a b => (f a).look s = .ok b) l bs := by
  induction l generalizing bs with
  | nil =>
    rw [List.mapM_nil, look_pure, List.forall₂_nil_left_iff, Except.ok.injEq, eq_comm]
  | cons a l ih =>
    rw [List.mapM_cons, List.forall₂_cons_left_iff]
    constructor
    · intro h
      obtain ⟨b, hb, h⟩ := look_bind_eq_ok h
      obtain ⟨bs', hbs, h⟩ := look_bind_eq_ok h
      exact ⟨b, bs', hb, ih.1 hbs, (Except.ok.inj h).symm⟩
    · rintro ⟨b, bs', hb, hbs, rfl⟩
      rw [look_bind_of hb, look_bind_of (ih.2 hbs)]
      rfl

/-- Where no call fails, the action has the result, and all stays as it is. -/
def Answers (m : Action α) (w : World) (a : α) : Prop :=
  m.run.run Faults.never () w = (.ok a, (), w)

theorem Answers.unique {m : Action α} {w : World} {a b : α} (ha : m.Answers w a)
    (hb : m.Answers w b) : a = b :=
  Except.ok.inj (congrArg Prod.fst (ha.symm.trans hb))

theorem Reads.answers {m : Action α} {Q : α → Prop} (h : m.Reads Q) {w : World} {a : α}
    (ha : m.look w.store = .ok a) : m.Answers w a :=
  (Program.Reads.run_never h w).trans (congrArg (·, (), w) ha)

theorem Reads.answers_iff {m : Action α} {Q : α → Prop} (h : m.Reads Q) {w : World} {a : α} :
    m.Answers w a ↔ m.look w.store = .ok a := by
  refine ⟨fun ha => ?_, h.answers⟩
  rw [Answers, Program.Reads.run_never h] at ha
  exact congrArg Prod.fst ha

/-- Whichever calls fail, the action has no result but the one that it has where none fails. -/
def Truthful (m : Action α) : Prop :=
  ∀ faulty w, m.Observes faulty w fun a => m.look w.store = .ok a

theorem Asks.truthful {m : Action α} (h : m.Asks) : m.Truthful := by
  refine fun faulty w => Program.Ends.mono (Program.Asks.ends h) fun r calls w' hend => ?_
  refine ⟨fun a ha => ?_, hend.2⟩
  rcases hend.1 with hlook | ⟨failure, hfailure⟩
  · exact hlook.symm.trans ha
  · cases hfailure.symm.trans ha

/-- An action that asks questions ends as where no call fails, or with the failure of a call. -/
theorem Asks.run {σ : Type} {m : Action α} (h : m.Asks) (faults : Faults σ) (state : σ) (w : World) :
    (m.run.run faults state w).1 = m.look w.store ∨
      ∃ failure, (m.run.run faults state w).1 = .error (.storage failure) :=
  (Program.Ends.run_any (Program.Asks.ends h) faults state).1

theorem Asks.look_of_run {σ : Type} {m : Action α} (h : m.Asks) {faults : Faults σ} {state : σ}
    {w : World} {a : α} (hrun : (m.run.run faults state w).1 = .ok a) : m.look w.store = .ok a := by
  rcases h.run faults state w with hlook | ⟨failure, hfailure⟩
  · exact hlook.symm.trans hrun
  · cases hfailure.symm.trans hrun

end Action

theorem Area.look_sectionOf (s : Store) (a : Area) (item : ItemId) :
    (a.sectionOf item).look s = (do
      let host ← (a.handler.item (a.sectionKey item)).mapError .storage
      return ⟨a, a.sectionKey item, host⟩) := by
  rw [sectionOf, Action.look_bind]
  rfl

theorem ListRequest.params_inv {settings : Settings} {req : ListRequest} {params : ListingQuery}
    (h : req.params settings = .ok params) : params.comment = req.comment ∧
      timeBound "time_from" req.timeFrom = .ok params.timeFrom ∧
        timeBound "time_to" req.timeTo = .ok params.timeTo := by
  obtain ⟨sort, -, h⟩ := exists_of_bind_eq_ok h
  dsimp only at h
  split at h
  · cases h
  split at h
  · cases h
  obtain ⟨timeFrom, hfrom, h⟩ := exists_of_bind_eq_ok h
  obtain ⟨timeTo, hto, h⟩ := exists_of_bind_eq_ok h
  obtain rfl := Except.ok.inj h
  exact ⟨rfl, hfrom, hto⟩

theorem Forum.look_sectionOf {f : Forum} {t : Store} (key : SectionKey) :
    (f.sectionOf key).look t = (f.sectionOf key).look s := by
  rw [Forum.sectionOf, Action.look_bind, Action.look_bind]
  refine congrArg _ (funext fun a => ?_)
  rw [Area.look_sectionOf, Area.look_sectionOf]

theorem Section.coversSection_selection (sec : Section) :
    sec.selection.coversSection = (· == sec.key) := by
  funext k
  rw [Bool.eq_iff_iff]
  simp only [selection, Selection.coversSection, ItemRange.covers, List.contains_cons,
    List.contains_nil, Bool.or_false, Bool.and_eq_true, beq_iff_eq]
  cases k
  cases sec.key
  simp only [SectionKey.mk.injEq, and_assoc]

theorem Area.coversSection_selection (a : Area) : a.selection.coversSection = fun k =>
    k.component == a.component && k.area == a.name && k.context == a.context := by
  funext k
  simp only [selection, Selection.coversSection, ItemRange.covers, List.contains_cons,
    List.contains_nil, Bool.or_false, Bool.and_true]

def ListingM.look (s : Store) (m : ListingM α) (l : Listing) : Except Error α × Listing :=
  (m.run.run l).look s

namespace ListingM

variable {l : Listing}

theorem look_bind (m : ListingM α) (g : α → ListingM β) :
    (m >>= g).look s l = match m.look s l with
      | (.ok a, l) => (g a).look s l
      | (.error e, l) => (.error e, l) := by
  change Program.look s (m.run.run l >>= fun r => (ExceptT.bindCont g r.1).run r.2) = _
  rw [Program.look_bind, look]
  obtain ⟨r, l⟩ := Program.look s (m.run.run l)
  cases r <;> rfl

theorem look_bind_of {m : ListingM α} {g : α → ListingM β} {a : α} {l' : Listing}
    (h : m.look s l = (.ok a, l')) : (m >>= g).look s l = (g a).look s l' := by
  rw [look_bind, h]

theorem look_bind_fst (m : ListingM α) (g : α → ListingM β) :
    ((m >>= g).look s l).1 = (m.look s l).1 >>= fun a => ((g a).look s (m.look s l).2).1 := by
  rw [look_bind]
  obtain ⟨r, l'⟩ := m.look s l
  cases r <;> rfl

@[simp] theorem look_pure (a : α) : (pure a : ListingM α).look s l = (.ok a, l) := rfl

@[simp] theorem look_get : (get : ListingM Listing).look s l = (.ok l, l) := rfl

@[simp] theorem look_lift (r : Except Error α) : (liftM r : ListingM α).look s l = (r, l) := rfl

@[simp] theorem look_action (m : Action α) : (liftM m : ListingM α).look s l = (m.look s, l) := by
  change Program.look s (m.run >>= fun r => pure (r, l)) = _
  rw [Program.look_bind]
  rfl

theorem look_eval (m : ListingM α) (l : Listing) : (m.eval l).look s = (m.look s l).1 := by
  change Program.look s ((fun r => r.1) <$> m.run.run l) = _
  rw [map_eq_pure_bind, Program.look_bind]
  rfl

theorem Asks.answers_iff {m : ListingM α} (h : m.Asks) {w : World} {a : α} :
    (m.eval l).Answers w a ↔ (m.look w.store l).1 = .ok a := by
  rw [Action.Reads.answers_iff (h.eval l).reads, look_eval]

end ListingM

/-- The results are related and so are the listings, or the errors are the same. -/
inductive Listing.Outcomes (S : Listing → Listing → Prop) (R : α → β → Prop) :
    Except Error α × Listing → Except Error β × Listing → Prop
  | ok {a : α} {b : β} {l k : Listing} : R a b → S l k → Outcomes S R (.ok a, l) (.ok b, k)
  | error {e : Error} {l k : Listing} : Outcomes S R (.error e, l) (.error e, k)

/-- The computations, each on a store of its own, have outcomes that are related where the listings
they work on are. -/
def ListingM.Relates (s t : Store) (S : Listing → Listing → Prop) (R : α → β → Prop)
    (m : ListingM α) (n : ListingM β) : Prop :=
  ∀ l k, S l k → Listing.Outcomes S R (m.look s l) (n.look t k)

namespace ListingM.Relates

variable {γ δ : Type} {t : Store} {S : Listing → Listing → Prop} {R : α → β → Prop}
variable {Q : γ → δ → Prop}

theorem pure {a : α} {b : β} (h : R a b) :
    ListingM.Relates s t S R (Pure.pure a) (Pure.pure b) :=
  fun _ _ hl => .ok h hl

theorem bind {m : ListingM α} {n : ListingM β} {f : α → ListingM γ} {g : β → ListingM δ}
    (hm : ListingM.Relates s t S R m n)
    (hf : ∀ a b, R a b → ListingM.Relates s t S Q (f a) (g b)) :
    ListingM.Relates s t S Q (m >>= f) (n >>= g) := by
  intro l k hl
  have hout := hm l k hl
  rw [look_bind, look_bind]
  generalize m.look s l = x at hout ⊢
  generalize n.look t k = y at hout ⊢
  cases hout with
  | ok hr hl => exact hf _ _ hr _ _ hl
  | error => exact .error

theorem get : ListingM.Relates s t S S MonadState.get MonadState.get :=
  fun _ _ hl => .ok hl hl

theorem modify {f g : Listing → Listing}
    (h : ∀ l k, S l k → S (f l) (g k)) :
    ListingM.Relates s t S (fun _ _ => True) (modify f) (modify g) :=
  fun l k hl => .ok trivial (h l k hl)

theorem lift (r : Except Error α) : ListingM.Relates s t S Eq (liftM r) (liftM r) := by
  intro l k hl
  rw [look_lift, look_lift]
  cases r with
  | ok a => exact .ok rfl hl
  | error e => exact .error

theorem lift_of (r : Except Error α) :
    ListingM.Relates s t S (fun a b => b = a ∧ r = .ok a) (liftM r) (liftM r) := by
  intro l k hl
  rw [look_lift, look_lift]
  cases r with
  | ok a => exact .ok ⟨rfl, rfl⟩ hl
  | error e => exact .error

theorem imp {R' : α → β → Prop} {m : ListingM α} {n : ListingM β}
    (hm : ListingM.Relates s t S R m n) (h : ∀ a b, R a b → R' a b) :
    ListingM.Relates s t S R' m n := by
  intro l k hl
  have hout := hm l k hl
  generalize m.look s l = x at hout ⊢
  generalize n.look t k = y at hout ⊢
  cases hout with
  | ok hr hl => exact .ok (h _ _ hr) hl
  | error => exact .error

theorem action_look {m n : Action α} (h : n.look t = m.look s) :
    ListingM.Relates s t S (fun a b => b = a ∧ m.look s = .ok a) (liftM m) (liftM n) := by
  intro l k hl
  rw [look_action, look_action, h]
  cases m.look s with
  | ok a => exact .ok ⟨rfl, rfl⟩ hl
  | error e => exact .error

theorem action_of {m n : Action α} {Q : α → Prop} (h : n.look t = m.look s) (hm : m.Reads Q) :
    ListingM.Relates s t S (fun a b => b = a ∧ Q a) (liftM m) (liftM n) :=
  (action_look h).imp fun _ _ hr => ⟨hr.1, hm.look hr.2⟩

theorem action {m n : Action α} (h : n.look t = m.look s) :
    ListingM.Relates s t S Eq (liftM m) (liftM n) :=
  (action_look h).imp fun _ _ hr => hr.1.symm

theorem store {c : StoreCall} {R : c.Answer → c.Answer → Prop}
    (h : R (s.answer c).1 (t.answer c).1) :
    ListingM.Relates s t S R (liftM (Action.store c)) (liftM (Action.store c)) :=
  fun _ _ hl => .ok h hl

theorem host_look (h : Handler) (c : HostCall) :
    ListingM.Relates s t S
      (fun a b => b = a ∧ (h.answer c).mapError Error.storage = .ok a)
      (liftM (Action.host h c)) (liftM (Action.host h c)) :=
  action_look (m := Action.host h c) rfl

theorem host (h : Handler) (c : HostCall) :
    ListingM.Relates s t S Eq (liftM (Action.host h c)) (liftM (Action.host h c)) :=
  (host_look h c).imp fun _ _ hr => hr.1.symm

theorem sectionOf (a : Area) (item : ItemId) :
    ListingM.Relates s t S
      (fun sec sec' => sec' = sec ∧ sec.area = a ∧ sec.key = a.sectionKey item)
      (liftM (a.sectionOf item)) (liftM (a.sectionOf item)) :=
  action_of (by rw [Area.look_sectionOf, Area.look_sectionOf]) (a.sectionOf_reads item)

theorem map {m : ListingM α} {n : ListingM β} {f : α → γ} {g : β → δ}
    (hm : ListingM.Relates s t S R m n) (hf : ∀ a b, R a b → Q (f a) (g b)) :
    ListingM.Relates s t S Q (f <$> m) (g <$> n) :=
  bind hm fun a b hr => pure (hf a b hr)

theorem mapM {f g : α → ListingM β} {l : List α}
    (hf : ∀ a ∈ l, ListingM.Relates s t S Eq (f a) (g a)) :
    ListingM.Relates s t S Eq (l.mapM f) (l.mapM g) := by
  induction l with
  | nil => exact pure rfl
  | cons a l ih =>
    obtain ⟨ha, hl⟩ := List.forall_mem_cons.1 hf
    rw [List.mapM_cons, List.mapM_cons]
    refine bind ha fun b _ hb => bind (ih hl) fun bs _ hbs => pure ?_
    rw [hb, hbs]

theorem left {m : ListingM γ} {c : γ} {f : γ → ListingM α} {n : ListingM β}
    (hm : ∀ l k, S l k → ∃ l', m.look s l = (.ok c, l') ∧ S l' k)
    (hf : ListingM.Relates s t S R (f c) n) : ListingM.Relates s t S R (m >>= f) n := by
  intro l k hl
  obtain ⟨l', hlook, hl'⟩ := hm l k hl
  rw [look_bind_of hlook]
  exact hf l' k hl'

theorem right {n : ListingM γ} {c : γ} {g : γ → ListingM β} {m : ListingM α}
    (hn : ∀ l k, S l k → ∃ k', n.look t k = (.ok c, k') ∧ S l k')
    (hg : ListingM.Relates s t S R m (g c)) : ListingM.Relates s t S R m (n >>= g) := by
  intro l k hl
  obtain ⟨k', hlook, hk'⟩ := hn l k hl
  rw [look_bind_of hlook]
  exact hg l k' hk'

theorem filterMapM {f : α → ListingM (Option γ)} {g : β → ListingM (Option γ)}
    (hf : ∀ a b, R a b → ListingM.Relates s t S Eq (f a) (g b)) {as : List α} {bs : List β}
    (h : List.Forall₂ R as bs) :
    ListingM.Relates s t S Eq (as.filterMapM f) (bs.filterMapM g) := by
  suffices hloop : ∀ found : List γ, ListingM.Relates s t S Eq
      (List.filterMapM.loop f as found) (List.filterMapM.loop g bs found) from hloop []
  induction h with
  | nil => exact fun found => pure rfl
  | cons hab _ ih =>
    intro found
    refine bind (hf _ _ hab) fun c _ hc => ?_
    rw [← hc]
    cases c <;> exact ih _

end ListingM.Relates

/-- Related listings are for the same viewer and of the same place, and cover the same of it. -/
structure Listing.Tracks (S : Listing → Listing → Prop) : Prop where
  place : ∀ {l k}, S l k → k.place = l.place
  params : ∀ {l k}, S l k → k.params = l.params
  viewer : ∀ {l k}, S l k → k.viewer = l.viewer
  reach : ∀ {l k}, S l k → k.reach = l.reach
  setReach : ∀ {l k}, S l k → ∀ reach, S { l with reach } { k with reach }

namespace Listing

open ListingM

variable {t : Store} {S : Listing → Listing → Prop}

theorem findReach_relates (hS : Tracks S) (a : Area) :
    Relates s t S Eq (findReach a) (findReach a) := by
  apply Relates.bind .get
  intro l k hl
  rw [hS.reach hl, hS.params hl, hS.viewer hl]
  split
  · exact .pure rfl
  · extract_lets viewer rest
    have hrest (children : List ContextId) : Relates s t S Eq (rest children) (rest children) := by
      apply Relates.bind (.host _ _)
      rintro visibility _ rfl
      exact .bind (.modify fun l k hl => hS.setReach hl _) fun _ _ _ => .pure rfl
    split
    · exact .bind (.host _ _) fun _ _ hchildren => hchildren ▸ hrest _
    · exact .bind (.pure rfl) fun _ _ hchildren => hchildren ▸ hrest _

theorem selection_relates (hS : Tracks S) (includeReplies : Bool) :
    Relates s t S Eq (selection includeReplies) (selection includeReplies) := by
  apply Relates.bind .get
  intro l k hl
  rw [hS.place hl, hS.params hl]
  dsimp only
  split
  · apply Relates.bind (.pure rfl)
    rintro base _ rfl
    exact .pure rfl
  · apply Relates.bind (findReach_relates hS _)
    rintro reach _ rfl
    apply Relates.bind (.pure rfl)
    rintro base _ rfl
    exact .pure rfl

end Listing

end Discussion
