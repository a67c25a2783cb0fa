import Discussion.Proofs.Look

namespace Discussion

variable {α β γ : Type} {s : Store} {l : Listing} {E : Error → Prop}

/-- Where the store answers everything, a result of the computation satisfies a condition with the
listing then, and so does an error. -/
def ListingM.Settles (s : Store) (E : Error → Prop) (m : ListingM α) (l : Listing)
    (Q : α → Listing → Prop) : Prop :=
  match m.look s l with
  | (.ok a, l') => Q a l'
  | (.error e, _) => E e

namespace ListingM.Settles

variable {m : ListingM α} {g : α → ListingM β} {Q Q' : α → Listing → Prop}
variable {R : β → Listing → Prop}

theorem of_look {r : Except Error α} {l' : Listing} (h : m.look s l = (r, l'))
    (hok : ∀ a, r = .ok a → Q a l') (herror : ∀ e, r = .error e → E e) : m.Settles s E l Q := by
  rw [Settles, h]
  cases r with
  | ok a => exact hok a rfl
  | error e => exact herror e rfl

theorem of_ok (hm : m.Settles s E l Q) {a : α} (h : (m.look s l).1 = .ok a) : ∃ l', Q a l' := by
  unfold Settles at hm
  split at hm
  next hlook =>
    rw [hlook] at h
    exact ⟨_, Except.ok.inj h ▸ hm⟩
  next hlook =>
    rw [hlook] at h
    cases h

theorem of_error (hm : m.Settles s E l Q) {e : Error} (h : (m.look s l).1 = .error e) : E e := by
  unfold Settles at hm
  split at hm
  next hlook =>
    rw [hlook] at h
    cases h
  next hlook =>
    rw [hlook] at h
    exact Except.error.inj h ▸ hm

theorem exists_ok (hm : m.Settles s (fun _ => False) l Q) :
    ∃ a l', m.look s l = (.ok a, l') ∧ Q a l' := by
  unfold Settles at hm
  split at hm
  next hlook => exact ⟨_, _, hlook, hm⟩
  next => exact hm.elim

theorem pure {a : α} (h : Q a l) : (Pure.pure a : ListingM α).Settles s E l Q := h

theorem imp (h : m.Settles s E l Q) (hQ : ∀ a l', Q a l' → Q' a l') : m.Settles s E l Q' := by
  unfold Settles at h ⊢
  split
  next heq => exact hQ _ _ (by rwa [heq] at h)
  next heq => rwa [heq] at h

theorem bind (hm : m.Settles s E l Q) (hg : ∀ a l', Q a l' → (g a).Settles s E l' R) :
    (m >>= g).Settles s E l R := by
  unfold Settles at hm
  rw [Settles, look_bind]
  generalize m.look s l = found at hm
  obtain ⟨r, l'⟩ := found
  cases r with
  | ok a => exact hg a l' hm
  | error e => exact hm

theorem get_bind {g : Listing → ListingM β} (h : (g l).Settles s E l R) :
    ((MonadState.get : ListingM Listing) >>= g).Settles s E l R :=
  bind (Q := fun k l' => k = l ∧ l' = l) ⟨rfl, rfl⟩ fun _ _ ⟨hk, hl⟩ => hk ▸ hl ▸ h

theorem modify {f : Listing → Listing} {R : Unit → Listing → Prop} (h : R () (f l)) :
    (modifyGet fun l => ((), f l) : ListingM Unit).Settles s E l R := h

theorem lift (r : Except Error α) (herror : ∀ e, r = .error e → E e) :
    (liftM r : ListingM α).Settles s E l fun a l' => r = .ok a ∧ l' = l :=
  of_look (look_lift r) (fun _ ha => ⟨ha, rfl⟩) herror

theorem action (m : Action α) (herror : ∀ e, m.look s = .error e → E e) :
    (liftM m : ListingM α).Settles s E l fun a l' => m.look s = .ok a ∧ l' = l :=
  of_look (look_action m) (fun _ ha => ⟨ha, rfl⟩) herror

theorem host (h : Handler) (c : HostCall)
    (herror : ∀ e, (h.answer c).mapError Error.storage = .error e → E e) :
    (liftM (Action.host h c) : ListingM _).Settles s E l fun a l' =>
      (h.answer c).mapError Error.storage = .ok a ∧ l' = l :=
  action (Action.host h c) herror

theorem store (c : StoreCall) : (liftM (Action.store c) : ListingM _).Settles s E l fun a l' =>
    a = (s.answer c).1 ∧ l' = l :=
  show (s.answer c).1 = (s.answer c).1 ∧ l = l from ⟨rfl, rfl⟩

/-- What holds of the listing at each step is an invariant, and what is found at each step is found of
each element. -/
theorem mapM {I : Listing → Prop} {f : α → ListingM β} {P : α → β → Prop} {as : List α}
    (hf : ∀ a ∈ as, ∀ l, I l → (f a).Settles s E l fun b l' => P a b ∧ I l') (hl : I l) :
    (as.mapM f).Settles s E l fun bs l' => List.Forall₂ P as bs ∧ I l' := by
  induction as generalizing l with
  | nil => exact pure ⟨.nil, hl⟩
  | cons a as ih =>
    obtain ⟨ha, has⟩ := List.forall_mem_cons.1 hf
    rw [List.mapM_cons]
    exact bind (ha l hl) fun b l' hb => bind (ih has hb.2) fun bs l'' hbs =>
      pure ⟨.cons hb.1 hbs.1, hbs.2⟩

theorem filterMapM {I : Listing → Prop} {f : α → ListingM (Option β)} {P : α → β → Prop}
    {as : List α} (hf : ∀ a ∈ as, ∀ l, I l → (f a).Settles s E l fun b l' =>
      (∃ c, b = some c ∧ P a c) ∧ I l') (hl : I l) :
    (as.filterMapM f).Settles s E l fun bs l' => List.Forall₂ P as bs ∧ I l' := by
  suffices hloop : ∀ found : List β, (List.filterMapM.loop f as found).Settles s E l fun bs l' =>
      (∃ rest, bs = found.reverse ++ rest ∧ List.Forall₂ P as rest) ∧ I l' by
    refine (hloop []).imp fun bs l' hbs => ⟨?_, hbs.2⟩
    obtain ⟨rest, rfl, hrest⟩ := hbs.1
    exact hrest
  induction as generalizing l with
  | nil => exact fun found => pure ⟨⟨[], (List.append_nil _).symm, .nil⟩, hl⟩
  | cons a as ih =>
    obtain ⟨ha, has⟩ := List.forall_mem_cons.1 hf
    intro found
    apply bind (ha l hl)
    rintro _ l' ⟨⟨c, rfl, hc⟩, hl'⟩
    refine (ih has hl' (c :: found)).imp fun bs l'' hbs => ⟨?_, hbs.2⟩
    obtain ⟨rest, rfl, hrest⟩ := hbs.1
    exact ⟨c :: rest, by rw [List.reverse_cons, List.append_assoc]; rfl, .cons hc hrest⟩

end ListingM.Settles

end Discussion
