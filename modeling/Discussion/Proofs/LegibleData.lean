import Discussion.Proofs.AreaPages
import Discussion.Proofs.JsonExact
import Discussion.Proofs.Law
import Discussion.Proofs.Pseudonym

namespace Discussion

variable {α β : Type} {s : Store} {w : World}

/-- The stored text was written of the fields that a given text has. It can be read again, and where
all numbers are integers it has the same fields, so that written once more it stays as it is. -/
def CustomData.StandsFor (stored json : String) : Prop :=
  ∃ fields, fieldsOf json = .ok fields ∧ textOf fields = stored ∧
    (∃ read, fieldsOf stored = .ok read) ∧
      (Json.haveWhole fields → fieldsOf stored = .ok fields)

theorem CustomData.standsFor_textOf {json : String} {fields : Json.Fields}
    (h : fieldsOf json = .ok fields) : StandsFor (textOf fields) json :=
  ⟨fields, h, rfl, fieldsOf_textOf h, fieldsOf_textOf_eq h⟩

theorem Prepared.check_standsFor {sec : Section} {cap : Capability} {comment : Comment}
    {id : Option CommentId} {p : Prepared} {json : String} (h : check sec cap comment id = .ok p)
    (hasIs : sec.handler.SavesAsIs) (hdata : comment.customData = .text json) :
    CustomData.StandsFor p.comment.packed.toStored.customData json := by
  obtain ⟨fields, hread, -, hp⟩ := check_asIs h hasIs
  rw [hdata] at hread
  rw [hp]
  dsimp only [Comment.toStored, Comment.packed, CustomData.asText, CustomData.toText]
  exact CustomData.standsFor_textOf hread

/-- All custom data that is stored can be read. -/
def Store.Legible (s : Store) : Prop :=
  ∀ c ∈ s.comments, ∃ fields, CustomData.fieldsOf c.customData = .ok fields

namespace Forum

variable {f : Forum}

/-- No comment is stored with custom data that cannot be read. -/
def legibleLaw : Law where
  entry e := ∃ fields, CustomData.fieldsOf e.wording.customData = .ok fields
  vote _ _ := True
  choice _ := True

theorem legibleLaw_admits (hf : ∀ d ∈ f.areas, d.handler.SavesAsIs) (op : Operation) :
    legibleLaw.policy.Admits f op where
  adds := by
    intro user req p _ hp _ _
    obtain ⟨-, -, -, hread, -⟩ := Prepared.check_standsFor hp.checked (hp.serves.handler hf) rfl
    exact hread
  revises := by
    intro user req x p _ _ hp
    obtain ⟨edited, -, hchecked⟩ := hp.checked
    obtain ⟨-, -, -, hread, -⟩ := Prepared.check_standsFor hchecked (hp.serves.handler hf) rfl
    exact hread
  votes := fun _ _ _ _ => trivial
  chooses := fun _ _ => trivial

end Forum

section Stored

variable {allowed : Forum → Operation → Prop}
variable (hallowed : ∀ f op, allowed f op → ∀ d ∈ f.areas, d.handler.SavesAsIs)

include hallowed

/-- Where components leave comments as they are, all that is ever stored can be read, in whatever
order operations do what comes next and whichever calls fail. -/
theorem Store.legible_of_runs {t : Traffic}
    (ht : Traffic.Runs allowed (fun _ => True) {} t) : t.world.store.Legible := by
  have hadmits (f : Forum) (op : Operation) (hop : allowed f op) :
      (∀ d ∈ f.areas, d.handler.KeepsId) ∧ Forum.legibleLaw.policy.Admits f op :=
    ⟨fun d hd => (hallowed f op hop d hd).keepsId, Forum.legibleLaw_admits (hallowed f op hop) op⟩
  exact fun c hc => (Law.holds_of_runs hadmits ht).entries _ (mem_entries hc)

theorem Store.legible_of_reached (hw : Reached allowed w) : w.store.Legible :=
  have ⟨_, hps⟩ := Traffic.exists_runs hw
  legible_of_runs hallowed hps

end Stored

theorem bind_ne_error {x : Except Error α} {g : α → Except Error β} {e : Error}
    (hx : x ≠ .error e) (hg : ∀ a, x = .ok a → g a ≠ .error e) : x >>= g ≠ .error e := by
  cases x with
  | ok a => exact hg a rfl
  | error e' => exact fun h => hx (congrArg Except.error (Except.error.inj h))

theorem mapError_storage_ne_customData {x : Except String α} :
    x.mapError Error.storage ≠ .error .customData := by
  cases x <;> nofun

theorem Settings.editingTime_ne_customData {settings : Settings} :
    settings.editingTime ≠ .error .customData := by
  unfold editingTime
  dsimp only
  split <;> nofun

theorem timeBound_ne_customData {name : String} {seconds : Option Int} :
    timeBound name seconds ≠ .error .customData := by
  unfold timeBound
  cases seconds with
  | none => rintro ⟨⟩
  | some seconds =>
    dsimp only
    split <;> rintro ⟨⟩

theorem ListRequest.params_ne_customData {settings : Settings} {req : ListRequest} :
    req.params settings ≠ .error .customData := by
  have hsort : SortOrder.ofName (Text.upper req.sort) ≠ .error .customData := by
    unfold SortOrder.ofName
    split
    · nofun
    · split <;> nofun
  unfold params
  apply bind_ne_error hsort
  rintro sort -
  dsimp only
  split
  · nofun
  split
  · nofun
  apply bind_ne_error timeBound_ne_customData
  rintro timeFrom -
  apply bind_ne_error timeBound_ne_customData
  nofun

namespace Place

variable {params : ListingQuery} {viewer : Viewer} {place : Place}

theorem selection_ne_customData {includeReplies : Bool} :
    place.selection params viewer includeReplies ≠ .error .customData := by
  cases place with
  | ofSection sec => nofun
  | ofArea a =>
    have hchildren : a.children viewer params.includeChildContexts ≠ .error .customData := by
      unfold Area.children
      split
      · exact mapError_storage_ne_customData
      · nofun
    have hreach : a.reach viewer params.includeChildContexts ≠ .error .customData :=
      bind_ne_error hchildren fun _ _ => bind_ne_error mapError_storage_ne_customData nofun
    exact bind_ne_error hreach nofun

theorem locate_ne_customData {key : SectionKey} : place.locate key ≠ .error .customData := by
  cases place with
  | ofSection sec => nofun
  | ofArea a => exact bind_ne_error mapError_storage_ne_customData nofun

end Place

namespace Forum

variable {f : Forum} {user : Option UserId} {req : ListRequest} {params : ListingQuery}

theorem area_ne_customData {component name : String} {context : ContextId} :
    f.area component name context ≠ .error .customData := by
  unfold area
  split <;> nofun

theorem look_sectionOf_ne_customData {key : SectionKey} :
    (f.sectionOf key).look s ≠ .error .customData := by
  unfold Forum.sectionOf
  rw [Action.look_bind, Action.look_lift]
  apply bind_ne_error area_ne_customData
  rintro a -
  rw [Area.look_sectionOf]
  exact bind_ne_error mapError_storage_ne_customData nofun

theorem place_ne_customData : f.place req ≠ .error .customData := by
  unfold place
  split
  · apply bind_ne_error area_ne_customData
    rintro a -
    split
    · exact bind_ne_error mapError_storage_ne_customData nofun
    · nofun
  · nofun

theorem look_openListing_ne_customData :
    (f.openListing user req params).look s ≠ .error .customData := by
  cases hcomment : req.comment with
  | none =>
    rw [look_openListing_place hcomment]
    cases hplace : f.place req with
    | ok place => nofun
    | error e =>
      intro h
      rw [Except.error.inj h] at hplace
      exact place_ne_customData hplace
  | some id =>
    have hfound : (f.comment? id).look s ≠ .error .customData := by
      have hasked : (Action.store (.comment id)).look s = .ok (s.comment? id) := rfl
      unfold comment?
      rw [Action.look_bind_of hasked]
      cases s.comment? id with
      | none => nofun
      | some row =>
        dsimp only
        rw [Action.look_bind]
        apply bind_ne_error look_sectionOf_ne_customData
        intro sec _
        rw [Action.look_pure]
        nofun
    unfold openListing
    rw [hcomment]
    dsimp only
    rw [Action.look_bind]
    apply bind_ne_error hfound
    intro found _
    cases found <;> nofun

/-- Where all custom data can be read, no listing fails for it. -/
theorem list_legible (hs : w.store.Legible) {σ : Type} (faults : Faults σ) (state : σ) :
    ((f.list user req).run.run faults state w).1 ≠ .error .customData := by
  have hpage (place : Place) (params : ListingQuery) : ((Listing.toPage f.site user).look w.store
      { place, params, viewer := .ofUser user }).1 ≠ .error .customData := by
    have hexcuses : Listing.Excuses { place, params, viewer := .ofUser user } f.site w.store
        (· ≠ .customData) := {
      selection := fun _ _ he hdata => Place.selection_ne_customData (hdata ▸ he)
      window := fun _ he hdata => Settings.editingTime_ne_customData (hdata ▸ he)
      located := fun _ _ _ _ _ he hdata => Place.locate_ne_customData (hdata ▸ he)
      readable := by
        intro rows hrows r hr e he
        obtain ⟨fields, hfields⟩ := hs r (Place.rows_inv hrows hr).1
        cases hfields.symm.trans he }
    exact fun h => (Listing.toPage_settles hexcuses).of_error h rfl
  have hlook : (f.list user req).look w.store ≠ .error .customData := by
    unfold list
    rw [Action.look_bind, Action.look_lift]
    apply bind_ne_error ListRequest.params_ne_customData
    rintro params -
    rw [Action.look_bind]
    apply bind_ne_error look_openListing_ne_customData
    intro l hl
    obtain ⟨place, -, rfl⟩ := opens_of_openListing hl
    rw [ListingM.look_eval]
    exact hpage place params
  rcases (f.list_asks user req).run faults state w with hrun | ⟨failure, hrun⟩
  · rwa [hrun]
  · rw [hrun]
    nofun

end Forum

end Discussion
