import Mathlib
import Discussion.Proofs.HiddenSections.Listing

namespace Discussion

/-- The questions that a listing of the place asks the store. -/
def Place.rowQuery (place : Place) (params : ListingQuery) (viewer : Viewer) :
    Except Error RowQuery := do
  let rows ← place.selection params viewer params.includeReplies
  let counted ← place.selection params viewer true
  return ⟨rows, params.sort, Slice.ofPage? params.page params.pageSize, counted⟩

namespace Forum

variable (f : Forum) (user : Option UserId)

/-- Whether a user or guest may view the section with a key, which the component looks up. -/
def sees (key : SectionKey) : Except Error Bool := do
  let a ← f.area key.component key.area key.context
  (Place.ofArea a).sees f.site (.ofUser user) key

/-- The section is there, and the user or guest may not view it. -/
def hides (key : SectionKey) : Bool :=
  match f.sees user key with
  | .ok seen => !seen
  | .error _ => false

/-- The place that a request is about which asks for the comments of a section or an area. -/
def place (req : ListRequest) : Except Error Place :=
  match req.component, req.area, req.context with
  | some component, some area, some context => do
    let a ← f.area component area context
    match req.item with
    | some item => do
      let host ← (a.handler.item (a.sectionKey item)).mapError .storage
      return .ofSection ⟨a, a.sectionKey item, host⟩
    | none => return .ofArea a
  | _, _, _ => throw (.mistake .noScope)

/-- The questions that a request leads to. -/
def rowQuery (req : ListRequest) : Except Error RowQuery := do
  let params ← req.params f.site.settings
  let place ← f.place req
  place.rowQuery params (.ofUser user)

/-- The rows in hidden sections that the total of a page counts. -/
def hiddenRows (req : ListRequest) (s : Store) : Nat :=
  match f.rowQuery user req with
  | .ok q => s.countHidden (f.hides user) q.counted
  | .error _ => 0

end Forum

theorem Place.exists_selection {place : Place} {params : ListingQuery} {viewer : Viewer}
    {includeReplies : Bool} {f : Selection}
    (h : place.selection params viewer includeReplies = .ok f) (withReplies : Bool) :
    ∃ g, place.selection params viewer withReplies = .ok g :=
  ⟨_, Place.selection_of h _ rfl withReplies⟩

namespace Forum

variable {f : Forum} {user : Option UserId}

theorem look_openListing_place {req : ListRequest} (hmany : req.comment = none)
    (params : ListingQuery) : (f.openListing user req params).look s =
      (f.place req).map fun place => { place, params, viewer := .ofUser user } := by
  unfold openListing place
  rw [hmany]
  dsimp only
  generalize req.component = component
  generalize req.area = area
  generalize req.context = context
  match component, area, context with
  | none, _, _ => rfl
  | some _, none, _ => rfl
  | some _, some _, none => rfl
  | some component, some area, some context =>
    dsimp only
    rw [Action.look_bind, Action.look_lift]
    cases f.area component area context with
    | error e => rfl
    | ok a =>
      cases req.item with
      | none => rfl
      | some item =>
        change Action.look s (a.sectionOf item >>= _) = _
        rw [Action.look_bind, Area.look_sectionOf]
        change _ = Except.map _ (Except.mapError Error.storage (a.handler.item _) >>= _)
        cases (a.handler.item (a.sectionKey item)).mapError Error.storage <;> rfl

theorem look_list {req : ListRequest} (hmany : req.comment = none) :
    (f.list user req).look s = (do
      let params ← req.params f.site.settings
      let place ← f.place req
      ((Listing.toPage f.site user).look s { place, params, viewer := .ofUser user }).1) := by
  rw [list, Action.look_bind, Action.look_lift]
  refine congrArg _ (funext fun params => ?_)
  rw [Action.look_bind, look_openListing_place hmany]
  cases f.place req with
  | error e => rfl
  | ok place => exact ListingM.look_eval _ _

theorem area_withContext {component name : String} {context : ContextId} {a : Area}
    (h : f.area component name context = .ok a) (context' : ContextId) :
    a.component = component ∧ a.name = name ∧
      f.area component name context' = .ok (a.withContext context') := by
  unfold area at h ⊢
  split at h
  next d hd =>
    obtain rfl := Except.ok.inj h
    exact ⟨rfl, rfl, rfl⟩
  next => cases h

theorem hides_iff {key : SectionKey} : f.hides user key ↔ f.sees user key = .ok false := by
  unfold hides
  cases f.sees user key with
  | error e => exact ⟨(nomatch ·), (nomatch ·)⟩
  | ok seen => cases seen <;> decide

theorem place_inv {req : ListRequest} {place : Place} (h : f.place req = .ok place) :
    ∃ component name context a, f.area component name context = .ok a ∧
      ((∃ item host, req.item = some item ∧
          (a.handler.item (a.sectionKey item)).mapError Error.storage = .ok host ∧
          place = .ofSection ⟨a, a.sectionKey item, host⟩) ∨
        (req.item = none ∧ place = .ofArea a)) := by
  unfold Forum.place at h
  split at h
  next component name context _ _ _ =>
    obtain ⟨a, ha, h⟩ := exists_of_bind_eq_ok h
    refine ⟨component, name, context, a, ha, ?_⟩
    split at h
    next item hitem =>
      obtain ⟨host, hhost, h⟩ := exists_of_bind_eq_ok h
      exact .inl ⟨item, host, hitem, hhost, (Except.ok.inj h).symm⟩
    next hitem => exact .inr ⟨hitem, (Except.ok.inj h).symm⟩
  next => cases h

theorem place_conceals (user : Option UserId) {req : ListRequest} {place : Place}
    (h : f.place req = .ok place) : place.Conceals f.site (.ofUser user) (f.hides user) := by
  intro key hkey
  rw [hides_iff]
  obtain ⟨component, name, context, a, ha, hplace⟩ := place_inv h
  have hsees (key : SectionKey) (hcomponent : key.component = a.component)
      (hname : key.area = a.name) :
      f.sees user key = (Place.ofArea a).sees f.site (.ofUser user) key := by
    obtain ⟨hc, hn, harea⟩ := area_withContext ha key.context
    rw [sees, hcomponent, hname, hc, hn, harea]
    rfl
  rcases hplace with ⟨item, host, -, hhost, rfl⟩ | ⟨-, rfl⟩
  · obtain rfl : key = a.sectionKey item := hkey
    have hsection : (Place.ofArea a).sees f.site (.ofUser user) (a.sectionKey item) =
        Listing.admits f.site (.ofUser user) ⟨a, a.sectionKey item, host⟩ := by
      rw [Place.sees, hhost]
      rfl
    rw [hsees _ rfl rfl, hsection]
    rfl
  · rw [hsees key hkey.1 hkey.2]

theorem params_comment {settings : Settings} {req : ListRequest} {params : ListingQuery}
    (h : req.params settings = .ok params) : params.comment = req.comment :=
  (ListRequest.params_inv h).1

/-- What a request for comments is answered where no call fails. -/
def listed (f : Forum) (user : Option UserId) (req : ListRequest) (w : World) :
    Except Error CommentPage :=
  ((f.list user req).run.run Faults.never () w).1

/-- The user has chosen the same for the section that the request is about. -/
def ChoseAlike (f : Forum) (user : Option UserId) (req : ListRequest) (s t : Store) : Prop :=
  ∀ sec cap own, f.place req = .ok (.ofSection sec) → sec.capability f.site user = .ok cap →
    cap.user = some own → t.choice? own sec.key none = s.choice? own sec.key none

/-- The page that the request asks for has the same rows outside of hidden sections. That is so if
the page has no limit, or if the hidden rows take the same places among the rows of all pages. -/
def PagesAlike (f : Forum) (user : Option UserId) (req : ListRequest) (s t : Store) : Prop :=
  ∀ q, f.rowQuery user req = .ok q → q.slice = none ∨
    List.Forall₂ (StoredComment.SamePlace (f.hides user)) (q.pages s) (q.pages t) ∨
    outside (f.hides user) (q.page t) = outside (f.hides user) (q.page s)

theorem listed_eq {req : ListRequest} (hmany : req.comment = none) {w : World} :
    f.listed user req w = (do
      let params ← req.params f.site.settings
      let place ← f.place req
      ((Listing.toPage f.site user).look w.store { place, params, viewer := .ofUser user }).1) := by
  rw [listed, Program.Reads.run_never (f.list_reads user req)]
  exact look_list hmany

theorem listed_secluded {s t : Store} {place : Place} {params : ListingQuery}
    {hidden hidden' : Nat} (h : Listing.Secluded (f.hides user) f.site s t hidden hidden'
      { place, params, viewer := .ofUser user })
    (hown : ∀ sec, place = .ofSection sec → ∀ cap, sec.capability f.site user = .ok cap →
      ∀ own, cap.user = some own → t.choice? own sec.key none = s.choice? own sec.key none) :
    ∃ page : Except Error CommentPage,
      ((Listing.toPage f.site user).look s { place, params, viewer := .ofUser user }).1 =
        page.map (·.addTotal hidden) ∧
      ((Listing.toPage f.site user).look t { place, params, viewer := .ofUser user }).1 =
        page.map (·.addTotal hidden') := by
  have hnew : Listing.Veiled (f.hides user) s hidden hidden'
      { place, params, viewer := .ofUser user } { place, params, viewer := .ofUser user }
      { place, params, viewer := .ofUser user } := {
    same := ⟨[], none, none, rfl⟩
    place := rfl, params := rfl, viewer := rfl
    reach := fun _ _ _ h => nomatch h
    results := fun _ h => nomatch h
    sections := fun _ _ => .nil
    totals := .none }
  have hpages := Listing.toPage_veiled h hown _ _ hnew
  generalize (Listing.toPage f.site user).look s _ = page at hpages ⊢
  generalize (Listing.toPage f.site user).look t _ = page' at hpages ⊢
  cases hpages with
  | ok hsame _ =>
    obtain ⟨shown, rfl, rfl⟩ := hsame
    exact ⟨.ok shown, rfl, rfl⟩
  | @error e => exact ⟨.error e, rfl, rfl⟩

/-- Hidden sections show in the page of one section at most by what the user has chosen for it, and
in a page of an area by the places that their rows take and by their number. -/
theorem list_veiled {w w' : World} (hw : w.store.SameOutside (f.hides user) w'.store)
    {req : ListRequest} (hmany : req.comment = none) :
    (req.item.isSome → f.ChoseAlike user req w.store w'.store →
      f.listed user req w' = f.listed user req w) ∧
    (req.item = none → f.PagesAlike user req w.store w'.store → ∃ page : Except Error CommentPage,
      f.listed user req w = page.map (·.addTotal (f.hiddenRows user req w.store)) ∧
      f.listed user req w' = page.map (·.addTotal (f.hiddenRows user req w'.store))) := by
  simp only [listed_eq hmany]
  cases hparams : req.params f.site.settings with
  | error e => exact ⟨fun _ _ => rfl, fun _ _ => ⟨.error e, rfl, rfl⟩⟩
  | ok params =>
    cases hplace : f.place req with
    | error e => exact ⟨fun _ _ => rfl, fun _ _ => ⟨.error e, rfl, rfl⟩⟩
    | ok place =>
      have hone : params.comment = none := (params_comment hparams).trans hmany
      have hconceals := place_conceals user hplace
      obtain ⟨_, _, _, a, -, ⟨item, host, hitem, -, rfl⟩ | ⟨hitem, rfl⟩⟩ := place_inv hplace
      · refine ⟨fun _ hown => ?_, fun hnone => nomatch hitem.symm.trans hnone⟩
        have hstart : Listing.Secluded (f.hides user) f.site w.store w'.store 0 0
            (.ofSection ⟨a, a.sectionKey item, host⟩ params (.ofUser user)) := {
          many := hone
          conceals := hconceals
          same := hw
          page := fun _ h => nomatch h
          counted := fun _ _ => ⟨rfl, rfl⟩ }
        obtain ⟨page, hpage, hpage'⟩ := listed_secluded hstart fun sec hsec cap hcap own hcapown =>
          hown sec cap own (hplace.trans (congrArg Except.ok hsec)) hcap hcapown
        exact hpage'.trans hpage.symm
      · refine ⟨fun hsome => (nomatch hitem ▸ hsome), fun _ hpages => ?_⟩
        have hquery {g counted : Selection}
            (hg : (Place.ofArea a).selection params (.ofUser user) params.includeReplies = .ok g)
            (hcounted : (Place.ofArea a).selection params (.ofUser user) true = .ok counted) :
            f.rowQuery user req =
              .ok ⟨g, params.sort, Slice.ofPage? params.page params.pageSize, counted⟩ := by
          rw [rowQuery, hparams, hplace]
          change (Place.ofArea a).rowQuery params (.ofUser user) = _
          rw [Place.rowQuery, hg, hcounted]
          rfl
        have hstart : Listing.Secluded (f.hides user) f.site w.store w'.store
            (f.hiddenRows user req w.store) (f.hiddenRows user req w'.store)
            (.ofArea a params (.ofUser user)) := {
          many := hone
          conceals := hconceals
          same := hw
          page := by
            intro _ _ g hg
            obtain ⟨counted, hcounted⟩ := Place.exists_selection hg true
            -- Stated before the goal is met, for both sides unfold to whole selections.
            have halike := hw.page (hpages _ (hquery hg hcounted))
            exact halike
          counted := by
            intro counted hcounted
            obtain ⟨g, hg⟩ := Place.exists_selection hcounted params.includeReplies
            rw [hiddenRows, hiddenRows, hquery hg hcounted]
            exact ⟨rfl, rfl⟩ }
        exact listed_secluded hstart fun _ h => nomatch h

/-- A wiki with a second context below the first. Only in the first one may anything be viewed. -/
def annexed : Forum where
  site := {
    permissions := fun permission context _ => permission == Permissions.view && context == 1
    settings := {}
    now := ⟨0, 0⟩ }
  areas := [⟨"wiki", "talk", {}, {
    item := fun _ => pure (.plain "Page" "/page")
    visibility := fun _ _ => pure .all
    childContexts := fun _ _ => pure [2] }⟩]

/-- One comment each in contexts of the wiki. -/
def annex (contexts : List ContextId) : World where
  store := { comments := contexts.map fun context => { (default : StoredComment) with
               id := context, key := ⟨"wiki", "talk", context, 1⟩, timeCreated := ⟨context, 0⟩ }
             lastId := 2 }

theorem annex_sameOutside :
    (annex [1, 2]).store.SameOutside (annexed.hides (some 4)) (annex [1]).store where
  comments := by decide
  upvoted := fun _ _ _ => rfl
  choices := fun _ _ _ _ => rfl
  people := rfl

/-- Asks for all comments of the first context and of those below it. -/
def wholeAnnex : ListRequest where
  component := some "wiki"
  area := some "talk"
  context := some 1
  pageSize := some 0
  includeReplies := true
  includeChildContexts := true

theorem list_veiled_annexed :
    let hidden : ListRequest :=
      { component := some "wiki", area := some "talk", context := some 2, item := some 1 }
    annexed.listed (some 4) hidden (annex [1]) = annexed.listed (some 4) hidden (annex [1, 2]) ∧
      ∃ page : Except Error CommentPage,
        annexed.listed (some 4) wholeAnnex (annex [1, 2]) = page.map (·.addTotal 1) ∧
        annexed.listed (some 4) wholeAnnex (annex [1]) = page.map (·.addTotal 0) := by
  intro hidden
  constructor
  · exact (list_veiled annex_sameOutside rfl).1 rfl fun _ _ _ _ _ _ => rfl
  · let rows : Selection := { component := "wiki", area := "talk", contexts := [1, 2] }
    have hquery : annexed.rowQuery (some 4) wholeAnnex =
        .ok ⟨rows, .descending, none, rows⟩ := rfl
    have hpages : annexed.PagesAlike (some 4) wholeAnnex (annex [1, 2]).store (annex [1]).store :=
      fun q hq => .inl (by rw [← Except.ok.inj (hquery.symm.trans hq)])
    have hhidden (w : World) : annexed.hiddenRows (some 4) wholeAnnex w.store =
        w.store.countHidden (annexed.hides (some 4)) rows := by
      rw [hiddenRows, hquery]
    have hpage := (list_veiled annex_sameOutside rfl).2 rfl hpages
    rwa [hhidden, hhidden] at hpage

/-- A hidden row is counted, and it takes a place on the page. -/
theorem list_unveiled_annexed :
    let ofOne : ListRequest := { wholeAnnex with pageSize := some 1 }
    (annex [1, 2]).store.SameOutside (annexed.hides (some 4)) (annex [1]).store ∧
      ((annexed.listed (some 4) wholeAnnex (annex [1, 2])).map (·.total)).toOption = some 2 ∧
      ((annexed.listed (some 4) wholeAnnex (annex [1])).map (·.total)).toOption = some 1 ∧
      ((annexed.listed (some 4) ofOne (annex [1, 2])).map (·.comments.length)).toOption = some 0 ∧
      ((annexed.listed (some 4) ofOne (annex [1])).map (·.comments.length)).toOption = some 1 := by
  refine ⟨annex_sameOutside, ?_, ?_, ?_, ?_⟩ <;> cbv

end Forum

end Discussion
