import Discussion.Proofs.Look
import Discussion.Proofs.Numeral
import Discussion.Proofs.Sorting

namespace Discussion

open ListingM

/-- The child contexts that a viewer's listing of an area covers as well. -/
def Area.children (a : Area) (viewer : Viewer) (wanted : Bool) : Except Error (List ContextId) :=
  if wanted then (a.handler.childContexts a.context viewer.user?).mapError .storage else pure []

/-- The contexts and items that the component of an area lets a viewer's listing cover. -/
def Area.reach (a : Area) (viewer : Viewer) (withChildren : Bool) :
    Except Error (List ContextId × ItemRange) := do
  let children ← a.children viewer withChildren
  let contexts := Listing.addContexts [a.context] children
  let visibility ← (a.handler.visibility contexts viewer.user?).mapError .storage
  return (contexts, visibility.range)

namespace Place

/-- The condition on the rows of a listing. -/
def selection (params : ListingQuery) (viewer : Viewer) (includeReplies : Bool) :
    Place → Except Error Selection
  | .ofSection sec => pure { sec.selection with
      parent := params.parent includeReplies
      timeFrom := params.timeFrom
      timeTo := params.timeTo }
  | .ofArea a => do
    let (contexts, items) ← a.reach viewer params.includeChildContexts
    return { a.selection with
      contexts, items
      parent := params.parent includeReplies
      timeFrom := params.timeFrom
      timeTo := params.timeTo }

/-- Whether the viewer may see the section of a row. -/
def sees (site : Site) (viewer : Viewer) (key : SectionKey) : Place → Except Error Bool
  | .ofSection sec => Listing.admits site viewer sec
  | .ofArea a => do
    let host ← (a.handler.item key).mapError .storage
    Listing.admits site viewer ⟨a.withContext key.context, key, host⟩

end Place

/-- The listings of a place for one viewer differ in the replies and the times that they cover. -/
theorem Place.selection_of {place : Place} {params : ListingQuery} {viewer : Viewer}
    {includeReplies : Bool} {f : Selection}
    (h : place.selection params viewer includeReplies = .ok f) (other : ListingQuery)
    (hother : other.includeChildContexts = params.includeChildContexts) (withReplies : Bool) :
    place.selection other viewer withReplies = .ok { f with
      parent := other.parent withReplies
      timeFrom := other.timeFrom
      timeTo := other.timeTo } := by
  cases place with
  | ofSection sec =>
    obtain rfl := Except.ok.inj h
    rfl
  | ofArea a =>
    obtain ⟨reach, hreach, h⟩ := exists_of_bind_eq_ok h
    obtain rfl := Except.ok.inj h
    rw [selection, hother, hreach]
    rfl

theorem Selection.coversSection_of_covers {f : Selection} {r : StoredComment} (h : f.covers r) :
    f.coversSection r.key := by
  rw [covers, Bool.and_eq_true, Bool.and_eq_true] at h
  exact h.1.1

theorem Place.key_of_coversSection {params : ListingQuery} {viewer : Viewer} {includeReplies : Bool}
    {a : Area} {f : Selection}
    (hf : (Place.ofArea a).selection params viewer includeReplies = .ok f) {key : SectionKey}
    (hkey : f.coversSection key) : key.component = a.component ∧ key.area = a.name := by
  obtain ⟨reach, -, hf⟩ := exists_of_bind_eq_ok hf
  obtain rfl := Except.ok.inj hf
  rw [Selection.coversSection, Bool.and_eq_true, Bool.and_eq_true, Bool.and_eq_true] at hkey
  exact ⟨beq_iff_eq.1 hkey.1.1.1, beq_iff_eq.1 hkey.1.1.2⟩

theorem Place.key_of_covers {params : ListingQuery} {viewer : Viewer} {includeReplies : Bool}
    {a : Area} {f : Selection}
    (hf : (Place.ofArea a).selection params viewer includeReplies = .ok f) {r : StoredComment}
    (hr : f.covers r) : r.key.component = a.component ∧ r.key.area = a.name :=
  key_of_coversSection hf (Selection.coversSection_of_covers hr)

namespace Listing

variable {s : Store} {l : Listing} {site : Site}

theorem look_host {h : Handler} {c : HostCall} {answer : c.Answer}
    (hc : (h.answer c).mapError Error.storage = .ok answer) :
    (liftM (Action.host h c) : ListingM _).look s l = (.ok answer, l) := by
  rw [look_action, Action.look_host, hc]

theorem look_findReach {a : Area} {reach : List ContextId × ItemRange} (hnew : l.reach = none)
    (hreach : a.reach l.viewer l.params.includeChildContexts = .ok reach) :
    (findReach a).look s l = (.ok reach, { l with reach := some reach }) := by
  obtain ⟨children, hchildren, hreach⟩ := exists_of_bind_eq_ok hreach
  unfold Area.children at hchildren
  obtain ⟨visibility, hvisibility, hreach⟩ := exists_of_bind_eq_ok hreach
  obtain rfl := Except.ok.inj hreach
  have hvisibility : (liftM (Action.host a.handler _) : ListingM _).look s l = _ :=
    look_host (c := .visibility _ _) hvisibility
  unfold findReach
  rw [look_bind_of look_get, hnew]
  dsimp only
  split
  next hwith =>
    rw [if_pos hwith] at hchildren
    rw [look_bind_of (look_host (c := .childContexts _ _) hchildren), look_bind_of hvisibility]
    rfl
  next hwithout =>
    rw [if_neg hwithout] at hchildren
    obtain rfl := Except.ok.inj hchildren
    rw [look_bind_of (look_pure _), look_bind_of hvisibility]
    rfl

theorem look_findReach_fst {a : Area} (hnew : l.reach = none) :
    ((findReach a).look s l).1 = a.reach l.viewer l.params.includeChildContexts := by
  unfold findReach Area.reach Area.children
  rw [look_bind_of look_get, hnew]
  dsimp only
  split
  · rw [look_bind_fst, look_action, Action.look_host]
    refine congrArg _ (funext fun children => ?_)
    rw [look_bind_fst, look_action, Action.look_host]
    rfl
  · rw [look_bind_of (look_pure _), look_bind_fst, look_action, Action.look_host]
    rfl

theorem look_selection_fst {includeReplies : Bool} (hnew : l.reach = none) :
    ((selection includeReplies).look s l).1 =
      l.place.selection l.params l.viewer includeReplies := by
  unfold selection
  rw [look_bind_of look_get]
  cases l.place with
  | ofSection sec => rfl
  | ofArea a =>
    dsimp only
    rw [look_bind_fst, look_findReach_fst hnew]
    rfl

theorem look_selection {includeReplies : Bool} {f : Selection} (hnew : l.reach = none)
    (hf : l.place.selection l.params l.viewer includeReplies = .ok f) :
    ∃ reach, (selection includeReplies).look s l = (.ok f, { l with reach }) := by
  obtain ⟨place, params, viewer⟩ := l
  subst hnew
  cases place with
  | ofSection sec =>
    obtain rfl := Except.ok.inj hf
    exact ⟨none, rfl⟩
  | ofArea a =>
    obtain ⟨reach, hreach, hf⟩ := exists_of_bind_eq_ok hf
    obtain rfl := Except.ok.inj hf
    refine ⟨some reach, ?_⟩
    unfold selection
    rw [look_bind_of look_get]
    dsimp only
    rw [look_bind_of (look_findReach rfl hreach)]
    rfl

/-- What is kept of the sections of an area tells whether the viewer may see them. -/
def Recalls (a : Area) (sees : SectionKey → Bool) (sections : Dictionary (Option Section)) : Prop :=
  ∀ key, key.component = a.component → key.area = a.name →
    ∀ known, Dictionary.find? sections key.unique = some known → known.isSome = sees key

theorem recalls_nil (a : Area) (sees : SectionKey → Bool) : Recalls a sees [] :=
  fun _ _ _ _ h => nomatch h

theorem Recalls.insert {a : Area} {sees : SectionKey → Bool}
    {sections : Dictionary (Option Section)} (h : Recalls a sees sections) {key : SectionKey}
    (hcomponent : key.component = a.component) (harea : key.area = a.name)
    {known : Option Section} (hknown : known.isSome = sees key) :
    Recalls a sees (Dictionary.insert sections key.unique known) := by
  intro other hother hname found hfound
  rw [Dictionary.find?_insert] at hfound
  split at hfound
  next hsame =>
    obtain rfl := Option.some.inj hfound
    rw [SectionKey.unique_inj (hother.trans hcomponent.symm) (hname.trans harea.symm) hsame.symm]
    exact hknown
  next => exact h other hother hname found hfound

theorem look_accept_new {a : Area} {r : StoredComment} (hcomponent : r.key.component = a.component)
    (harea : r.key.area = a.name) (hnew : Dictionary.find? l.sections r.key.unique = none)
    {seen : Bool} (hsees : (Place.ofArea a).sees site l.viewer r.key = .ok seen) :
    ∃ known : Option Section, known.isSome = seen ∧ (accept site a r).look s l =
      (.ok seen, { l with sections := Dictionary.insert l.sections r.key.unique known }) := by
  obtain ⟨host, hhost, hadmits⟩ := exists_of_bind_eq_ok hsees
  -- The key that the area gives to the item is the key of the row.
  have hkey : (a.withContext r.key.context).sectionKey r.key.item = r.key := by
    rw [Area.withContext, Area.sectionKey, ← hcomponent, ← harea]
  have hsection : ((a.withContext r.key.context).sectionOf r.key.item).look s =
      .ok ⟨a.withContext r.key.context, r.key, host⟩ := by
    rw [Area.look_sectionOf, hkey]
    change (Except.mapError Error.storage (a.handler.item r.key) >>= _) = _
    rw [hhost]
    rfl
  refine ⟨if seen then some ⟨a.withContext r.key.context, r.key, host⟩ else none, ?_, ?_⟩
  · cases seen <;> rfl
  · unfold accept
    rw [look_bind_of look_get, hnew]
    dsimp only
    rw [look_bind, look_action, hsection]
    dsimp only
    rw [hadmits, look_bind_of (look_lift _)]
    rfl

theorem look_accept {a : Area} {sees : SectionKey → Bool} (hsections : Recalls a sees l.sections)
    {r : StoredComment} (hcomponent : r.key.component = a.component) (harea : r.key.area = a.name)
    (hsees : (Place.ofArea a).sees site l.viewer r.key = .ok (sees r.key)) :
    ∃ sections, Recalls a sees sections ∧
      (accept site a r).look s l = (.ok (sees r.key), { l with sections }) := by
  cases hfind : Dictionary.find? l.sections r.key.unique with
  | some known =>
    refine ⟨l.sections, hsections, ?_⟩
    unfold accept
    rw [look_bind_of look_get, ← hsections r.key hcomponent harea known hfind, hfind]
    rfl
  | none =>
    obtain ⟨known, hknown, hlook⟩ := look_accept_new hcomponent harea hfind hsees
    exact ⟨_, hsections.insert hcomponent harea hknown, hlook⟩

theorem look_acceptAll {a : Area} {sees : SectionKey → Bool} {rows : List StoredComment}
    (hrows : ∀ r ∈ rows, r.key.component = a.component ∧ r.key.area = a.name ∧
      (Place.ofArea a).sees site l.viewer r.key = .ok (sees r.key))
    (hsections : Recalls a sees l.sections) :
    ∃ l', (acceptAll site a rows).look s l =
      (.ok ((rows.filter fun r => sees r.key).map .ofStored), l') := by
  induction rows generalizing l with
  | nil => exact ⟨l, rfl⟩
  | cons r rest ih =>
    obtain ⟨⟨hcomponent, harea, hsees⟩, hrest⟩ := List.forall_mem_cons.1 hrows
    obtain ⟨sections, hsections, haccept⟩ := look_accept (s := s) hsections hcomponent harea hsees
    obtain ⟨l', hrest⟩ := ih (l := { l with sections }) hrest hsections
    refine ⟨l', ?_⟩
    rw [acceptAll, look_bind_of haccept, List.filter_cons]
    cases sees r.key with
    | false => exact hrest
    | true =>
      rw [if_pos rfl, look_bind_of hrest]
      rfl

theorem look_fetchRows {f : Selection} (hnew : l.reach = none) (hmany : l.params.comment = none)
    (hf : l.place.selection l.params l.viewer l.params.includeReplies = .ok f) :
    ∃ reach, fetchRows.look s l =
      (.ok (s.select f l.params.sort (Slice.ofPage? l.params.page l.params.pageSize)),
        { l with reach }) := by
  obtain ⟨reach, hselection⟩ := look_selection (s := s) hnew hf
  refine ⟨reach, ?_⟩
  unfold fetchRows
  rw [look_bind_of look_get, hmany]
  dsimp only
  rw [look_bind_of hselection]
  rfl

/-- The rows of the page of a listing that nothing has been found out of yet. -/
def pageRows (s : Store) (f : Selection) (params : ListingQuery) : List StoredComment :=
  s.select f params.sort (Slice.ofPage? params.page params.pageSize)

/-- Of the rows that a listing fetches it keeps those whose sections the viewer may see. -/
theorem look_fetch {rows : List StoredComment} {sees : SectionKey → Bool}
    (hsections : l.sections = []) {reach : Option (List ContextId × ItemRange)}
    (hrows : fetchRows.look s l = (.ok rows, { l with reach }))
    {visible : Bool} (hvisible : isVisible site l = .ok visible)
    (hkeys : ∀ a, l.place = .ofArea a → ∀ r ∈ rows,
      r.key.component = a.component ∧ r.key.area = a.name)
    (hsees : ∀ r ∈ rows, l.place.sees site l.viewer r.key = .ok (sees r.key)) :
    ∃ l', (fetch site).look s l = (.ok ((rows.filter fun r => sees r.key).map .ofStored), l') := by
  unfold fetch
  rw [look_bind_of look_get, hvisible, look_bind_of (look_lift _)]
  unfold isVisible at hvisible
  cases hplace : l.place with
  | ofSection sec =>
    rw [hplace] at hvisible hsees
    have hsame : ∀ r ∈ rows, sees r.key = visible := fun r hr =>
      Except.ok.inj ((hsees r hr).symm.trans hvisible)
    cases visible with
    | false =>
      rw [List.filter_eq_nil_iff.2 fun r hr => by rw [hsame r hr]; exact Bool.false_ne_true]
      exact ⟨l, rfl⟩
    | true =>
      rw [List.filter_eq_self.2 hsame, Bool.not_true, if_neg Bool.false_ne_true, look_bind_of hrows]
      exact ⟨{ l with reach }, rfl⟩
  | ofArea a =>
    rw [hplace] at hvisible hsees
    obtain rfl := Except.ok.inj hvisible
    have hallowed : ∀ r ∈ rows, r.key.component = a.component ∧ r.key.area = a.name ∧
        (Place.ofArea a).sees site l.viewer r.key = .ok (sees r.key) := fun r hr =>
      ⟨(hkeys a hplace r hr).1, (hkeys a hplace r hr).2, hsees r hr⟩
    rw [Bool.not_true, if_neg Bool.false_ne_true, look_bind_of hrows]
    exact look_acceptAll hallowed (hsections ▸ recalls_nil a sees)

theorem look_all_of_fetch {comments : List Comment} (hresults : l.results = none)
    (hfetch : ∃ l', (fetch site).look s l = (.ok comments, l')) :
    ∃ l', (all site).look s l = (.ok comments, l') := by
  obtain ⟨l', hfetch⟩ := hfetch
  refine ⟨{ l' with results := some comments }, ?_⟩
  unfold all
  rw [look_bind_of look_get, hresults]
  dsimp only
  rw [look_bind_of hfetch]
  rfl

theorem look_all {f : Selection} {sees : SectionKey → Bool} (hnew : l.reach = none)
    (hresults : l.results = none) (hsections : l.sections = []) (hmany : l.params.comment = none)
    (hf : l.place.selection l.params l.viewer l.params.includeReplies = .ok f)
    (hadmits : ∀ sec, ∃ seen, admits site l.viewer sec = .ok seen)
    (hsees : ∀ r ∈ s.comments, f.covers r → l.place.sees site l.viewer r.key = .ok (sees r.key)) :
    ((all site).look s l).1 =
      .ok (((pageRows s f l.params).filter fun r => sees r.key).map .ofStored) := by
  obtain ⟨reach, hrows⟩ := look_fetchRows (s := s) hnew hmany hf
  obtain ⟨visible, hvisible⟩ : ∃ visible, isVisible site l = .ok visible := by
    unfold isVisible
    split
    · exact hadmits _
    · exact ⟨true, rfl⟩
  have hfetch := look_fetch hsections hrows hvisible
    (fun a ha r hr => Place.key_of_covers (ha ▸ hf) (Store.covers_of_mem_select hr).2)
    fun r hr => hsees r (Store.covers_of_mem_select hr).1 (Store.covers_of_mem_select hr).2
  obtain ⟨l', hall⟩ := look_all_of_fetch hresults hfetch
  rw [hall]
  rfl

def page (site : Site) (place : Place) (params : ListingQuery) (viewer : Viewer)
    (order : SortOrder) (k size : Int) : Action (List Comment) :=
  (all site).eval
    { place, params := { params with sort := order, page := k, pageSize := size }, viewer }

def shown (sees : SectionKey → Bool) (rows : List StoredComment) : List Comment :=
  (rows.filter fun r => sees r.key).map .ofStored

theorem shown_reverse (sees : SectionKey → Bool) (rows : List StoredComment) :
    shown sees rows.reverse = (shown sees rows).reverse := by
  rw [shown, List.filter_reverse, List.map_reverse, shown]

theorem shown_flatMap {α : Type} (sees : SectionKey → Bool) (l : List α)
    (f : α → List StoredComment) :
    shown sees (l.flatMap f) = l.flatMap fun a => shown sees (f a) := by
  rw [shown, List.filter_flatMap, List.map_flatMap]
  rfl

theorem mapM_ok {α β : Type} {f : α → Except Error β} {g : α → β} {l : List α}
    (h : ∀ a ∈ l, f a = .ok (g a)) : l.mapM f = .ok (l.map g) := by
  induction l with
  | nil => rfl
  | cons a l ih =>
    obtain ⟨ha, hl⟩ := List.forall_mem_cons.1 h
    rw [List.mapM_cons, ha, ih hl]
    rfl

/-- Pages of any size cut the matching rows, which are in strict order, into pieces without gaps; and
of these rows they hold those that may be seen. Without a limit one page holds them all. -/
structure Tiles (w : World) (page : SortOrder → Int → Int → Action (List Comment))
    (matching : List StoredComment) (sees : SectionKey → Bool) (rows : List StoredComment) :
    Prop where
  perm : rows.Perm matching
  earlier : rows.Pairwise StoredComment.EarlierThan
  single : ∀ order (k size : Nat), k ≤ maxNumber → 0 < size → size ≤ maxNumber →
    (page order k size).run.run Faults.never () w =
      (.ok (shown sees (((order.arrange rows).drop (k * size)).take size)), (), w)
  joined : ∀ order (k size : Nat), k ≤ maxNumber → 0 < size → size ≤ maxNumber →
    ((List.range (k + 1)).mapM fun i : Nat => ((page order i size).run.run Faults.never () w).1).map
      List.flatten = .ok (shown sees ((order.arrange rows).take ((k + 1) * size)))
  unpaged : ∀ order (k size : Int), size ≤ 0 →
    (page order k size).run.run Faults.never () w = (.ok (shown sees (order.arrange rows)), (), w)
  reversed : ∀ k size : Int, size ≤ 0 →
    ((page .descending k size).run.run Faults.never () w).1 =
      ((page .ascending k size).run.run Faults.never () w).1.map List.reverse

/-- Over an unchanged store the pages of a listing tile the rows that the viewer may see. -/
theorem page_tiles {w : World} (hids : (w.store.comments.map (·.id)).Nodup)
    (hfew : w.store.comments.length < maxNumber) {place : Place} {params : ListingQuery}
    {viewer : Viewer} (hmany : params.comment = none) {f : Selection}
    (hf : place.selection params viewer params.includeReplies = .ok f)
    (hadmits : ∀ sec, ∃ seen, admits site viewer sec = .ok seen) {sees : SectionKey → Bool}
    (hsees : ∀ r ∈ w.store.comments, f.covers r →
      place.sees site viewer r.key = .ok (sees r.key)) :
    ∃ rows, Tiles w (page site place params viewer) (w.store.comments.filter f.covers) sees rows := by
  have hmatching : ((w.store.comments.filter f.covers).map (·.id)).Nodup :=
    hids.sublist (List.filter_sublist.map _)
  let rows := Store.sorted (w.store.comments.filter f.covers) .ascending
  have harranged (order : SortOrder) :
      Store.sorted (w.store.comments.filter f.covers) order = order.arrange rows := by
    cases order with
    | ascending => rfl
    | descending => exact Store.sorted_descending hmatching
  have hrun (order : SortOrder) (k size : Int) :
      (page site place params viewer order k size).run.run Faults.never () w =
        (.ok (shown sees (Slice.cut (order.arrange rows) (Slice.ofPage? k size))), (), w) := by
    refine (((all_reads site).eval _).run_never w).trans (Prod.ext ?_ rfl)
    refine (look_eval _ _).trans ((look_all rfl rfl rfl hmany hf hadmits hsees).trans ?_)
    rw [← harranged]
    rfl
  have hlength (order : SortOrder) : ((order.arrange rows).length : Int) ≤ maxNumber := by
    rw [← harranged, (Store.perm_sorted _ order).length_eq]
    have := List.length_filter_le f.covers w.store.comments
    lia
  have hunpaged (order : SortOrder) (k size : Int) (hsize : size ≤ 0) :
      (page site place params viewer order k size).run.run Faults.never () w =
        (.ok (shown sees (order.arrange rows)), (), w) := by
    rw [hrun, Slice.ofPage?, if_neg (Int.not_lt.2 hsize)]
    rfl
  exact ⟨rows, {
    perm := Store.perm_sorted _ .ascending
    earlier := Store.pairwise_earlier hmatching
    single := by
      intro order k size _ hsize _
      rw [hrun, Slice.cut_ofPage? (hlength order) k hsize]
    joined := by
      intro order k size _ hsize _
      rw [mapM_ok (g := fun i => shown sees (((order.arrange rows).drop (i * size)).take size))
        fun i _ => ?_]
      · rw [← Slice.flatMap_pages, shown_flatMap]
        rfl
      · rw [hrun, Slice.cut_ofPage? (hlength order) i hsize]
    unpaged := hunpaged
    reversed := by
      intro k size hsize
      rw [hunpaged .descending k size hsize, hunpaged .ascending k size hsize]
      exact congrArg Except.ok (shown_reverse sees rows) }⟩

/-- The wiki with two pages, the second of which nobody may see. -/
def secretPage : Area where
  component := "wiki"
  name := "talk"
  context := 1
  options := {}
  handler := { item := fun _ => pure (.plain "Page" "/page")
               visibility := fun _ _ => pure .all
               capability := fun key c => { c.toCapability with mayView := key.item == 1 } }

/-- All but the last comment are of the same second. -/
def fourComments : World where
  store :=
    let row (id item seconds : Int) : StoredComment :=
      { (default : StoredComment) with
        id, key := ⟨"wiki", "talk", 1, item⟩, timeCreated := ⟨seconds, 0⟩ }
    { comments := [row 1 1 5, row 2 2 5, row 3 1 5, row 4 1 3], lastId := 4 }

theorem page_tiles_secretPage :
    let site : Site := { permissions := fun _ _ _ => true, settings := {}, now := ⟨0, 0⟩ }
    let sees (key : SectionKey) : Bool := key.item == 1
    ∃ rows, Tiles fourComments
        (page site (.ofArea secretPage) { includeReplies := true } .guest)
        fourComments.store.comments sees rows ∧
      (fourComments.store.comments.filter fun r => sees r.key).map (·.id) = [1, 3, 4] := by
  intro site sees
  let params : ListingQuery := { includeReplies := true }
  have hsees : ∀ r ∈ fourComments.store.comments, secretPage.selection.covers r →
      (Place.ofArea secretPage).sees site .guest r.key = .ok (sees r.key) := by
    simp only [fourComments, List.forall_mem_cons]
    exact ⟨fun _ => rfl, fun _ => rfl, fun _ => rfl, fun _ => rfl, fun _ h => nomatch h⟩
  obtain ⟨rows, htiles⟩ := page_tiles (by decide) (by decide)
    (show params.comment = none from rfl) rfl (fun sec => ⟨_, rfl⟩) hsees
  exact ⟨rows, htiles, by decide⟩

end Listing

end Discussion
