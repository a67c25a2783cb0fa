import Discussion.Proofs.HiddenSections.Rows
import Discussion.Proofs.Settling

namespace Discussion

variable {s : Store} {l : Listing} {E : Error → Prop}

namespace Place

/-- The section with a key, as a listing of the place has it. -/
def locate (key : SectionKey) : Place → Except Error Section
  | .ofSection sec => pure sec
  | .ofArea a => do
    let host ← (a.handler.item key).mapError .storage
    return ⟨a.withContext key.context, key, host⟩

/-- The rows of a page, before any are hidden. -/
def rows (s : Store) (params : ListingQuery) (viewer : Viewer) (place : Place) :
    Except Error (List StoredComment) :=
  match params.comment with
  | some id => do
    let f ← place.selection params viewer true
    return ((s.comment? id).filter f.coversAlone).toList
  | none => do
    let f ← place.selection params viewer params.includeReplies
    return Listing.pageRows s f params

/-- The viewer is found to be allowed to see the section with a key. -/
def shows (site : Site) (viewer : Viewer) (place : Place) (key : SectionKey) : Bool :=
  match place.sees site viewer key with
  | .ok seen => seen
  | .error _ => false

variable {site : Site} {viewer : Viewer} {place : Place} {key : SectionKey} {params : ListingQuery}

theorem sees_eq : place.sees site viewer key =
    place.locate key >>= Listing.admits site viewer := by
  cases place with
  | ofSection sec => rfl
  | ofArea a =>
    rw [locate, sees, bind_assoc]
    rfl

theorem shows_eq {seen : Bool} (h : place.sees site viewer key = .ok seen) :
    place.shows site viewer key = seen := by
  rw [shows, h]

theorem shows_iff : place.shows site viewer key ↔ place.sees site viewer key = .ok true := by
  unfold shows
  cases place.sees site viewer key with
  | ok seen => cases seen <;> decide
  | error e => exact ⟨(nomatch ·), (nomatch ·)⟩

theorem filter_shows_unseen {rows : List StoredComment}
    (h : ∀ r ∈ rows, place.sees site viewer r.key = .ok false) :
    rows.filter (fun r => place.shows site viewer r.key) = [] := by
  refine List.filter_eq_nil_iff.2 fun r hr => ?_
  rw [shows_eq (h r hr)]
  exact Bool.false_ne_true

theorem key_of_locate {sec : Section} (hkey : place.Holds key) (h : place.locate key = .ok sec) :
    sec.key = key := by
  cases place with
  | ofSection own =>
    obtain rfl := Except.ok.inj h
    exact hkey.symm
  | ofArea a =>
    obtain ⟨host, -, h⟩ := exists_of_bind_eq_ok h
    obtain rfl := Except.ok.inj h
    rfl

theorem rows_inv {rows : List StoredComment} (h : place.rows s params viewer = .ok rows)
    {r : StoredComment} (hr : r ∈ rows) : r ∈ s.comments ∧ place.Holds r.key := by
  unfold Place.rows at h
  split at h
  next id _ =>
    obtain ⟨f, hf, h⟩ := exists_of_bind_eq_ok h
    obtain rfl := Except.ok.inj h
    obtain ⟨hstored, hcovers⟩ := Option.filter_eq_some_iff.1 (Option.mem_toList.1 hr)
    refine ⟨(Store.mem_of_comment? hstored).1, ?_⟩
    rw [Selection.coversAlone, Bool.and_eq_true] at hcovers
    exact holds_of_coversSection hf hcovers.1
  next =>
    obtain ⟨f, hf, h⟩ := exists_of_bind_eq_ok h
    obtain rfl := Except.ok.inj h
    obtain ⟨hmem, hcovers⟩ := Store.covers_of_mem_select hr
    exact ⟨hmem, holds_of_covers hf hcovers⟩

end Place

/-- What an area's listing keeps of the sections is what the viewer may see of them. -/
def Area.Knows (a : Area) (site : Site) (viewer : Viewer) (d : Dictionary (Option Section)) : Prop :=
  ∀ key, (Place.ofArea a).Holds key → ∀ known, d.find? key.unique = some known →
    ∃ sec seen, (Place.ofArea a).locate key = .ok sec ∧
      Listing.admits site viewer sec = .ok seen ∧ known = if seen then some sec else none

namespace Listing

open ListingM

/-- The errors that keep a listing from its comments: it cannot be told which rows it covers, a section
of these is not found, or the time for edits is out of bounds. -/
structure Hinders (start : Listing) (site : Site) (s : Store) (E : Error → Prop) : Prop where
  selection : ∀ includeReplies e,
    start.place.selection start.params start.viewer includeReplies = .error e → E e
  window : ∀ e, site.settings.editingTime = .error e → E e
  located : ∀ rows, start.place.rows s start.params start.viewer = .ok rows →
    ∀ r ∈ rows, ∀ e, start.place.locate r.key = .error e → E e

/-- The errors that a listing may end with. Its comments cannot be shown where their custom data is
malformed. -/
structure Excuses (start : Listing) (site : Site) (s : Store) (E : Error → Prop) : Prop
    extends start.Hinders site s E where
  readable : ∀ rows, start.place.rows s start.params start.viewer = .ok rows →
    ∀ r ∈ rows, ∀ e, CustomData.fieldsOf r.customData = .error e → E e

theorem Hinders.trivial {start : Listing} {site : Site} :
    start.Hinders site s fun _ => True :=
  ⟨fun _ _ _ => ⟨⟩, fun _ _ => ⟨⟩, fun _ _ _ _ _ _ => ⟨⟩⟩

/-- The comments of a page are the rows whose sections the viewer may see. -/
structure Gathers (start : Listing) (site : Site) (s : Store) (comments : List Comment) : Prop where
  visible : ∃ visible, start.isVisible site = .ok visible
  found : ∃ rows, start.place.rows s start.params start.viewer = .ok rows ∧
    (∀ r ∈ rows, ∃ seen, start.place.sees site start.viewer r.key = .ok seen) ∧
    comments = (rows.filter fun r => start.place.shows site start.viewer r.key).map .ofStored

/-- The number of rows on all pages. A section that the viewer may not see has none. -/
def total (start : Listing) (site : Site) (s : Store) (includeReplies : Bool) : Except Error Nat := do
  if ← start.isVisible site then
    let f ← start.place.selection start.params start.viewer includeReplies
    return s.countSelected f
  else return 0

/-- What the comments of all pages come to. Those of a listing about one comment are on its page. -/
def Totals (start : Listing) (site : Site) (s : Store) (includeReplies : Bool) (n : Nat) : Prop :=
  match start.params.comment with
  | some _ => ∃ comments, start.Gathers site s comments ∧ n = comments.length
  | none => start.total site s includeReplies = .ok n

/-- What the comments from the page on come to, before the page is fetched. -/
def Remains (start : Listing) (site : Site) (s : Store) (n : Nat) : Prop :=
  ∃ total, start.Totals site s start.params.includeReplies total ∧
    n = if start.params.comment.isSome then total
      else (total - min (Slice.rowsBefore start.params.page start.params.pageSize) maxNumber).toNat

/-- What a listing has found out since its start. -/
structure Surveyed (start : Listing) (site : Site) (s : Store) (l : Listing) : Prop where
  place : l.place = start.place
  params : l.params = start.params
  viewer : l.viewer = start.viewer
  reach : ∀ a, start.place = .ofArea a → ∀ reach, l.reach = some reach →
    a.reach start.viewer start.params.includeChildContexts = .ok reach
  sections : ∀ a, start.place = .ofArea a → a.Knows site start.viewer l.sections
  people : l.people.TrueTo s
  results : ∀ comments, l.results = some comments → start.Gathers site s comments ∧
    ∀ c ∈ comments, (l.sectionOf c.key).isSome
  totals : ∀ includeReplies n, l.total? includeReplies = some n →
    start.Totals site s includeReplies n

/-- A listing goes on from one point to another. It keeps its comments and their sections. -/
structure Advances (start : Listing) (site : Site) (s : Store) (l l' : Listing) : Prop where
  surveyed : start.Surveyed site s l'
  results : ∀ comments, l.results = some comments → l'.results = some comments
  sections : ∀ key sec, l.sectionOf key = some sec → l'.sectionOf key = some sec

variable {start : Listing} {site : Site}

theorem Advances.trans {l' l'' : Listing} (h : start.Advances site s l l')
    (h' : start.Advances site s l' l'') : start.Advances site s l l'' where
  surveyed := h'.surveyed
  results := fun comments hc => h'.results comments (h.results comments hc)
  sections := fun key sec hsec => h'.sections key sec (h.sections key sec hsec)

theorem Advances.isSome {l' : Listing} (h : start.Advances site s l l') {key : SectionKey}
    (hkey : (l.sectionOf key).isSome) : (l'.sectionOf key).isSome := by
  obtain ⟨sec, hsec⟩ := Option.isSome_iff_exists.1 hkey
  rw [h.sections key sec hsec]
  rfl

theorem capability_error {sec : Section} {user : Option UserId} {e : Error}
    (h : sec.capability site user = .error e) : site.settings.editingTime = .error e := by
  unfold Section.capability at h
  cases hwindow : site.settings.editingTime with
  | error e' =>
    rw [hwindow] at h
    rw [Except.error.inj h]
  | ok window =>
    rw [hwindow] at h
    cases h

theorem admits_error {viewer : Viewer} {sec : Section} {e : Error}
    (h : admits site viewer sec = .error e) : site.settings.editingTime = .error e := by
  unfold admits at h
  split at h
  · cases h
  · cases hcap : sec.capability site viewer.user? with
    | error e' =>
      rw [hcap] at h
      rw [capability_error hcap, Except.error.inj h]
    | ok cap =>
      rw [hcap] at h
      cases h

theorem gathers_unseen {cs : List Comment} (hunseen : start.isVisible site = .ok false)
    (h : start.Gathers site s cs) : cs = [] := by
  obtain ⟨rows, -, -, rfl⟩ := h.found
  unfold isVisible at hunseen
  cases hplace : start.place with
  | ofSection sec =>
    rw [hplace] at hunseen
    have hsees (r : StoredComment) :
        (Place.ofSection sec).sees site start.viewer r.key = .ok false := hunseen
    rw [Place.filter_shows_unseen fun r _ => hsees r]
    rfl
  | ofArea a =>
    rw [hplace] at hunseen
    cases hunseen

theorem totals_unseen {includeReplies : Bool} {n : Nat} (hunseen : start.isVisible site = .ok false)
    (h : start.Totals site s includeReplies n) : n = 0 := by
  unfold Totals at h
  split at h
  · obtain ⟨cs, hcs, rfl⟩ := h
    rw [gathers_unseen hunseen hcs]
    rfl
  · rw [total, hunseen] at h
    exact (Except.ok.inj h).symm

section Steps

variable (hl : start.Surveyed site s l)

include hl

theorem Surveyed.refl : start.Advances site s l l where
  surveyed := hl
  results := fun _ hc => hc
  sections := fun _ _ hsec => hsec

theorem Surveyed.locate_of_sectionOf {key : SectionKey} (hkey : start.place.Holds key)
    {sec : Section} (h : l.sectionOf key = some sec) : start.place.locate key = .ok sec := by
  unfold sectionOf at h
  rw [hl.place] at h
  cases hplace : start.place with
  | ofSection own =>
    rw [hplace] at h
    rw [← Option.some.inj (Option.ite_none_right_eq_some.1 h).2]
    rfl
  | ofArea a =>
    rw [hplace] at h hkey
    obtain ⟨own, seen, hlocate, -, hknown⟩ :=
      hl.sections a hplace key hkey _ (Option.join_eq_some_iff.1 h)
    rwa [← Option.some.inj (Option.ite_none_right_eq_some.1 hknown.symm).2]

theorem Surveyed.setReach {a : Area} (ha : start.place = .ofArea a)
    {reach : List ContextId × ItemRange}
    (hreach : a.reach start.viewer start.params.includeChildContexts = .ok reach) :
    start.Advances site s l { l with reach := some reach } := by
  refine ⟨{ hl with reach := ?_ }, fun _ hc => hc, fun _ _ hsec => hsec⟩
  intro a' ha' reach' hreach'
  obtain rfl := Place.ofArea.inj (ha.symm.trans ha')
  exact Option.some.inj hreach' ▸ hreach

theorem findReach_settles {a : Area} (ha : start.place = .ofArea a)
    (hE : ∀ e, a.reach start.viewer start.params.includeChildContexts = .error e → E e) :
    (findReach a).Settles s E l fun reach l' =>
      a.reach start.viewer start.params.includeChildContexts = .ok reach ∧
        start.Advances site s l l' := by
  have hknown := hl.reach a ha
  apply Settles.get_bind
  rw [hl.params, hl.viewer]
  split
  next reach hreach => exact .pure ⟨hknown reach hreach, hl.refl⟩
  next =>
    extract_lets user rest
    have hrest (children : List ContextId) (hchildren :
        a.children start.viewer start.params.includeChildContexts = .ok children) :
        (rest children).Settles s E l fun reach l' =>
          a.reach start.viewer start.params.includeChildContexts = .ok reach ∧
            start.Advances site s l l' := by
      have hreach : a.reach start.viewer start.params.includeChildContexts =
          (a.handler.visibility (addContexts [a.context] children) user).mapError .storage >>=
            fun visibility => pure (addContexts [a.context] children, visibility.range) := by
        rw [Area.reach, hchildren]
        rfl
      refine .bind (.host _ _ fun e he => hE e ?_) ?_
      · rw [hreach, show Except.mapError _ (a.handler.visibility _ _) = _ from he]
        rfl
      · rintro visibility l ⟨hvisibility, rfl⟩
        rw [show Except.mapError _ (a.handler.visibility _ _) = _ from hvisibility] at hreach
        exact .bind (Q := fun _ l' => start.Advances site s l l') (.modify (hl.setReach ha hreach))
          fun _ _ hl' => .pure ⟨hreach, hl'⟩
    split
    next hwith =>
      refine .bind (.host _ _ fun e he => hE e ?_) ?_
      · rw [Area.reach, Area.children, if_pos hwith,
          show Except.mapError _ (a.handler.childContexts _ _) = _ from he]
        rfl
      · rintro children _ ⟨hchildren, rfl⟩
        exact hrest children (by rw [Area.children, if_pos hwith]; exact hchildren)
    next hwithout =>
      refine .bind (Q := fun children l' => children = [] ∧ l' = l) ⟨rfl, rfl⟩ ?_
      rintro _ _ ⟨rfl, rfl⟩
      exact hrest [] (by rw [Area.children, if_neg hwithout]; rfl)

theorem selection_settles (hE : start.Hinders site s E) (includeReplies : Bool) :
    (selection includeReplies).Settles s E l fun f l' =>
      start.place.selection start.params start.viewer includeReplies = .ok f ∧
        start.Advances site s l l' := by
  have hE := hE.selection includeReplies
  apply Settles.get_bind
  rw [hl.place, hl.params]
  cases hplace : start.place with
  | ofSection sec =>
    refine .bind (Q := fun f l' => f = sec.selection ∧ l' = l) ⟨rfl, rfl⟩ ?_
    rintro _ _ ⟨rfl, rfl⟩
    exact .pure ⟨rfl, hl.refl⟩
  | ofArea a =>
    have hreach (e : Error) (he : a.reach start.viewer start.params.includeChildContexts =
        .error e) : E e := by
      apply hE e
      rw [hplace, Place.selection, he]
      rfl
    apply Settles.bind (findReach_settles hl hplace hreach)
    rintro reach l' ⟨hreach, hl'⟩
    refine .bind (Q := fun f k => f = { a.selection with contexts := reach.1, items := reach.2 } ∧
      k = l') ⟨rfl, rfl⟩ ?_
    rintro _ _ ⟨rfl, rfl⟩
    refine .pure ⟨?_, hl'⟩
    rw [Place.selection, hreach]
    rfl

theorem fetchRows_settles (hE : start.Hinders site s E) :
    fetchRows.Settles s E l fun rows l' =>
      start.place.rows s start.params start.viewer = .ok rows ∧ start.Advances site s l l' := by
  apply Settles.get_bind
  rw [hl.params]
  unfold Place.rows
  cases start.params.comment with
  | some id =>
    apply Settles.bind (selection_settles hl hE true)
    rintro f l' ⟨hf, hl'⟩
    apply Settles.bind (.store (.comment id))
    rintro _ _ ⟨rfl, rfl⟩
    rw [hf]
    exact .pure ⟨rfl, hl'⟩
  | none =>
    apply Settles.bind (selection_settles hl hE _)
    rintro f l' ⟨hf, hl'⟩
    refine (Settles.store _).imp ?_
    rintro _ _ ⟨rfl, rfl⟩
    rw [hf]
    exact ⟨rfl, hl'⟩

section Accept

variable {a : Area} (ha : start.place = .ofArea a)

include ha

theorem Surveyed.setSection {key : SectionKey} (hkey : start.place.Holds key)
    (hnew : Dictionary.find? l.sections key.unique = none) {sec : Section} {seen : Bool}
    (hlocate : start.place.locate key = .ok sec)
    (hadmits : admits site start.viewer sec = .ok seen) {known : Option Section}
    (hseen : known = if seen then some sec else none) :
    start.Advances site s l { l with
      sections := Dictionary.insert l.sections key.unique known } := by
  have hkept (other : SectionKey) (own : Section) (h : l.sectionOf other = some own) :
      sectionOf { l with sections := Dictionary.insert l.sections key.unique known } other =
        some own := by
    unfold sectionOf at h ⊢
    rw [hl.place, ha] at h ⊢
    change (Dictionary.find? l.sections other.unique).join = some own at h
    change (Dictionary.find? (Dictionary.insert _ _ _) _).join = _
    rw [Dictionary.find?_insert, if_neg, h]
    intro hsame
    rw [← hsame, hnew] at h
    cases h
  refine ⟨{ hl with sections := ?_, results := ?_ }, fun _ hc => hc, hkept⟩
  · intro a' ha' other hother found hfound
    rw [ha'] at hkey hlocate
    rw [Area.Recollects.find?_insert_of_holds hkey hother] at hfound
    split at hfound
    next hsame =>
      exact ⟨sec, seen, hsame ▸ hlocate, hadmits, (Option.some.inj hfound).symm.trans hseen⟩
    next => exact hl.sections a' ha' other hother found hfound
  · intro comments hcomments
    obtain ⟨hgathers, hfound⟩ := hl.results comments hcomments
    refine ⟨hgathers, fun c hc => ?_⟩
    obtain ⟨own, hown⟩ := Option.isSome_iff_exists.1 (hfound c hc)
    rw [hkept c.key own hown]
    rfl

theorem accept_settles (hwindow : ∀ e, site.settings.editingTime = .error e → E e)
    {r : StoredComment} (hkey : start.place.Holds r.key)
    (hlocated : ∀ e, start.place.locate r.key = .error e → E e) :
    (accept site a r).Settles s E l fun seen l' =>
      start.place.sees site start.viewer r.key = .ok seen ∧
        (seen → (l'.sectionOf r.key).isSome) ∧ start.Advances site s l l' := by
  have hsees {sec : Section} {seen : Bool} (hlocate : start.place.locate r.key = .ok sec)
      (hadmits : admits site start.viewer sec = .ok seen) :
      start.place.sees site start.viewer r.key = .ok seen := by
    rw [Place.sees_eq, hlocate]
    exact hadmits
  have hfound {l' : Listing} (hl' : start.Surveyed site s l') {known : Option Section}
      (hknown : Dictionary.find? l'.sections r.key.unique = some known) :
      l'.sectionOf r.key = known := by
    unfold sectionOf
    rw [hl'.place, ha]
    change (Dictionary.find? l'.sections r.key.unique).join = known
    rw [hknown]
    rfl
  apply Settles.get_bind
  split
  next known hknown =>
    obtain ⟨sec, seen, hlocate, hadmits, hseen⟩ := hl.sections a ha r.key (ha ▸ hkey) known hknown
    obtain rfl : known.isSome = seen := by
      rw [hseen]
      cases seen <;> rfl
    refine .pure ⟨hsees (ha ▸ hlocate) hadmits, fun h => ?_, hl.refl⟩
    rwa [hfound hl hknown]
  next hnew =>
    have hsection : ((a.withContext r.key.context).sectionOf r.key.item).look s =
        start.place.locate r.key := by
      have hown := ha ▸ hkey
      have hsame : (a.withContext r.key.context).sectionKey r.key.item = r.key := by
        rw [Area.withContext, Area.sectionKey, ← hown.1, ← hown.2]
      rw [Area.look_sectionOf, hsame, ha]
      rfl
    apply Settles.bind (.action _ fun e he => hlocated e (hsection.symm.trans he))
    rintro sec l ⟨hlocate, rfl⟩
    rw [hsection] at hlocate
    rw [hl.viewer]
    apply Settles.bind (.lift _ fun e he => hwindow e (admits_error he))
    rintro seen l ⟨hadmits, rfl⟩
    have hset := hl.setSection ha hkey (Option.eq_none_iff_forall_ne_some.2 hnew) hlocate hadmits rfl
    refine .bind (Q := fun _ l' => l' = { l with sections := _ }) (.modify rfl) ?_
    rintro _ _ rfl
    refine .pure ⟨hsees hlocate hadmits, fun h => ?_, hset⟩
    rw [hfound hset.surveyed ((Dictionary.find?_insert _ _ _ _).trans (if_pos rfl)), if_pos h]
    rfl

theorem acceptAll_settles (hwindow : ∀ e, site.settings.editingTime = .error e → E e)
    {rows : List StoredComment} (hrows : ∀ r ∈ rows, start.place.Holds r.key)
    (hlocated : ∀ r ∈ rows, ∀ e, start.place.locate r.key = .error e → E e) :
    (acceptAll site a rows).Settles s E l fun cs l' =>
      (∀ r ∈ rows, ∃ seen, start.place.sees site start.viewer r.key = .ok seen) ∧
        cs = (rows.filter fun r => start.place.shows site start.viewer r.key).map .ofStored ∧
        (∀ c ∈ cs, (l'.sectionOf c.key).isSome) ∧ start.Advances site s l l' := by
  induction rows generalizing l with
  | nil => exact .pure ⟨fun _ hr => (nomatch hr), rfl, fun _ hc => (nomatch hc), hl.refl⟩
  | cons r rest ih =>
    obtain ⟨hkey, hrest⟩ := List.forall_mem_cons.1 hrows
    obtain ⟨hlocate, hlocates⟩ := List.forall_mem_cons.1 hlocated
    apply Settles.bind (accept_settles hl ha hwindow hkey hlocate)
    rintro seen l' ⟨hsees, hfound, hl'⟩
    rw [List.filter_cons, Place.shows_eq hsees]
    cases seen with
    | false =>
      refine (ih hl'.surveyed hrest hlocates).imp ?_
      rintro cs l'' ⟨hall, hcs, hsections, hl''⟩
      exact ⟨List.forall_mem_cons.2 ⟨⟨_, hsees⟩, hall⟩, hcs, hsections, hl'.trans hl''⟩
    | true =>
      apply Settles.bind (ih hl'.surveyed hrest hlocates)
      rintro cs l'' ⟨hall, rfl, hsections, hl''⟩
      refine .pure ⟨List.forall_mem_cons.2 ⟨⟨_, hsees⟩, hall⟩, rfl, ?_, hl'.trans hl''⟩
      exact List.forall_mem_cons.2 ⟨hl''.isSome (hfound rfl), hsections⟩

end Accept

theorem Surveyed.isVisible_eq : l.isVisible site = start.isVisible site := by
  unfold isVisible
  rw [hl.place, hl.viewer]

theorem isVisible_settles (hE : start.Hinders site s E) :
    (liftM (l.isVisible site) : ListingM Bool).Settles s E l fun visible l' =>
      start.isVisible site = .ok visible ∧ l' = l := by
  rw [hl.isVisible_eq]
  refine .lift _ fun e he => hE.window e ?_
  unfold isVisible at he
  split at he
  · exact admits_error he
  · cases he

theorem fetch_settles (hE : start.Hinders site s E) :
    (fetch site).Settles s E l fun cs l' => (start.Gathers site s cs ∧
      ∀ c ∈ cs, (l'.sectionOf c.key).isSome) ∧ start.Advances site s l l' := by
  apply Settles.get_bind
  apply Settles.bind (isVisible_settles hl hE)
  rintro visible l ⟨hvisible, rfl⟩
  have hknown : ∃ visible, start.isVisible site = .ok visible := ⟨visible, hvisible⟩
  unfold isVisible at hvisible
  rw [hl.place]
  cases hplace : start.place with
  | ofSection sec =>
    rw [hplace] at hvisible
    have hsees (r : StoredComment) : start.place.sees site start.viewer r.key = .ok visible := by
      rw [hplace]
      exact hvisible
    cases visible with
    | false =>
      -- Nothing is asked for, and none of the rows would be shown.
      obtain ⟨rows, hrows⟩ : ∃ rows, start.place.rows s start.params start.viewer = .ok rows := by
        rw [hplace]
        unfold Place.rows
        split <;> exact ⟨_, rfl⟩
      refine .pure ⟨⟨⟨hknown, rows, hrows, fun r _ => ⟨_, hsees r⟩, ?_⟩, fun _ hc => nomatch hc⟩, hl.refl⟩
      rw [Place.filter_shows_unseen fun r _ => hsees r]
      rfl
    | true =>
      rw [Bool.not_true, if_neg Bool.false_ne_true]
      apply Settles.bind (fetchRows_settles hl hE)
      rintro rows l' ⟨hrows, hl'⟩
      refine .pure ⟨⟨⟨hknown, rows, hrows, fun r _ => ⟨_, hsees r⟩, ?_⟩, ?_⟩, hl'⟩
      · rw [List.filter_eq_self.2 fun r _ => Place.shows_eq (hsees r)]
      · intro c hc
        obtain ⟨r, hr, rfl⟩ := List.mem_map.1 hc
        have hkey := (Place.rows_inv hrows hr).2
        rw [hplace] at hkey
        unfold sectionOf
        rw [hl'.surveyed.place, hplace]
        exact Option.isSome_of_eq_some (if_pos (Eq.symm hkey))
  | ofArea a =>
    rw [hplace] at hvisible
    obtain rfl := Except.ok.inj hvisible
    rw [Bool.not_true, if_neg Bool.false_ne_true]
    apply Settles.bind (fetchRows_settles hl hE)
    rintro rows l' ⟨hrows, hl'⟩
    refine (acceptAll_settles hl'.surveyed hplace hE.window
      (fun r hr => (Place.rows_inv hrows hr).2) (hE.located rows hrows)).imp ?_
    rintro cs l'' ⟨hsees, hcs, hsections, hl''⟩
    exact ⟨⟨⟨hknown, rows, hrows, hsees, hcs⟩, hsections⟩, hl'.trans hl''⟩

theorem all_settles (hE : start.Hinders site s E) :
    (all site).Settles s E l fun cs l' => start.Gathers site s cs ∧ l'.results = some cs ∧
      start.Advances site s l l' := by
  apply Settles.get_bind
  split
  next cs hcs => exact .pure ⟨(hl.results cs hcs).1, hcs, hl.refl⟩
  next hnone =>
    apply Settles.bind (fetch_settles hl hE)
    rintro cs l' ⟨hgathers, hl'⟩
    refine .bind (Q := fun _ k => k = { l' with results := some cs }) (.modify rfl) ?_
    rintro _ _ rfl
    refine .pure ⟨hgathers.1, rfl, { hl'.surveyed with results := ?_ }, ?_, hl'.sections⟩
    · rintro _ ⟨⟩
      exact hgathers
    · intro comments hcomments
      rw [hnone] at hcomments
      cases hcomments

theorem Surveyed.setTotal {includeReplies : Bool} {n : Nat}
    (hn : start.Totals site s includeReplies n) :
    start.Advances site s l (l.setTotal includeReplies n) := by
  have htotals : ∀ withReplies m, (l.setTotal includeReplies n).total? withReplies = some m →
      start.Totals site s withReplies m := by
    intro withReplies m hm
    by_cases hsame : withReplies = includeReplies
    · obtain rfl : n = m := by
        rw [hsame] at hm
        cases includeReplies <;> exact Option.some.inj hm
      exact hsame ▸ hn
    · refine hl.totals withReplies m (Eq.trans ?_ hm)
      cases includeReplies <;> cases withReplies <;> first | rfl | exact absurd rfl hsame
  cases includeReplies with
  | false => exact ⟨{ hl with totals := htotals }, fun _ hc => hc, fun _ _ hsec => hsec⟩
  | true => exact ⟨{ hl with totals := htotals }, fun _ hc => hc, fun _ _ hsec => hsec⟩

theorem countAllPages_settles (hE : start.Hinders site s E) (includeReplies : Bool) :
    (countAllPages site includeReplies).Settles s E l fun n l' =>
      start.Totals site s includeReplies n ∧ start.Advances site s l l' := by
  apply Settles.get_bind
  split
  next n hn => exact .pure ⟨hl.totals includeReplies n hn, hl.refl⟩
  next =>
    extract_lets rest
    have hrest (n : Nat) {l' : Listing} (hl' : start.Advances site s l l')
        (hn : start.Totals site s includeReplies n) : (rest n).Settles s E l' fun n l' =>
          start.Totals site s includeReplies n ∧ start.Advances site s l l' := by
      refine .bind (Q := fun _ k => k = l'.setTotal includeReplies n) (.modify rfl) ?_
      rintro _ _ rfl
      exact .pure ⟨hn, hl'.trans (hl'.surveyed.setTotal hn)⟩
    apply Settles.bind (isVisible_settles hl hE)
    rintro visible l ⟨hvisible, rfl⟩
    rw [hl.params]
    cases hcomment : start.params.comment with
    | some id =>
      rw [Option.isSome_some, if_pos rfl, map_eq_pure_bind, bind_assoc]
      apply Settles.bind (all_settles hl hE)
      rintro cs l' ⟨hcs, -, hl'⟩
      refine .bind (Q := fun n k => n = cs.length ∧ k = l') ⟨rfl, rfl⟩ ?_
      rintro _ _ ⟨rfl, rfl⟩
      refine hrest _ hl' ?_
      rw [Totals, hcomment]
      exact ⟨cs, hcs, rfl⟩
    | none =>
      rw [Option.isSome_none, if_neg Bool.false_ne_true]
      have htotal {n : Nat} (h : start.total site s includeReplies = .ok n) :
          start.Totals site s includeReplies n := by
        rw [Totals, hcomment]
        exact h
      unfold total at htotal
      rw [hvisible] at htotal
      cases visible with
      | false =>
        refine .bind (Q := fun n k => n = 0 ∧ k = l) ⟨rfl, rfl⟩ ?_
        rintro _ _ ⟨rfl, rfl⟩
        exact hrest 0 hl.refl (htotal rfl)
      | true =>
        rw [if_pos rfl]
        apply Settles.bind (selection_settles hl hE includeReplies)
        rintro f l' ⟨hf, hl'⟩
        rw [hf] at htotal
        apply Settles.bind (.store (.countSelected f))
        rintro n l' ⟨hn, rfl⟩
        exact hrest n hl' (htotal (congrArg Except.ok hn.symm))

theorem count_settles (hE : start.Hinders site s E) :
    (count site).Settles s E l fun n l' =>
      (l.results = none → start.Remains site s n) ∧ start.Advances site s l l' := by
  apply Settles.get_bind
  split
  next hresults => exact .pure ⟨fun h => (nomatch hresults.symm.trans h), hl.refl⟩
  next =>
    unfold Remains Totals
    rw [hl.params]
    cases start.params.comment with
    | some id =>
      apply Settles.bind (all_settles hl hE)
      rintro cs l' ⟨hcs, -, hl'⟩
      exact .pure ⟨fun _ => ⟨_, ⟨cs, hcs, rfl⟩, rfl⟩, hl'⟩
    | none =>
      apply Settles.bind (isVisible_settles hl hE)
      rintro visible l ⟨hvisible, rfl⟩
      unfold total
      rw [hvisible]
      cases visible with
      | false =>
        refine .pure ⟨fun _ => ⟨0, rfl, ?_⟩, hl.refl⟩
        exact (Slice.toNat_zero_sub_rowsBefore _ _).symm
      | true =>
        apply Settles.bind (selection_settles hl hE _)
        rintro f l' ⟨hf, hl'⟩
        rw [hf]
        apply Settles.bind (.store (.countSelected f))
        rintro n l' ⟨rfl, rfl⟩
        exact .pure ⟨fun _ => ⟨_, rfl, rfl⟩, hl'⟩

end Steps

end Listing

end Discussion
