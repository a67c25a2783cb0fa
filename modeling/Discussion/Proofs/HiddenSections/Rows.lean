import Discussion.Proofs.HiddenAuthors.Rows
import Discussion.Proofs.Tiling

namespace Discussion

/-- The rows that stand in no hidden section. -/
def outside (hides : SectionKey → Bool) (rows : List StoredComment) : List StoredComment :=
  rows.filter fun r => !hides r.key

/-- The stores differ only in hidden sections: in the comments there, in the votes for these, and in
what users have chosen there. -/
structure Store.SameOutside (hides : SectionKey → Bool) (s t : Store) : Prop where
  comments : outside hides t.comments = outside hides s.comments
  upvoted : ∀ r ∈ s.comments, hides r.key = false → t.upvoted r.id = s.upvoted r.id
  choices : ∀ key, hides key = false → ∀ user comment,
    t.choice? user key comment = s.choice? user key comment
  people : t.people = s.people

/-- The rows that fit a selection and stand in hidden sections. -/
def Store.countHidden (s : Store) (hides : SectionKey → Bool) (f : Selection) : Nat :=
  (s.comments.filter fun r => hides r.key).countP f.covers

/-- Two lists of rows that are the same outside of hidden sections, as they are gone through from
the first row to the last. -/
inductive Interleaved (hides : SectionKey → Bool) : List StoredComment → List StoredComment → Prop
  | nil : Interleaved hides [] []
  | shown {r : StoredComment} {rows rows' : List StoredComment} :
    hides r.key = false → Interleaved hides rows rows' → Interleaved hides (r :: rows) (r :: rows')
  | left {r : StoredComment} {rows rows' : List StoredComment} :
    hides r.key → Interleaved hides rows rows' → Interleaved hides (r :: rows) rows'
  | right {r : StoredComment} {rows rows' : List StoredComment} :
    hides r.key → Interleaved hides rows rows' → Interleaved hides rows (r :: rows')

/-- The rows are the same, or both stand in hidden sections. -/
def StoredComment.SamePlace (hides : SectionKey → Bool) (r r' : StoredComment) : Prop :=
  r' = r ∨ hides r.key ∧ hides r'.key

section Rows

variable {hides : SectionKey → Bool} {rows rows' : List StoredComment} {r : StoredComment}

theorem outside_cons_hidden (hr : hides r.key) : outside hides (r :: rows) = outside hides rows :=
  List.filter_cons_of_neg (by rw [hr]; exact Bool.false_ne_true)

theorem outside_cons_shown (hr : hides r.key = false) :
    outside hides (r :: rows) = r :: outside hides rows :=
  List.filter_cons_of_pos (by rw [hr]; rfl)

theorem outside_filter (p : StoredComment → Bool) :
    outside hides (rows.filter p) = (outside hides rows).filter p :=
  List.filter_comm _ _ _

theorem interleaved_of_outside_eq (h : outside hides rows' = outside hides rows) :
    Interleaved hides rows rows' := by
  induction rows generalizing rows' with
  | nil =>
    induction rows' with
    | nil => exact .nil
    | cons r' rest' ih =>
      cases hr' : hides r'.key with
      | true => exact .right hr' (ih (by rwa [outside_cons_hidden hr'] at h))
      | false =>
        rw [outside_cons_shown hr'] at h
        cases h
  | cons r rest ih =>
    cases hr : hides r.key with
    | true => exact .left hr (ih (by rwa [outside_cons_hidden hr] at h))
    | false =>
      rw [outside_cons_shown hr] at h
      -- The row is the first of the others that is not hidden.
      induction rows' with
      | nil => cases h
      | cons r' rest' ih' =>
        cases hr' : hides r'.key with
        | true => exact .right hr' (ih' (by rwa [outside_cons_hidden hr'] at h))
        | false =>
          rw [outside_cons_shown hr'] at h
          obtain ⟨rfl, hrest⟩ := List.cons.inj h
          exact .shown hr (ih hrest)

theorem outside_eq_of_samePlaces (h : List.Forall₂ (StoredComment.SamePlace hides) rows rows') :
    outside hides rows' = outside hides rows := by
  induction h with
  | nil => rfl
  | @cons r r' _ _ hr _ ih =>
    rcases hr with rfl | ⟨hr, hr'⟩
    · cases hr : hides r'.key with
      | true => rw [outside_cons_hidden hr, outside_cons_hidden hr, ih]
      | false => rw [outside_cons_shown hr, outside_cons_shown hr, ih]
    · rw [outside_cons_hidden hr, outside_cons_hidden hr', ih]

end Rows

/-- What a listing asks of the store: the rows of its page, and how many there are on all pages. -/
structure RowQuery where
  rows : Selection
  order : SortOrder
  slice : Option Slice
  counted : Selection

def RowQuery.page (q : RowQuery) (s : Store) : List StoredComment :=
  s.select q.rows q.order q.slice

/-- The rows of all pages. -/
def RowQuery.pages (q : RowQuery) (s : Store) : List StoredComment :=
  s.select q.rows q.order none

namespace Store

variable {hides : SectionKey → Bool} {s t : Store}

theorem countSelected_eq (s : Store) (hides : SectionKey → Bool) (f : Selection) :
    s.countSelected f = (outside hides s.comments).countP f.covers + s.countHidden hides f := by
  rw [countSelected, List.countP_eq_countP_filter_add _ _ fun r => !hides r.key, outside,
    countHidden]
  simp only [Bool.not_not]

theorem outside_pages (q : RowQuery) : outside hides (q.pages s) =
    sorted ((outside hides s.comments).filter q.rows.covers) q.order := by
  change outside hides (sorted _ _) = _
  rw [outside, filter_sorted, ← outside, outside_filter]

namespace SameOutside

variable (h : s.SameOutside hides t)

include h

theorem statusIn {sec : Section} (hsec : hides sec.key = false) :
    sec.statusIn t = sec.statusIn s := by
  unfold Section.statusIn
  simp only [h.choices sec.key hsec]

theorem pages (q : RowQuery) : outside hides (q.pages t) = outside hides (q.pages s) := by
  rw [outside_pages, outside_pages, h.comments]

/-- The hidden rows show only by the places that they take. -/
theorem page {q : RowQuery} (hq : q.slice = none ∨
    List.Forall₂ (StoredComment.SamePlace hides) (q.pages s) (q.pages t) ∨
    outside hides (q.page t) = outside hides (q.page s)) :
    outside hides (q.page t) = outside hides (q.page s) := by
  rcases hq with hall | hplaces | hpage
  · unfold RowQuery.page
    rw [hall]
    exact h.pages q
  · apply outside_eq_of_samePlaces
    change List.Forall₂ _ (Slice.cut (q.pages s) q.slice) (Slice.cut (q.pages t) q.slice)
    cases q.slice with
    | none => exact hplaces
    | some p => exact List.forall₂_take _ (List.forall₂_drop _ hplaces)
  · exact hpage

theorem filter_of_shown {f : Selection}
    (hf : ∀ r : StoredComment, f.covers r → hides r.key = false) :
    t.comments.filter f.covers = s.comments.filter f.covers := by
  have hall (rows : List StoredComment) :
      (outside hides rows).filter f.covers = rows.filter f.covers := by
    rw [← outside_filter, outside, List.filter_eq_self]
    intro r hr
    rw [hf r (List.mem_filter.1 hr).2]
    rfl
  rw [← hall, h.comments, hall]

end SameOutside

end Store

namespace Place

/-- The sections that a listing of the place can come upon. -/
def Holds (key : SectionKey) : Place → Prop
  | .ofSection sec => key = sec.key
  | .ofArea a => key.component = a.component ∧ key.area = a.name

/-- The sections of the place that are hidden are those that the viewer may not see. -/
def Conceals (place : Place) (site : Site) (viewer : Viewer) (hides : SectionKey → Bool) : Prop :=
  ∀ key, place.Holds key → (hides key ↔ place.sees site viewer key = .ok false)

/-- The comment is what the store holds of a row in no hidden section. -/
def Shows (place : Place) (hides : SectionKey → Bool) (s : Store) (c : Comment) : Prop :=
  ∃ r ∈ s.comments, place.Holds r.key ∧ hides r.key = false ∧ c = .ofStored r

/-- The hidden rows that are counted. A listing of one section counts none. -/
def countHidden (hides : SectionKey → Bool) (f : Selection) (s : Store) : Place → Nat
  | .ofSection _ => 0
  | .ofArea _ => s.countHidden hides f

theorem holds_of_coversSection {place : Place} {params : ListingQuery} {viewer : Viewer}
    {includeReplies : Bool} {f : Selection}
    (hf : place.selection params viewer includeReplies = .ok f) {key : SectionKey}
    (hkey : f.coversSection key) : place.Holds key := by
  cases place with
  | ofArea a => exact key_of_coversSection hf hkey
  | ofSection sec =>
    obtain rfl := Except.ok.inj hf
    have hown : sec.selection.coversSection key := hkey
    rw [sec.coversSection_selection] at hown
    exact beq_iff_eq.1 hown

theorem holds_of_covers {place : Place} {params : ListingQuery} {viewer : Viewer}
    {includeReplies : Bool} {f : Selection}
    (hf : place.selection params viewer includeReplies = .ok f) {r : StoredComment}
    (hr : f.covers r) : place.Holds r.key :=
  holds_of_coversSection hf (Selection.coversSection_of_covers hr)

end Place

/-- What two listings of an area keep of its sections differs only in hidden ones, which neither of
them shows. -/
structure Area.Recollects (a : Area) (hides : SectionKey → Bool)
    (d e : Dictionary (Option Section)) : Prop where
  shown : ∀ key, (Place.ofArea a).Holds key → hides key = false →
    e.find? key.unique = d.find? key.unique
  own : ∀ key, (Place.ofArea a).Holds key → hides key = false →
    ∀ sec, d.find? key.unique = some (some sec) → sec.key = key
  hidden : ∀ key, (Place.ofArea a).Holds key → hides key →
    (d.find? key.unique).join = none ∧ (e.find? key.unique).join = none

namespace Area.Recollects

variable {a : Area} {hides : SectionKey → Bool} {d e : Dictionary (Option Section)}
variable {key : SectionKey}

theorem nil : a.Recollects hides [] [] where
  shown := fun _ _ _ => rfl
  own := fun _ _ _ _ h => nomatch h
  hidden := fun _ _ _ => ⟨rfl, rfl⟩

theorem find?_insert_of_holds {value : Option Section} {other : SectionKey}
    (hkey : (Place.ofArea a).Holds key) (hother : (Place.ofArea a).Holds other) :
    (d.insert key.unique value).find? other.unique =
      if key = other then some value else d.find? other.unique := by
  rw [Dictionary.find?_insert]
  by_cases h : key = other
  · rw [if_pos h, if_pos (congrArg SectionKey.unique h)]
  · rw [if_neg h, if_neg fun hunique => h (SectionKey.unique_inj (hkey.1.trans hother.1.symm)
      (hkey.2.trans hother.2.symm) hunique)]

theorem insert_shown (h : a.Recollects hides d e) (hkey : (Place.ofArea a).Holds key)
    (hshown : hides key = false) {known : Option Section} (hown : ∀ sec ∈ known, sec.key = key) :
    a.Recollects hides (d.insert key.unique known) (e.insert key.unique known) where
  shown := by
    intro other hother hseen
    rw [find?_insert_of_holds hkey hother, find?_insert_of_holds hkey hother,
      h.shown other hother hseen]
  own := by
    intro other hother hseen sec hsec
    rw [find?_insert_of_holds hkey hother] at hsec
    split at hsec
    next hsame => exact hsame ▸ hown sec (Option.some.inj hsec)
    next => exact h.own other hother hseen sec hsec
  hidden := by
    intro other hother hhidden
    have hne : key ≠ other := fun hsame => by rw [hsame, hhidden] at hshown; cases hshown
    rw [find?_insert_of_holds hkey hother, find?_insert_of_holds hkey hother, if_neg hne,
      if_neg hne]
    exact h.hidden other hother hhidden

theorem symm (h : a.Recollects hides d e) : a.Recollects hides e d where
  shown := fun key hkey hshown => (h.shown key hkey hshown).symm
  own := fun key hkey hshown sec hsec =>
    h.own key hkey hshown sec ((h.shown key hkey hshown).symm.trans hsec)
  hidden := fun key hkey hhidden => (h.hidden key hkey hhidden).symm

theorem insert_hidden (h : a.Recollects hides d e) (hkey : (Place.ofArea a).Holds key)
    (hhidden : hides key) : a.Recollects hides (d.insert key.unique none) e where
  shown := by
    intro other hother hseen
    rw [find?_insert_of_holds hkey hother, if_neg, h.shown other hother hseen]
    rintro rfl
    rw [hhidden] at hseen
    cases hseen
  own := by
    intro other hother hseen sec hsec
    rw [find?_insert_of_holds hkey hother] at hsec
    split at hsec
    · cases hsec
    · exact h.own other hother hseen sec hsec
  hidden := by
    intro other hother hhidden'
    rw [find?_insert_of_holds hkey hother]
    refine ⟨?_, (h.hidden other hother hhidden').2⟩
    split
    · rfl
    · exact (h.hidden other hother hhidden').1

end Area.Recollects

theorem Listing.mem_foundSections_go {seen : List String} {found : List Section} {sec : Section}
    (h : sec ∈ foundSections.go seen found) : sec ∈ found := by
  induction found generalizing seen with
  | nil => exact h
  | cons first rest ih =>
    unfold foundSections.go at h
    split at h
    · exact List.mem_cons_of_mem _ (ih h)
    · rcases List.mem_cons.1 h with rfl | h
      · exact List.mem_cons_self
      · exact List.mem_cons_of_mem _ (ih h)

end Discussion
