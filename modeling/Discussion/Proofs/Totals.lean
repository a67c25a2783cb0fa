import Discussion.Proofs.PageContents

namespace Discussion

open ListingM

variable {s : Store} {w : World} {site : Site} {place : Place} {params : ListingQuery}
variable {viewer : Viewer}

/-- The component tells which contexts and items a listing covers, and finds the items of the rows
there. The time for edits is within bounds. -/
structure Place.IsServed (site : Site) (s : Store) (params : ListingQuery) (viewer : Viewer)
    (place : Place) : Prop where
  covered : ∃ f, place.selection params viewer true = .ok f ∧
    ∀ r ∈ s.comments, f.coversSection r.key → ∃ sec, place.locate r.key = .ok sec
  timed : ∃ window, site.settings.editingTime = .ok window

/-- None of the rows is hidden from others of the place: a section is shown as a whole or not at all,
and the trusted viewer sees everything. -/
def Place.IsWholeFor (viewer : Viewer) : Place → Prop
  | .ofSection _ => True
  | .ofArea _ => viewer = .trusted

namespace Place

theorem coversSection_of_mem_rows {f : Selection}
    (hf : place.selection params viewer true = .ok f) {rows : List StoredComment}
    (hrows : place.rows s params viewer = .ok rows) {r : StoredComment} (hr : r ∈ rows) :
    f.coversSection r.key := by
  have hany (includeReplies : Bool) := selection_of hf params rfl includeReplies
  unfold Place.rows at hrows
  split at hrows
  · rw [hany true] at hrows
    obtain rfl := Except.ok.inj hrows
    obtain ⟨-, hcovers⟩ := Option.filter_eq_some_iff.1 (Option.mem_toList.1 hr)
    rw [Selection.coversAlone, Bool.and_eq_true] at hcovers
    exact hcovers.1
  · rw [hany params.includeReplies] at hrows
    obtain rfl := Except.ok.inj hrows
    have hkey := Selection.coversSection_of_covers (Store.covers_of_mem_select hr).2
    exact hkey

theorem IsServed.hinders (h : place.IsServed site s params viewer) (other : ListingQuery)
    (hother : other.includeChildContexts = params.includeChildContexts) :
    Listing.Hinders { place, params := other, viewer } site s fun _ => False where
  selection := by
    intro includeReplies e he
    obtain ⟨f, hf, -⟩ := h.covered
    cases (selection_of hf other hother includeReplies).symm.trans he
  window := by
    intro e he
    obtain ⟨window, hwindow⟩ := h.timed
    cases hwindow.symm.trans he
  located := by
    intro rows hrows r hr e he
    obtain ⟨f, hf, hlocated⟩ := h.covered
    have hkey := coversSection_of_mem_rows (selection_of hf other hother true) hrows hr
    obtain ⟨sec, hsec⟩ := hlocated r (rows_inv hrows hr).1 hkey
    cases hsec.symm.trans he

theorem IsWholeFor.shows (h : place.IsWholeFor viewer)
    (hvisible : Listing.isVisible site { place, params, viewer } = .ok true) {key : SectionKey}
    (hsees : ∃ seen, place.sees site viewer key = .ok seen) : place.shows site viewer key := by
  rw [shows_iff]
  cases place with
  | ofSection sec => exact hvisible
  | ofArea a =>
    obtain rfl : viewer = .trusted := h
    obtain ⟨seen, hseen⟩ := hsees
    rw [sees_eq] at hseen ⊢
    obtain ⟨sec, hsec, -⟩ := exists_of_bind_eq_ok hseen
    rw [hsec]
    rfl

end Place

namespace Listing

theorem look_fetchRows_of {rows : List StoredComment}
    (hrows : place.rows s params viewer = .ok rows) : ∃ reach,
      fetchRows.look s { place, params, viewer } = (.ok rows, { place, params, viewer, reach }) := by
  unfold Place.rows at hrows
  split at hrows
  next id hone =>
    obtain ⟨f, hf, hrows⟩ := exists_of_bind_eq_ok hrows
    obtain rfl := Except.ok.inj hrows
    obtain ⟨reach, hselection⟩ := look_selection (s := s) (l := { place, params, viewer }) rfl hf
    refine ⟨reach, ?_⟩
    unfold fetchRows
    rw [look_bind_of look_get, hone]
    dsimp only
    rw [look_bind_of hselection]
    rfl
  next hmany =>
    obtain ⟨f, hf, hrows⟩ := exists_of_bind_eq_ok hrows
    obtain rfl := Except.ok.inj hrows
    exact look_fetchRows rfl hmany hf

theorem Gathers.look_all {cs : List Comment} (h : Gathers { place, params, viewer } site s cs) :
    ∃ l, (all site).look s { place, params, viewer } = (.ok cs, l) := by
  obtain ⟨⟨visible, hvisible⟩, rows, hrows, hsees, rfl⟩ := h
  obtain ⟨reach, hfetched⟩ := look_fetchRows_of hrows
  have hkeys (a : Area) (ha : place = .ofArea a) : ∀ r ∈ rows,
      r.key.component = a.component ∧ r.key.area = a.name := by
    intro r hr
    have hkey := (Place.rows_inv hrows hr).2
    rw [ha] at hkey
    exact hkey
  have hshows : ∀ r ∈ rows,
      place.sees site viewer r.key = .ok (place.shows site viewer r.key) := by
    intro r hr
    obtain ⟨seen, hseen⟩ := hsees r hr
    exact hseen.trans (congrArg Except.ok (Place.shows_eq hseen).symm)
  exact look_all_of_fetch rfl (look_fetch rfl hfetched hvisible hkeys hshows)

theorem answers_all_iff {cs : List Comment} :
    ((all site).eval { place, params, viewer }).Answers w cs ↔
      Gathers { place, params, viewer } site w.store cs := by
  rw [(all_asks site).answers_iff]
  constructor
  · intro h
    exact ((all_settles (surveyed_start place params viewer) .trivial).of_ok h).choose_spec.1
  · intro h
    obtain ⟨l, hall⟩ := h.look_all
    rw [hall]

theorem look_countAllPages_fst {includeReplies : Bool} (hmany : params.comment = none) :
    ((countAllPages site includeReplies).look s { place, params, viewer }).1 =
      total { place, params, viewer } site s includeReplies := by
  have hnew : total? { place, params, viewer } includeReplies = none := by
    cases includeReplies <;> rfl
  unfold countAllPages total
  rw [look_bind_of look_get, hnew, hmany]
  dsimp only
  rw [look_bind_fst, look_lift]
  refine congrArg _ (funext fun visible => ?_)
  rw [Option.isSome_none, if_neg Bool.false_ne_true]
  cases visible with
  | false => rfl
  | true =>
    rw [if_pos rfl, if_pos rfl, look_bind_fst, look_selection_fst rfl]
    rfl

theorem answers_total_iff (hmany : params.comment = none) {includeReplies : Bool} {n : Nat} :
    ((countAllPages site includeReplies).eval { place, params, viewer }).Answers w n ↔
      total { place, params, viewer } site w.store includeReplies = .ok n := by
  rw [(countAllPages_asks site includeReplies).answers_iff, look_countAllPages_fst hmany]

theorem answers_countAllPages_iff {includeReplies : Bool} {n : Nat} :
    ((countAllPages site includeReplies).eval { place, params, viewer }).Answers w n ↔
      Totals { place, params, viewer } site w.store includeReplies n := by
  rw [(countAllPages_asks site includeReplies).answers_iff]
  constructor
  · intro h
    exact ((countAllPages_settles (surveyed_start place params viewer) .trivial includeReplies).of_ok
      h).choose_spec.1
  · intro h
    unfold Totals at h
    dsimp only at h
    cases hcomment : params.comment with
    | some id =>
      rw [hcomment] at h
      obtain ⟨cs, hcs, rfl⟩ := h
      obtain ⟨visible, hvisible⟩ := hcs.visible
      obtain ⟨l, hall⟩ := hcs.look_all
      have hnew : total? { place, params, viewer } includeReplies = none := by
        cases includeReplies <;> rfl
      rw [look_countAllPages_of_all hvisible (Option.isSome_of_eq_some hcomment) hnew hall]
    | none =>
      rw [hcomment] at h
      exact (look_countAllPages_fst hcomment).trans h

/-- Counted in vain, no rows are left either. -/
theorem look_count_fst (hmany : params.comment = none) :
    ((count site).look s { place, params, viewer }).1 = do
      let n ← total { place, params, viewer } site s params.includeReplies
      return (n - min (Slice.rowsBefore params.page params.pageSize) maxNumber).toNat := by
  unfold count total
  rw [look_bind_of look_get, hmany]
  dsimp only
  rw [Option.isSome_none, if_neg Bool.false_ne_true, look_bind_fst, look_lift, bind_assoc]
  refine congrArg _ (funext fun visible => ?_)
  cases visible with
  | false =>
    exact congrArg Except.ok (Slice.toNat_zero_sub_rowsBefore params.page params.pageSize).symm
  | true =>
    rw [Bool.not_true, if_neg Bool.false_ne_true, if_pos rfl, look_bind_fst, look_selection_fst rfl,
      bind_assoc]
    rfl

theorem answers_count_iff {n : Nat} :
    ((count site).eval { place, params, viewer }).Answers w n ↔
      Remains { place, params, viewer } site w.store n := by
  rw [(count_asks site).answers_iff]
  constructor
  · intro h
    exact ((count_settles (surveyed_start place params viewer) .trivial).of_ok h).choose_spec.1 rfl
  · rintro ⟨total, htotal, rfl⟩
    unfold Totals at htotal
    dsimp only at htotal ⊢
    cases hcomment : params.comment with
    | some id =>
      rw [hcomment] at htotal
      obtain ⟨cs, hcs, rfl⟩ := htotal
      obtain ⟨l, hall⟩ := hcs.look_all
      unfold count
      rw [look_bind_of look_get]
      dsimp only
      rw [hcomment, Option.isSome_some, if_pos rfl, look_bind_of hall]
      rfl
    | none =>
      rw [hcomment] at htotal
      rw [look_count_fst hcomment, htotal]
      rfl

/-- A call on a listing. -/
inductive Inquiry where
  | page
  | rest
  | total (includeReplies : Bool)

def Inquiry.ask (site : Site) : Inquiry → ListingM Unit
  | .page => do let _ ← all site
  | .rest => do let _ ← count site
  | .total includeReplies => do let _ ← countAllPages site includeReplies

/-- The computation on a listing that has answered other calls before. -/
def after {α : Type} (site : Site) : List Inquiry → ListingM α → ListingM α
  | [], m => m
  | inquiry :: earlier, m => do
    inquiry.ask site
    after site earlier m

theorem Inquiry.ask_asks (inquiry : Inquiry) : (inquiry.ask site).Asks := by
  cases inquiry with
  | page => exact .bind (all_asks site) fun _ => .pure _
  | rest => exact .bind (count_asks site) fun _ => .pure _
  | total includeReplies => exact .bind (countAllPages_asks site includeReplies) fun _ => .pure _

theorem after_asks {α : Type} {m : ListingM α} (hm : m.Asks) (earlier : List Inquiry) :
    (after site earlier m).Asks := by
  induction earlier with
  | nil => exact hm
  | cons inquiry earlier ih => exact .bind inquiry.ask_asks fun _ => ih

section Steps

variable {start l : Listing} {E : Error → Prop}

theorem Inquiry.ask_settles (hl : start.Surveyed site s l) (hE : start.Hinders site s E)
    (inquiry : Inquiry) : (inquiry.ask site).Settles s E l fun _ l' => start.Surveyed site s l' := by
  cases inquiry with
  | page => exact .bind (all_settles hl hE) fun _ _ h => .pure h.2.2.surveyed
  | rest => exact .bind (count_settles hl hE) fun _ _ h => .pure h.2.surveyed
  | total includeReplies =>
    exact .bind (countAllPages_settles hl hE includeReplies) fun _ _ h => .pure h.2.surveyed

/-- What holds of a call on a listing that has found out nothing wrong holds after other calls. -/
theorem after_settles {α : Type} {m : ListingM α} {P : α → Prop}
    (hm : ∀ l, start.Surveyed site s l → m.Settles s E l fun a _ => P a)
    (hl : start.Surveyed site s l) (hE : start.Hinders site s E) (earlier : List Inquiry) :
    (after site earlier m).Settles s E l fun a _ => P a := by
  induction earlier generalizing l with
  | nil => exact hm l hl
  | cons inquiry earlier ih => exact .bind (inquiry.ask_settles hl hE) fun _ _ h => ih h

end Steps

theorem holds_of_after {α : Type} {m : ListingM α} {P : α → Prop} (hm : m.Asks)
    (hsettles : ∀ l, Surveyed { place, params, viewer } site w.store l →
      m.Settles w.store (fun _ => True) l fun a _ => P a) {earlier : List Inquiry} {a : α}
    (h : ((after site earlier m).eval { place, params, viewer }).Answers w a) : P a := by
  have hafter := after_settles hsettles (surveyed_start place params viewer) .trivial earlier
  obtain ⟨-, ha⟩ := hafter.of_ok ((after_asks hm earlier).answers_iff.1 h)
  exact ha

theorem total_le {start : Listing} {includeReplies : Bool} {n : Nat}
    (h : start.total site s includeReplies = .ok n) : n ≤ s.comments.length := by
  obtain ⟨visible, -, h⟩ := exists_of_bind_eq_ok h
  cases visible with
  | false => exact Except.ok.inj h ▸ Nat.zero_le _
  | true =>
    obtain ⟨f, -, h⟩ := exists_of_bind_eq_ok h
    exact Except.ok.inj h ▸ List.countP_le_length

/-- Replies only add to the total, unless the listing is of replies to one comment. -/
theorem exists_total_withReplies {few : Nat}
    (h : total { place, params, viewer } site s false = .ok few) :
    ∃ many, total { place, params, viewer } site s true = .ok many ∧ few ≤ many ∧
      (params.replyTo.isSome → few = many) := by
  obtain ⟨visible, hvisible, h⟩ := exists_of_bind_eq_ok h
  unfold total
  rw [hvisible]
  cases visible with
  | false =>
    obtain rfl : 0 = few := Except.ok.inj h
    exact ⟨0, rfl, Nat.le_refl 0, fun _ => rfl⟩
  | true =>
    obtain ⟨f, hf, h⟩ := exists_of_bind_eq_ok h
    obtain rfl := Except.ok.inj h
    let g (includeReplies : Bool) : Selection := { f with
      parent := params.parent includeReplies
      timeFrom := params.timeFrom
      timeTo := params.timeTo }
    have hg (includeReplies : Bool) :
        place.selection params viewer includeReplies = .ok (g includeReplies) :=
      Place.selection_of hf params rfl includeReplies
    have hsame : f = g false := Except.ok.inj (hf.symm.trans (hg false))
    refine ⟨s.countSelected (g true), ?_, ?_, fun hreplies => ?_⟩
    · change place.selection params viewer true >>= (fun f => pure (s.countSelected f)) = _
      rw [hg true]
      rfl
    · rw [hsame]
      refine List.countP_mono_left fun r _ hcovers => ?_
      have hparent : (params.parent false).covers r.replyTo →
          (params.parent true).covers r.replyTo := by
        unfold ListingQuery.parent
        split
        · exact id
        · exact fun _ => rfl
      rw [Selection.covers, Bool.and_eq_true, Bool.and_eq_true] at hcovers ⊢
      exact ⟨⟨hcovers.1.1, hparent hcovers.1.2⟩, hcovers.2⟩
    · have hparent : params.parent false = params.parent true := by
        obtain ⟨id, hid⟩ := Option.isSome_iff_exists.1 hreplies
        unfold ListingQuery.parent
        rw [hid]
      rw [hsame]
      exact congrArg (fun parent => s.countSelected { g true with parent }) hparent

theorem exists_count_of_total (hfew : w.store.comments.length ≤ maxNumber)
    (hmany : params.comment = none) {n : Nat}
    (h : total { place, params, viewer } site w.store params.includeReplies = .ok n) :
    ∃ rest, ((count site).eval { place, params, viewer }).Answers w rest ∧
      (rest : Int) = max 0 (n - Slice.rowsBefore params.page params.pageSize) := by
  refine ⟨(n - min (Slice.rowsBefore params.page params.pageSize) maxNumber).toNat, ?_, ?_⟩
  · rw [(count_asks site).answers_iff, look_count_fst hmany, h]
    rfl
  · have hle := total_le h
    omega

theorem Gathers.length_eq (hfew : s.comments.length ≤ maxNumber) (hmany : params.comment = none)
    (hwhole : place.IsWholeFor viewer) {cs : List Comment}
    (h : Gathers { place, params, viewer } site s cs) :
    ∃ n, total { place, params, viewer } site s params.includeReplies = .ok n ∧
      (cs.length : Int) = if 0 < params.pageSize then
        min params.pageSize (max 0 (n - Slice.rowsBefore params.page params.pageSize)) else n := by
  obtain ⟨visible, hvisible⟩ := h.visible
  cases visible with
  | false =>
    obtain rfl := gathers_unseen hvisible h
    refine ⟨0, ?_, ?_⟩
    · rw [total, hvisible]
      rfl
    · have hbefore := Slice.rowsBefore_nonneg params.page params.pageSize
      rw [List.length_nil]
      split <;> omega
  | true =>
    obtain ⟨rows, hrows, hsees, rfl⟩ := h.found
    unfold Place.rows at hrows
    dsimp only at hrows
    rw [hmany] at hrows
    obtain ⟨f, hf, hrows⟩ := exists_of_bind_eq_ok hrows
    obtain rfl := Except.ok.inj hrows
    refine ⟨s.countSelected f, ?_, ?_⟩
    · rw [total, hvisible]
      change place.selection params viewer params.includeReplies >>= _ = _
      rw [hf]
      rfl
    · have hlength (order : SortOrder) :
          (Store.sorted (s.comments.filter f.covers) order).length = s.countSelected f :=
        s.length_select f order
      have hfits (order : SortOrder) :
          ((Store.sorted (s.comments.filter f.covers) order).length : Int) ≤ maxNumber := by
        have hle : s.countSelected f ≤ s.comments.length := List.countP_le_length
        rw [hlength]
        omega
      rw [List.filter_eq_self.2 fun r hr => hwhole.shows hvisible (hsees r hr), List.length_map,
        pageRows, Store.select, Slice.length_cut (hfits _), hlength]

/-- The counts of a listing agree with its pages, and stay what they are whatever else is asked of
the listing. -/
structure Tallies (w : World) (site : Site) (start : Listing) : Prop where
  everything : ∀ includeReplies order k size comments, size ≤ 0 →
    (page site start.place { start.params with includeReplies } start.viewer order k size).Answers
      w comments →
    ((countAllPages site includeReplies).eval start).Answers w comments.length
  replies : ∀ few, ((countAllPages site false).eval start).Answers w few →
    ∃ many, ((countAllPages site true).eval start).Answers w many ∧ few ≤ many ∧
      (start.params.replyTo.isSome → few = many)
  remaining : ∀ total,
    ((countAllPages site start.params.includeReplies).eval start).Answers w total →
    ∃ rest, ((count site).eval start).Answers w rest ∧ (rest : Int) =
      max 0 (total - max start.params.page 0 * max start.params.pageSize 0)
  single : ∀ comments, ((all site).eval start).Answers w comments →
    ∃ rest, ((count site).eval start).Answers w rest ∧ (comments.length : Int) =
      if 0 < start.params.pageSize then min start.params.pageSize rest else rest
  totalKept : ∀ earlier includeReplies total,
    ((after site earlier (countAllPages site includeReplies)).eval start).Answers w total →
    ((countAllPages site includeReplies).eval start).Answers w total
  pageKept : ∀ earlier comments, ((after site earlier (all site)).eval start).Answers w comments →
    ((all site).eval start).Answers w comments

/-- Everything that is asked of the listing is answered. -/
structure Responds (w : World) (site : Site) (start : Listing) : Prop where
  page : ∀ includeReplies order k size, ∃ comments,
    (page site start.place { start.params with includeReplies } start.viewer order k size).Answers
      w comments
  all : ∀ earlier, ∃ comments, ((after site earlier (all site)).eval start).Answers w comments
  rest : ∀ earlier, ∃ rest, ((after site earlier (count site)).eval start).Answers w rest
  total : ∀ earlier includeReplies, ∃ total,
    ((after site earlier (countAllPages site includeReplies)).eval start).Answers w total

theorem responds_of_served (h : place.IsServed site w.store params viewer) :
    Responds w site { place, params, viewer } := by
  have hE := h.hinders params rfl
  have hnew : Surveyed { place, params, viewer } site w.store { place, params, viewer } :=
    surveyed_start place params viewer
  have hanswers {α : Type} {m : ListingM α} (hm : m.Asks)
      (hsettles : ∀ l, Surveyed { place, params, viewer } site w.store l →
        m.Settles w.store (fun _ => False) l fun _ _ => True) (earlier : List Inquiry) :
      ∃ a, ((after site earlier m).eval { place, params, viewer }).Answers w a := by
    obtain ⟨a, l, hlook, -⟩ := (after_settles hsettles hnew hE earlier).exists_ok
    exact ⟨a, (after_asks hm earlier).answers_iff.2 (congrArg Prod.fst hlook)⟩
  refine ⟨fun includeReplies order k size => ?_, ?_, ?_, fun earlier includeReplies => ?_⟩
  · let other : ListingQuery :=
      { params with includeReplies, sort := order, page := k, pageSize := size }
    have hother := h.hinders other rfl
    obtain ⟨cs, l, hlook, -⟩ := (all_settles (surveyed_start place other viewer) hother).exists_ok
    exact ⟨cs, (all_asks site).answers_iff.2 (congrArg Prod.fst hlook)⟩
  · exact hanswers (all_asks site) fun l hl => (all_settles hl hE).imp fun _ _ _ => trivial
  · exact hanswers (count_asks site) fun l hl => (count_settles hl hE).imp fun _ _ _ => trivial
  · exact hanswers (countAllPages_asks site includeReplies)
      (fun l hl => (countAllPages_settles hl hE includeReplies).imp fun _ _ _ => trivial) earlier

/-- Over an unchanged store, with no more rows than a number can count, what a listing counts is what
its pages have, where it hides none of the rows of its place. -/
theorem tallies_of_whole (site : Site) {w : World} (hfew : w.store.comments.length ≤ maxNumber)
    (hmany : params.comment = none) (hwhole : place.IsWholeFor viewer) :
    Tallies w site { place, params, viewer } ∧
      (place.IsServed site w.store params viewer → Responds w site { place, params, viewer }) := by
  refine ⟨⟨?_, ?_, ?_, ?_, ?_, ?_⟩, responds_of_served⟩
  · intro includeReplies order k size cs hsize hpage
    let other : ListingQuery :=
      { params with includeReplies, sort := order, page := k, pageSize := size }
    have hgathers : Gathers { place, params := other, viewer } site w.store cs :=
      answers_all_iff.1 hpage
    have hother : other.comment = none := hmany
    obtain ⟨n, hn, hlength⟩ := hgathers.length_eq hfew hother hwhole
    rw [if_neg (Int.not_lt.2 hsize)] at hlength
    obtain rfl := Int.ofNat.inj hlength
    exact (answers_total_iff hmany).2 hn
  · intro few h
    obtain ⟨many, htotal, hle, hsame⟩ := exists_total_withReplies ((answers_total_iff hmany).1 h)
    exact ⟨many, (answers_total_iff hmany).2 htotal, hle, hsame⟩
  · intro n h
    exact exists_count_of_total hfew hmany ((answers_total_iff hmany).1 h)
  · intro cs h
    obtain ⟨n, hn, hlength⟩ := (answers_all_iff.1 h).length_eq hfew hmany hwhole
    obtain ⟨rest, hrest, hvalue⟩ := exists_count_of_total hfew hmany hn
    refine ⟨rest, hrest, ?_⟩
    rw [hlength, hvalue]
    split
    next => rfl
    next hsize =>
      have hbefore : Slice.rowsBefore params.page params.pageSize = 0 := by
        rw [Slice.rowsBefore, Int.max_eq_right (Int.not_lt.1 hsize), Int.mul_zero]
      rw [hbefore]
      omega
  · intro earlier includeReplies n h
    refine answers_countAllPages_iff.2 (holds_of_after (countAllPages_asks site _) (fun l hl => ?_) h)
    exact (countAllPages_settles hl .trivial includeReplies).imp fun _ _ h => h.1
  · intro earlier cs h
    refine answers_all_iff.2 (holds_of_after (all_asks site) (fun l hl => ?_) h)
    exact (all_settles hl .trivial).imp fun _ _ h => h.1

/-- The last of two pages, of which the trusted viewer sees everything. -/
theorem tallies_of_whole_secretPage :
    let site : Site := { permissions := fun _ _ _ => false, settings := {}, now := ⟨0, 0⟩ }
    let start : Listing :=
      { place := .ofArea secretPage
        params := { page := 1, pageSize := 3, includeReplies := true }
        viewer := .trusted }
    Tallies fourComments site start ∧ Responds fourComments site start ∧
      ((count site).eval start).Answers fourComments 1 := by
  intro site start
  have hserved : start.place.IsServed site fourComments.store start.params start.viewer :=
    ⟨⟨_, rfl, fun _ _ _ => ⟨_, rfl⟩⟩, ⟨_, rfl⟩⟩
  obtain ⟨htallies, hresponds⟩ := tallies_of_whole site (w := fourComments) (by decide)
    (show start.params.comment = none from rfl) (show start.place.IsWholeFor start.viewer from rfl)
  exact ⟨htallies, hresponds hserved, rfl⟩

end Listing

end Discussion
