import Discussion.Proofs.PageLimit
import Discussion.Proofs.Totals

namespace Discussion

variable {w : World} {site : Site} {place : Place} {params : ListingQuery} {viewer : Viewer}

namespace Int64

theorem toInt_max (a b : Int64) : (max a b).toInt = max a.toInt b.toInt := by
  change (if a ≤ b then b else a).toInt = _
  rw [Int.max_def]
  split
  next h => rw [if_pos (Int64.le_iff_toInt_le.1 h)]
  next h => rw [if_neg fun hle => h (Int64.le_iff_toInt_le.2 hle)]

theorem toInt_le (a : Int64) : a.toInt ≤ maxNumber :=
  Int.le_sub_one_of_lt (Int64.toInt_lt a)

theorem exists_toInt_eq {n : Int} (hmin : 0 ≤ n) (hmax : n ≤ maxNumber) :
    ∃ a : Int64, a.toInt = n :=
  ⟨.ofInt n, Int64.toInt_ofInt_of_le (Int.le_trans (by decide) hmin) (Int.lt_of_le_sub_one hmax)⟩

/-- A product of words is exact where a word can hold it, and wraps around elsewhere. -/
theorem toInt_mul_eq_iff {a b : Int64} (h : 0 ≤ a.toInt * b.toInt) :
    (a * b).toInt = a.toInt * b.toInt ↔ a.toInt * b.toInt ≤ maxNumber := by
  constructor
  · intro heq
    rw [← heq]
    exact toInt_le (a * b)
  · intro hle
    obtain ⟨c, hc⟩ := exists_toInt_eq h hle
    rw [Int64.toInt_mul, ← hc, Int64.toInt_bmod]

end Int64

namespace Slice

/-- What is computed of the number of a page and its size, both of them 64-bit words, is exact, or cut
to the largest word; and where words would wrap around, the page is refused. -/
structure IsExact (page size : Int64) : Prop where
  checked : ∀ before, rowsBefore? page.toInt size.toInt = some before ↔
    max page.toInt 0 * max size.toInt 0 ≤ maxNumber ∧
      before = max page.toInt 0 * max size.toInt 0
  refused : rowsBefore? page.toInt size.toInt = none ↔
    (max page 0 * max size 0).toInt ≠ max page.toInt 0 * max size.toInt 0
  cut : ∀ slice, ofPage? page.toInt size.toInt = some slice ↔ 0 < size.toInt ∧
    slice.limit = size.toInt ∧ slice.offset = min (max page.toInt 0 * max size.toInt 0) maxNumber
  words : ∀ slice, ofPage? page.toInt size.toInt = some slice →
    ∃ offset limit : Int64, slice.offset = offset.toInt ∧ slice.limit = limit.toInt

theorem rowsBefore?_eq_some_iff {page size before : Int} :
    rowsBefore? page size = some before ↔
      rowsBefore page size ≤ maxNumber ∧ before = rowsBefore page size := by
  rw [rowsBefore?, Option.ite_none_right_eq_some, Option.some.injEq, eq_comm (a := before)]

theorem ofPage?_eq_some_iff {page size : Int} {slice : Slice} :
    ofPage? page size = some slice ↔ 0 < size ∧ slice.limit = size ∧
      slice.offset = min (rowsBefore page size) maxNumber := by
  rw [ofPage?, Option.ite_none_right_eq_some, Option.some.injEq, eq_comm (b := slice)]
  obtain ⟨offset, limit⟩ := slice
  rw [Slice.mk.injEq, and_comm (a := offset = _)]

theorem isExact (page size : Int64) : IsExact page size where
  checked := fun _ => rowsBefore?_eq_some_iff
  refused := by
    have hbefore := rowsBefore_nonneg page.toInt size.toInt
    have hproduct : (max page 0).toInt * (max size 0).toInt = rowsBefore page.toInt size.toInt := by
      rw [Int64.toInt_max, Int64.toInt_max]
      rfl
    have hexact := Int64.toInt_mul_eq_iff (hbefore.trans_eq hproduct.symm)
    rw [hproduct] at hexact
    change _ ↔ _ ≠ rowsBefore page.toInt size.toInt
    rw [Ne, hexact, rowsBefore?, ite_eq_right_iff]
    exact forall_congr' fun _ => iff_of_false (Option.some_ne_none _) id
  cut := fun _ => ofPage?_eq_some_iff
  words := by
    intro slice h
    obtain ⟨-, hlimit, hoffset⟩ := ofPage?_eq_some_iff.1 h
    have hbefore := rowsBefore_nonneg page.toInt size.toInt
    obtain ⟨offset, ho⟩ := Int64.exists_toInt_eq (Int.le_min.2 ⟨hbefore, by decide⟩)
      (Int.min_le_right (rowsBefore page.toInt size.toInt) maxNumber)
    exact ⟨offset, size, hoffset.trans ho.symm, hlimit⟩

theorem cut_eq_nil_iff {α : Type} (rows : List α) (page size : Int) :
    cut rows (ofPage? page size) = [] ↔
      (rows.length - min (rowsBefore page size) maxNumber).toNat = 0 := by
  rw [ofPage?]
  split
  next hsize =>
    change (rows.drop (min (rowsBefore page size) maxNumber).toNat).take size.toNat = [] ↔ _
    rw [← List.length_eq_zero_iff, List.length_take, List.length_drop]
    have hbefore := rowsBefore_nonneg page size
    have hlargest : 0 ≤ maxNumber := by decide
    omega
  next hsize =>
    have hbefore : rowsBefore page size = 0 := by
      rw [rowsBefore, Int.max_eq_right (Int.not_lt.1 hsize), Int.mul_zero]
    change rows = [] ↔ _
    rw [← List.length_eq_zero_iff, hbefore]
    have hlargest : 0 ≤ maxNumber := by decide
    omega

end Slice

theorem ListRequest.rowsBefore?_of_params {settings : Settings} {req : ListRequest}
    (h : req.params settings = .ok params) :
    Slice.rowsBefore? params.page params.pageSize =
      some (Slice.rowsBefore params.page params.pageSize) := by
  obtain ⟨sort, -, h⟩ := exists_of_bind_eq_ok h
  dsimp only at h
  split at h
  · cases h
  split at h
  · cases h
  next hbefore =>
  obtain ⟨timeFrom, -, h⟩ := exists_of_bind_eq_ok h
  obtain ⟨timeTo, -, h⟩ := exists_of_bind_eq_ok h
  obtain rfl := Except.ok.inj h
  rw [Option.isNone_iff_eq_none] at hbefore
  obtain ⟨before, hsome⟩ := Option.ne_none_iff_exists'.1 hbefore
  rw [hsome, (Slice.rowsBefore?_eq_some_iff.1 hsome).2]

namespace Listing

open ListingM

/-- What a listing counts from its page on is what so many rows before the page leave of the total,
and it is nothing exactly where the store has no rows for the page. Of a section that the viewer may
not see the store is not asked. -/
structure Leaves (w : World) (site : Site) (start : Listing) (before : Int) : Prop where
  rest : ∀ total : Nat, total ≤ maxNumber →
    ((countAllPages site start.params.includeReplies).eval start).Answers w total →
    ∃ rest : Nat, ((count site).eval start).Answers w rest ∧ (rest : Int) = max 0 (total - before)
  nothing : start.isVisible site = .ok true →
    ∀ rest, ((count site).eval start).Answers w rest →
      ∃ rows, (fetchRows.eval start).Answers w rows ∧ (rest = 0 ↔ rows = [])
  unseen : start.isVisible site = .ok false →
    ((count site).eval start).Answers w 0 ∧ ((all site).eval start).Answers w []

theorem look_all_unseen {s : Store}
    (hunseen : isVisible site { place, params, viewer } = .ok false) :
    ((all site).look s { place, params, viewer }).1 = .ok [] := by
  have hfetch : (fetch site).look s { place, params, viewer } =
      (.ok [], { place, params, viewer }) := by
    unfold fetch
    rw [look_bind_of look_get, hunseen, look_bind_of (look_lift _)]
    rfl
  unfold all
  rw [look_bind_of look_get]
  change (ListingM.look s (fetch site >>= _) _).1 = _
  rw [look_bind_of hfetch]
  rfl

theorem leaves_rowsBefore (hmany : params.comment = none) :
    Leaves w site { place, params, viewer } (Slice.rowsBefore params.page params.pageSize) where
  rest := by
    intro total hfew htotal
    have htotal := (answers_total_iff hmany).1 htotal
    refine ⟨(total - min (Slice.rowsBefore params.page params.pageSize) maxNumber).toNat, ?_, ?_⟩
    · rw [(count_asks site).answers_iff, look_count_fst hmany, htotal]
      rfl
    · omega
  nothing := by
    intro hvisible rest hrest
    rw [(count_asks site).answers_iff, look_count_fst hmany] at hrest
    obtain ⟨total, htotal, hrest⟩ := exists_of_bind_eq_ok hrest
    obtain rfl := Except.ok.inj hrest
    rw [Listing.total, hvisible] at htotal
    obtain ⟨f, hf, htotal⟩ := exists_of_bind_eq_ok
      (x := place.selection params viewer params.includeReplies) htotal
    obtain rfl := Except.ok.inj htotal
    have hrows : place.rows w.store params viewer = .ok (pageRows w.store f params) := by
      rw [Place.rows, hmany]
      change place.selection params viewer params.includeReplies >>= _ = _
      rw [hf]
      rfl
    obtain ⟨reach, hlook⟩ := look_fetchRows_of hrows
    refine ⟨pageRows w.store f params, fetchRows_asks.answers_iff.2 (congrArg Prod.fst hlook), ?_⟩
    rw [pageRows, Store.select, Slice.cut_eq_nil_iff]
    have hlength := w.store.length_select f params.sort
    rw [← hlength]
    rfl
  unseen := by
    intro hunseen
    refine ⟨?_, (all_asks site).answers_iff.2 (look_all_unseen hunseen)⟩
    have htotal : total { place, params, viewer } site w.store params.includeReplies = .ok 0 := by
      rw [Listing.total, hunseen]
      rfl
    rw [(count_asks site).answers_iff, look_count_fst hmany, htotal]
    exact congrArg Except.ok (Slice.toNat_zero_sub_rowsBefore params.page params.pageSize)

/-- On every page the rows before it are counted exactly, or are too many for a 64-bit word. Where a
request is let through they are not too many, and its slice begins after them; and what is counted
from a page on is what they leave of the total. -/
theorem offsets_exact {page size : Int64} (hpage : params.page = page.toInt)
    (hsize : params.pageSize = size.toInt) :
    let before := max page.toInt 0 * max size.toInt 0
    Slice.IsExact page size ∧
    (params.comment = none → Leaves w site { place, params, viewer } before) ∧
    ∀ settings req, ListRequest.params settings req = .ok params →
      Slice.rowsBefore? params.page params.pageSize = some before ∧
        ∀ slice, Slice.ofPage? params.page params.pageSize = some slice →
          slice.offset = before := by
  intro before
  have hbefore : Slice.rowsBefore params.page params.pageSize = before := by
    rw [hpage, hsize]
    rfl
  refine ⟨Slice.isExact page size, fun hmany => hbefore ▸ leaves_rowsBefore hmany, ?_⟩
  intro settings req hparams
  have hexact := ListRequest.rowsBefore?_of_params hparams
  rw [hbefore] at hexact
  refine ⟨hexact, fun slice hslice => ?_⟩
  obtain ⟨hle, -⟩ := Slice.rowsBefore?_eq_some_iff.1 hexact
  obtain ⟨-, -, hoffset⟩ := Slice.ofPage?_eq_some_iff.1 hslice
  rw [hoffset, Int.min_eq_left hle, hbefore]

/-- Before the one page are as many rows as a word can just not hold. The other one is let through. -/
theorem offsets_exact_secretPage :
    let site : Site := { permissions := fun _ _ _ => false, settings := {}, now := ⟨0, 0⟩ }
    let params (page size : Int64) : ListingQuery :=
      { page := page.toInt, pageSize := size.toInt, includeReplies := true }
    let start (page size : Int64) : Listing :=
      { place := .ofArea secretPage, params := params page size, viewer := .trusted }
    let req : ListRequest := { page := 1, pageSize := some 3, sort := "desc", includeReplies := true }
    Slice.IsExact 4611686018427387904 2 ∧
    Leaves fourComments site (start 4611686018427387904 2) 9223372036854775808 ∧
    ((count site).eval (start 4611686018427387904 2)).Answers fourComments 0 ∧
    Leaves fourComments site (start 1 3) 3 ∧
    ((count site).eval (start 1 3)).Answers fourComments 1 ∧
    req.params site.settings = .ok (params 1 3) ∧
    Slice.rowsBefore? 1 3 = some 3 := by
  intro site params start req
  have hbeyond := @offsets_exact fourComments site (.ofArea secretPage)
    (params 4611686018427387904 2) .trusted 4611686018427387904 2 rfl rfl
  have hwithin := @offsets_exact fourComments site (.ofArea secretPage) (params 1 3) .trusted 1 3
    rfl rfl
  have hparams : req.params site.settings = .ok (params 1 3) := by cbv
  exact ⟨hbeyond.1, hbeyond.2.1 rfl, rfl, hwithin.2.1 rfl, rfl, hparams,
    (hwithin.2.2 site.settings req hparams).1⟩

end Listing

end Discussion
