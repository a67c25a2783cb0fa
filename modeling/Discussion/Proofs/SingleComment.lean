import Mathlib
import Discussion.Proofs.Totals

namespace Discussion

open ListingM

variable {s : Store} {w : World} {site : Site} {place : Place} {params : ListingQuery}
variable {viewer : Viewer} {id : CommentId}

section Keys

variable {α β : Type} [BEq β] [LawfulBEq β] {key : α → β} {l : List α}

theorem find?_eq_some_iff_of_nodup (h : (l.map key).Nodup) {k : β} {a : α} :
    l.find? (key · == k) = some a ↔ a ∈ l ∧ key a = k := by
  constructor
  · intro hfind
    have hkey := List.find?_some hfind
    exact ⟨List.mem_of_find?_eq_some hfind, beq_iff_eq.1 hkey⟩
  · rintro ⟨ha, rfl⟩
    obtain ⟨b, hfind⟩ : ∃ b, l.find? (key · == key a) = some b :=
      Option.isSome_iff_exists.1 (List.find?_isSome.2 ⟨a, ha, beq_self_eq_true _⟩)
    have hkey := List.find?_some hfind
    rw [hfind, List.inj_on_of_nodup_map h (List.mem_of_find?_eq_some hfind) ha (beq_iff_eq.1 hkey)]

theorem find?_filter_of_nodup (h : (l.map key).Nodup) (p : α → Bool) (k : β) :
    (l.filter p).find? (key · == k) = (l.find? (key · == k)).filter p := by
  have hfilter : ((l.filter p).map key).Nodup := h.sublist (List.filter_sublist.map key)
  ext a
  rw [find?_eq_some_iff_of_nodup hfilter, Option.filter_eq_some_iff,
    find?_eq_some_iff_of_nodup h, List.mem_filter, and_right_comm]

theorem find?_perm_of_nodup {l' : List α} (h : (l.map key).Nodup) (hperm : l'.Perm l) (k : β) :
    l'.find? (key · == k) = l.find? (key · == k) := by
  have hperm' : (l'.map key).Nodup := (hperm.map key).nodup_iff.2 h
  ext a
  rw [find?_eq_some_iff_of_nodup hperm', find?_eq_some_iff_of_nodup h, hperm.mem_iff]

end Keys

namespace Instant

theorem notAfter_eq {t u : Instant} (ht : t.nanos = 0) (hu : u.nanos = 0) :
    t.notAfter u = decide (t.seconds ≤ u.seconds) := by
  rw [Bool.eq_iff_iff, notAfter, ht, hu, Bool.or_eq_true, Bool.and_eq_true, decide_eq_true_iff,
    decide_eq_true_iff, decide_eq_true_iff, beq_iff_eq]
  omega

end Instant

namespace Selection

/-- Bounds on whole seconds are met by the same comments, however they are compared. -/
theorem coversInstant_eq {f : Selection} (hfrom : ∀ t ∈ f.timeFrom, t.nanos = 0)
    (hto : ∀ t ∈ f.timeTo, t.nanos = 0) {t : Instant} (ht : t.nanos = 0) :
    f.coversInstant t = f.coversSecond t.seconds := by
  unfold coversInstant coversSecond
  congr 1
  · cases hbound : f.timeFrom with
    | none => rfl
    | some u => exact Instant.notAfter_eq (hfrom u hbound) ht
  · cases hbound : f.timeTo with
    | none => rfl
    | some u => exact Instant.notAfter_eq ht (hto u hbound)

theorem coversAlone_eq {f : Selection} (hany : f.parent = .any)
    (hfrom : ∀ t ∈ f.timeFrom, t.nanos = 0) (hto : ∀ t ∈ f.timeTo, t.nanos = 0)
    {r : StoredComment} (hr : r.timeCreated.nanos = 0) : f.coversAlone r = f.covers r := by
  rw [coversAlone, covers, coversInstant_eq hfrom hto hr, hany, ThreadLevel.covers, Bool.and_true]

end Selection

/-- All comments on one page, with the same times and contexts. -/
def ListingQuery.wide (params : ListingQuery) (order : SortOrder) (k size : Int) : ListingQuery :=
  { params with
    comment := none
    replyTo := none
    includeReplies := true
    sort := order
    page := k
    pageSize := size }

theorem Store.find?_sorted (hids : (s.comments.map (·.id)).Nodup) (p : StoredComment → Bool)
    (order : SortOrder) (id : CommentId) :
    ((sorted (s.comments.filter p) order).map (·.id)).Nodup ∧
      (sorted (s.comments.filter p) order).find? (·.id == id) = (s.comment? id).filter p := by
  have hfilter : ((s.comments.filter p).map (·.id)).Nodup :=
    hids.sublist (List.filter_sublist.map _)
  refine ⟨((perm_sorted _ order).map _).nodup_iff.2 hfilter, ?_⟩
  rw [find?_perm_of_nodup hfilter (perm_sorted _ order), find?_filter_of_nodup hids]
  rfl

theorem Place.rows_find? (hids : (s.comments.map (·.id)).Nodup)
    (hseconds : ∀ r ∈ s.comments, r.timeCreated.nanos = 0)
    (hfrom : ∀ t ∈ params.timeFrom, t.nanos = 0) (hto : ∀ t ∈ params.timeTo, t.nanos = 0)
    (hone : params.comment = some id) {order : SortOrder} {k size : Int} (hsize : size ≤ 0)
    {rows : List StoredComment} (h : place.rows s (params.wide order k size) viewer = .ok rows) :
    (rows.map (·.id)).Nodup ∧ place.rows s params viewer = .ok (rows.find? (·.id == id)).toList := by
  obtain ⟨f, (hf : place.selection (params.wide order k size) viewer true = .ok f), hrows⟩ :=
    exists_of_bind_eq_ok (x := place.selection _ viewer true) h
  obtain rfl : Store.sorted (s.comments.filter f.covers) order = rows := by
    rw [← Except.ok.inj hrows, Listing.pageRows, Store.select]
    change _ = Slice.cut _ (Slice.ofPage? k size)
    rw [Slice.ofPage?, if_neg (Int.not_lt.2 hsize)]
    rfl
  have hsame := Except.ok.inj (hf.symm.trans (selection_of hf _ rfl true))
  have hany : f.parent = .any := congrArg Selection.parent hsame
  have htimeFrom : f.timeFrom = params.timeFrom := congrArg Selection.timeFrom hsame
  have htimeTo : f.timeTo = params.timeTo := congrArg Selection.timeTo hsame
  obtain ⟨hkeys, hfound⟩ := Store.find?_sorted hids f.covers order id
  refine ⟨hkeys, ?_⟩
  have halone : (s.comment? id).filter f.coversAlone = (s.comment? id).filter f.covers := by
    cases hrow : s.comment? id with
    | none => rfl
    | some r =>
      have hr := hseconds r (Store.mem_of_comment? hrow).1
      rw [Option.filter_some, Option.filter_some,
        Selection.coversAlone_eq hany (htimeFrom ▸ hfrom) (htimeTo ▸ hto) hr]
  unfold rows
  rw [hone, hfound, ← halone]
  change place.selection params viewer true >>= _ = _
  rw [selection_of hf params rfl true, ← htimeFrom, ← htimeTo]
  rfl

namespace Listing

/-- The listing has the comment that was found, if any, and counts as many. -/
structure HasOnly (w : World) (site : Site) (start : Listing) (found : Option Comment) : Prop where
  page : ((all site).eval start).Answers w found.toList
  rest : ((count site).eval start).Answers w found.toList.length
  total : ∀ includeReplies,
    ((countAllPages site includeReplies).eval start).Answers w found.toList.length

theorem HasOnly.of_gathers (hone : params.comment.isSome) {found : Option Comment}
    (h : Gathers { place, params, viewer } site w.store found.toList) :
    HasOnly w site { place, params, viewer } found := by
  have htotals (includeReplies : Bool) :
      Totals { place, params, viewer } site w.store includeReplies found.toList.length := by
    obtain ⟨id, hid⟩ := Option.isSome_iff_exists.1 hone
    unfold Totals
    rw [hid]
    exact ⟨_, h, rfl⟩
  refine ⟨answers_all_iff.2 h, ?_, fun includeReplies => ?_⟩
  · exact answers_count_iff.2 ⟨_, htotals _, (if_pos hone).symm⟩
  · exact answers_countAllPages_iff.2 (htotals includeReplies)

theorem gathers_find? (hids : (s.comments.map (·.id)).Nodup)
    (hseconds : ∀ r ∈ s.comments, r.timeCreated.nanos = 0)
    (hfrom : ∀ t ∈ params.timeFrom, t.nanos = 0) (hto : ∀ t ∈ params.timeTo, t.nanos = 0)
    (hone : params.comment = some id) {order : SortOrder} {k size : Int} (hsize : size ≤ 0)
    {cs : List Comment} (h : Gathers { place, params := params.wide order k size, viewer } site s cs) :
    Gathers { place, params, viewer } site s (cs.find? (·.id == some id)).toList := by
  obtain ⟨hvisible, rows, hrows, hsees, rfl⟩ := h
  obtain ⟨hkeys, hrow⟩ := Place.rows_find? hids hseconds hfrom hto hone hsize hrows
  have hmem : ∀ r ∈ (rows.find? (·.id == id)).toList, r ∈ rows := fun r hr =>
    List.mem_of_find?_eq_some (Option.mem_toList.1 hr)
  refine ⟨hvisible, _, hrow, fun r hr => hsees r (hmem r hr), ?_⟩
  rw [List.find?_map]
  change ((List.find? (fun r : StoredComment => r.id == id) _).map _).toList = _
  rw [find?_filter_of_nodup hkeys]
  cases rows.find? (·.id == id) with
  | none => rfl
  | some r =>
    rw [Option.filter_some, Option.toList_some, List.filter_singleton]
    dsimp only
    cases place.shows site viewer r.key <;> rfl

/-- A listing of one comment finds it where the listing of all comments there has it, whatever else
it asks for. -/
theorem single_found (site : Site) {w : World} (hids : (w.store.comments.map (·.id)).Nodup)
    (hseconds : ∀ r ∈ w.store.comments, r.timeCreated.nanos = 0) (place : Place)
    (params : ListingQuery) (hfrom : ∀ t ∈ params.timeFrom, t.nanos = 0)
    (hto : ∀ t ∈ params.timeTo, t.nanos = 0) (viewer : Viewer) {id : CommentId}
    (hone : params.comment = some id) :
    (∀ order k size comments, size ≤ 0 →
      ((all site).eval { place, params := params.wide order k size, viewer }).Answers w comments →
        HasOnly w site { place, params, viewer } (comments.find? (·.id == some id))) ∧
    (place.IsServed site w.store params viewer → ∀ order k size, ∃ comments,
      ((all site).eval { place, params := params.wide order k size, viewer }).Answers w comments) := by
  constructor
  · intro order k size comments hsize hpage
    exact .of_gathers (Option.isSome_of_eq_some hone)
      (gathers_find? hids hseconds hfrom hto hone hsize (answers_all_iff.1 hpage))
  · intro h order k size
    have hE := h.hinders (params.wide order k size) rfl
    obtain ⟨comments, l, hlook, -⟩ := (all_settles (surveyed_start _ _ _) hE).exists_ok
    exact ⟨comments, (all_asks site).answers_iff.2 (congrArg Prod.fst hlook)⟩

/-- A guest finds the first comment, which is of the last second that is asked for, and misses the
second one, which is hidden. -/
theorem single_found_secretPage :
    let site : Site := { permissions := fun _ _ _ => true, settings := {}, now := ⟨0, 0⟩ }
    let single (id : CommentId) : Listing :=
      { place := .ofArea secretPage
        params := { comment := some id, replyTo := some 7, timeTo := some ⟨5, 0⟩, page := 3 }
        viewer := .guest }
    (∃ c, c.id = some 1 ∧ HasOnly fourComments site (single 1) (some c)) ∧
      HasOnly fourComments site (single 2) none ∧
      ∃ comments, ((all site).eval { single 1 with
        params := (single 1).params.wide .descending 0 0 }).Answers fourComments comments := by
  intro site single
  have hfrom : ∀ t ∈ (none : Option Instant), t.nanos = 0 := by decide
  have hto : ∀ t ∈ (some ⟨5, 0⟩ : Option Instant), t.nanos = 0 := by decide
  have hserved (id : CommentId) :
      (single id).place.IsServed site fourComments.store (single id).params (single id).viewer :=
    ⟨⟨_, rfl, fun _ _ _ => ⟨_, rfl⟩⟩, ⟨_, rfl⟩⟩
  let row (n : Nat) : Comment := .ofStored (fourComments.store.comments.getD n default)
  have hwide (id : CommentId) : ((all site).eval { single id with
      params := (single id).params.wide .descending 0 0 }).Answers fourComments
        [row 2, row 0, row 3] := by
    cbv
  have hfound (id : CommentId) := single_found site (w := fourComments) (by decide)
    (by decide) (single id).place (single id).params hfrom hto (single id).viewer rfl
  have hone := (hfound 1).1 .descending 0 0 _ (by decide) (hwide 1)
  have hnone := (hfound 2).1 .descending 0 0 _ (by decide) (hwide 2)
  exact ⟨⟨row 0, rfl, hone⟩, hnone, (hfound 1).2 (hserved 1) .descending 0 0⟩

end Listing

end Discussion
