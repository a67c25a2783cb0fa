import Discussion.Proofs.AreaPages
import Discussion.Proofs.Removal

namespace Discussion

variable {s : Store} {w : World} {user : Option UserId}

/-- The page size of a request, which is the usual one of the site where the request names none. -/
def ListRequest.size (req : ListRequest) (settings : Settings) : Int :=
  req.pageSize.getD settings.defaultPageSize

theorem ListRequest.size_of_params {req : ListRequest} {settings : Settings} {params : ListingQuery}
    (h : req.params settings = .ok params) :
    params.pageSize = req.size settings ∧ req.size settings ≤ settings.maxPageSize := by
  obtain ⟨sort, -, h⟩ := exists_of_bind_eq_ok h
  dsimp only at h
  split at h
  · cases h
  next hsize =>
  split at h
  · cases h
  obtain ⟨timeFrom, -, h⟩ := exists_of_bind_eq_ok h
  obtain ⟨timeTo, -, h⟩ := exists_of_bind_eq_ok h
  obtain rfl := Except.ok.inj h
  exact ⟨rfl, Int.not_lt.1 hsize⟩

theorem Slice.length_cut_le {α : Type} (rows : List α) (page : Int) {size : Int}
    (hsize : 0 < size) : ((cut rows (ofPage? page size)).length : Int) ≤ size := by
  rw [ofPage?, if_pos hsize]
  change (((rows.drop _).take size.toNat).length : Int) ≤ size
  rw [List.length_take]
  omega

namespace Place

variable {place : Place} {params : ListingQuery} {viewer : Viewer} {rows : List StoredComment}

theorem length_rows_alone {id : CommentId} (hone : params.comment = some id)
    (h : place.rows s params viewer = .ok rows) : rows.length ≤ 1 := by
  unfold Place.rows at h
  rw [hone] at h
  obtain ⟨f, -, h⟩ := exists_of_bind_eq_ok h
  obtain rfl := Except.ok.inj h
  cases (s.comment? id).filter f.coversAlone with
  | none => exact Nat.zero_le 1
  | some r => exact Nat.le_refl 1

theorem rows_many (hmany : params.comment = none) (h : place.rows s params viewer = .ok rows) :
    ∃ g, place.selection params viewer params.includeReplies = .ok g ∧
      rows = Listing.pageRows s g params := by
  unfold Place.rows at h
  rw [hmany] at h
  obtain ⟨g, hg, h⟩ := exists_of_bind_eq_ok h
  exact ⟨g, hg, (Except.ok.inj h).symm⟩

theorem length_rows_le (hmany : params.comment = none) (hsize : 0 < params.pageSize)
    (h : place.rows s params viewer = .ok rows) : (rows.length : Int) ≤ params.pageSize := by
  obtain ⟨g, -, rfl⟩ := rows_many hmany h
  exact Slice.length_cut_le _ _ hsize

theorem rows_unlimited (hmany : params.comment = none) (hsize : params.pageSize ≤ 0)
    (h : place.rows s params viewer = .ok rows) :
    ∃ g, place.selection params viewer params.includeReplies = .ok g ∧
      rows.Perm (s.comments.filter g.covers) := by
  obtain ⟨g, hg, rfl⟩ := rows_many hmany h
  refine ⟨g, hg, ?_⟩
  rw [Listing.pageRows, Slice.ofPage?, if_neg (Int.not_lt.2 hsize)]
  exact Store.perm_sorted _ _

end Place

namespace Forum

variable {f : Forum} {req : ListRequest}

/-- The page shows all that a request for the comments of a section or an area asks for: in some
order it has a view of each stored comment that fits, if the user may see it, and no other view. -/
def ShowsAll (f : Forum) (user : Option UserId) (req : ListRequest) (s : Store)
    (page : CommentPage) : Prop :=
  ∃ params place g shown, req.params f.site.settings = .ok params ∧ f.place req = .ok place ∧
    place.selection params (.ofUser user) params.includeReplies = .ok g ∧
    shown.Perm (outside (f.hides user) (s.comments.filter g.covers)) ∧
    List.Forall₂ (fun r v => ∃ sec cap fields, f.Depicts s user r sec cap fields v) shown
      page.comments

/-- No page has more comments than its size, where it has one above zero, and the size is within the
limit of the site. Without one nothing is left out for the length of the page. -/
theorem list_limited {σ : Type} {faults : Faults σ} {state : σ} {page : CommentPage}
    (h : ((f.list user req).run.run faults state w).1 = .ok page) :
    let size := req.size f.site.settings
    size ≤ f.site.settings.maxPageSize ∧
    (1 ≤ f.site.settings.maxPageSize → 0 < size ∨ req.comment.isSome →
      (page.comments.length : Int) ≤ f.site.settings.maxPageSize) ∧
    (req.comment = none → 0 < size → (page.comments.length : Int) ≤ size) ∧
    (req.comment = none → size ≤ 0 → f.ShowsAll user req w.store page) := by
  intro size
  obtain ⟨params, place, cs, hparams, hopens, hpaged⟩ :=
    list_settled ((f.list_asks user req).look_of_run h)
  obtain ⟨hsize, hlimit⟩ := ListRequest.size_of_params hparams
  obtain ⟨hcomment, -, -⟩ := ListRequest.params_inv hparams
  obtain ⟨rows, hrows, -, hshown⟩ := hopens.depicts hpaged
  have hfew : page.comments.length ≤ rows.length :=
    hshown.length_eq ▸ List.length_filter_le _ rows
  have hbounded (hmany : req.comment = none) (hpos : 0 < size) :
      (page.comments.length : Int) ≤ size := by
    have hpage := Place.length_rows_le (hcomment.trans hmany) (hsize ▸ hpos) hrows
    rw [hsize] at hpage
    exact Int.le_trans (Int.ofNat_le.2 hfew) hpage
  refine ⟨hlimit, fun hmax hcase => ?_, hbounded, fun hmany hsmall => ?_⟩
  · cases hone : req.comment with
    | none =>
      rw [hone] at hcase
      exact Int.le_trans (hbounded hone (hcase.resolve_right Bool.false_ne_true)) hlimit
    | some id =>
      have hrow := Place.length_rows_alone (hcomment.trans hone) hrows
      omega
  · obtain ⟨g, hg, hall⟩ := Place.rows_unlimited (hcomment.trans hmany) (hsize ▸ hsmall) hrows
    exact ⟨params, place, g, _, hparams, hopens.place_eq hmany, hg, hall.filter _, hshown⟩

/-- The wiki, with no more than one comment on a page. -/
def narrowWiki : Forum :=
  { Forum.wiki .wiki with
    site := { (Forum.wiki .wiki).site with
      settings := { maxPageSize := 1, defaultPageSize := 1 } } }

/-- Asks for the threads of the page, in pages of some size. -/
def threadsInPages (size : Option Int) : ListRequest where
  component := some "wiki"
  area := some "talk"
  context := some 1
  item := some 1
  pageSize := size

theorem list_limited_twoThreads :
    ∃ page, narrowWiki.listed none (threadsInPages none) twoThreads = .ok page ∧
      page.total = 5 ∧ (page.comments.length : Int) ≤ narrowWiki.site.settings.maxPageSize := by
  have htotal : ((narrowWiki.listed none (threadsInPages none) twoThreads).map
      (·.total)).toOption = some 5 := by cbv
  obtain ⟨page, hlisted, htotal⟩ := exists_of_toOption_map htotal
  exact ⟨page, hlisted, htotal, (list_limited hlisted).2.1 (by decide) (.inl (by decide))⟩

/-- A page of size zero holds both threads, although the site allows one comment a page. -/
theorem list_unlimited_twoThreads :
    1 ≤ narrowWiki.site.settings.maxPageSize ∧
      ∃ page, narrowWiki.listed none (threadsInPages (some 0)) twoThreads = .ok page ∧
        ¬(page.comments.length : Int) ≤ narrowWiki.site.settings.maxPageSize := by
  have hlength : ((narrowWiki.listed none (threadsInPages (some 0)) twoThreads).map
      (·.comments.length)).toOption = some 2 := by cbv
  obtain ⟨page, hlisted, hlength⟩ := exists_of_toOption_map hlength
  refine ⟨by decide, page, hlisted, ?_⟩
  rw [hlength]
  decide

end Forum

end Discussion
