import Discussion.Proofs.AreaPages

namespace Discussion

variable {s : Store} {w : World} {user : Option UserId} {id : CommentId}

namespace ListRequest

variable {req req' : ListRequest}

/-- The bounds on times are moments that a date can hold. -/
structure IsDated (req : ListRequest) : Prop where
  timeFrom : ∀ seconds ∈ req.timeFrom, (Instant.ofSeconds? seconds).isSome
  timeTo : ∀ seconds ∈ req.timeTo, (Instant.ofSeconds? seconds).isSome

/-- The bounds on times leave a moment in. -/
def spans (req : ListRequest) : Instant → Bool :=
  ListingQuery.spans {
    timeFrom := req.timeFrom.map Instant.ofSeconds
    timeTo := req.timeTo.map Instant.ofSeconds }

/-- What a request says of the order and of the pages. -/
def paging (settings : Settings) (req : ListRequest) : Except Error (SortOrder × Int) := do
  let sort ← SortOrder.ofName (Text.upper req.sort)
  let pageSize := req.pageSize.getD settings.defaultPageSize
  if settings.maxPageSize < pageSize then
    throw (.pageSize pageSize settings.maxPageSize)
  if (Slice.rowsBefore? req.page pageSize).isNone then
    throw (.mistake (.pageOutOfRange req.page pageSize))
  return (sort, pageSize)

theorem timeBound_of_isSome {name : String} {bound : Option Int}
    (h : ∀ seconds ∈ bound, (Instant.ofSeconds? seconds).isSome) :
    timeBound name bound = .ok (bound.map Instant.ofSeconds) := by
  cases bound with
  | none => rfl
  | some seconds =>
    have hsome := h seconds rfl
    unfold timeBound
    unfold Instant.ofSeconds? at hsome ⊢
    split at hsome
    next hbounds =>
      dsimp only
      rw [if_pos hbounds]
      rfl
    next => cases hsome

theorem params_of_isDated (h : req.IsDated) (settings : Settings) :
    req.params settings = (do
      let (sort, pageSize) ← req.paging settings
      return {
        comment := req.comment
        replyTo := req.replyTo
        timeFrom := req.timeFrom.map Instant.ofSeconds
        timeTo := req.timeTo.map Instant.ofSeconds
        page := req.page
        pageSize
        sort
        includeReplies := req.includeReplies
        includeChildContexts := req.includeChildContexts }) := by
  unfold params paging
  rw [timeBound_of_isSome h.timeFrom, timeBound_of_isSome h.timeTo, bind_assoc]
  refine congrArg _ (funext fun sort => ?_)
  dsimp only
  split
  · rfl
  split <;> rfl

theorem paging_congr (hpage : req'.page = req.page) (hsize : req'.pageSize = req.pageSize)
    (hsort : req'.sort = req.sort) (settings : Settings) :
    req'.paging settings = req.paging settings := by
  unfold paging
  rw [hpage, hsize, hsort]

end ListRequest

namespace Section

variable {sec : Section} {site : Site} {cs : List Comment} {size : Int}

theorem page_nil {page : CommentPage} (h : sec.page site s user cs size = .ok page) :
    sec.page site s user [] size = .ok { page with comments := [], total := 0 } ∧
      (page.comments = [] ↔ cs = []) := by
  obtain ⟨views, hviews, h⟩ := exists_of_bind_eq_ok h
  obtain ⟨head, hhead, h⟩ := exists_of_bind_eq_ok h
  obtain rfl := Except.ok.inj h
  refine ⟨?_, ?_⟩
  · rw [page, List.mapM_nil, hhead]
    rfl
  · cases cs with
    | nil =>
      obtain rfl := Except.ok.inj hviews
      exact ⟨fun _ => rfl, fun _ => rfl⟩
    | cons c cs =>
      rw [List.mapM_cons] at hviews
      obtain ⟨view, -, hviews⟩ := exists_of_bind_eq_ok hviews
      obtain ⟨rest, -, hviews⟩ := exists_of_bind_eq_ok hviews
      obtain rfl := Except.ok.inj hviews
      exact iff_of_false (List.cons_ne_nil _ _) (List.cons_ne_nil _ _)

theorem exists_page_nil (s : Store) (size : Int) {visible : Bool}
    (h : Listing.admits site (.ofUser user) sec = .ok visible) :
    ∃ page, sec.page site s user [] size = .ok page := by
  rw [Listing.admits_ofUser] at h
  obtain ⟨cap, hcap, -⟩ := exists_of_bind_eq_ok h
  obtain ⟨head, hhead⟩ := Listing.exists_look_viewSection (s := s) user hcap
  rw [page, List.mapM_nil, hhead]
  exact ⟨_, rfl⟩

end Section

namespace Forum

variable {f : Forum} {req req' : ListRequest}

/-- The page that shows a comment alone, or leaves it out. -/
def pageAlone (f : Forum) (s : Store) (user : Option UserId) (id : CommentId)
    (fits : Instant → Bool) (size : Int) : Except Error CommentPage :=
  match s.comment? id with
  | none => throw (.notFound id)
  | some row => do
    let sec ← (f.sectionOf row.key).look s
    let visible ← Listing.admits f.site (.ofUser user) sec
    sec.page f.site s user (if visible && fits row.timeCreated then [.ofStored row] else []) size

theorem look_list_of_isDated (hid : req.comment = some id) (h : req.IsDated) :
    (f.list user req).look s = (do
      let (_, size) ← req.paging f.site.settings
      f.pageAlone s user id req.spans size) := by
  rw [look_list_alone hid, ListRequest.params_of_isDated h, bind_assoc]
  refine congrArg _ (funext fun (sort, size) => ?_)
  change (match s.comment? id with
    | none => _
    | some row => _) = _
  unfold pageAlone
  cases hrow : s.comment? id with
  | none => rfl
  | some row =>
    dsimp only
    cases hsec : (f.sectionOf row.key).look s with
    | error e => rfl
    | ok sec =>
      have hown : row.key = sec.key := ((f.sectionOf_reads row.key).look hsec).symm
      refine congrArg (Listing.admits f.site (.ofUser user) sec >>= ·) (funext fun visible => ?_)
      rw [Section.alone_eq hrow hown]
      cases visible <;> rfl

theorem pageAlone_congr {fits fits' : Instant → Bool}
    (h : ∀ row, s.comment? id = some row → fits' row.timeCreated = fits row.timeCreated)
    (size : Int) : f.pageAlone s user id fits' size = f.pageAlone s user id fits size := by
  unfold pageAlone
  cases hrow : s.comment? id with
  | none => rfl
  | some row =>
    dsimp only
    rw [h row hrow]

theorem pageAlone_missed {fits fits' : Instant → Bool} {row : StoredComment}
    (hrow : s.comment? id = some row) (hfits : fits row.timeCreated = true)
    (hmissed : fits' row.timeCreated = false) {size : Int} :
    (∀ page, f.pageAlone s user id fits size = .ok page →
      f.pageAlone s user id fits' size = .ok { page with comments := [], total := 0 } ∧
        (page.comments ≠ [] ↔ f.sees user row.key = .ok true)) ∧
    ∀ e, f.pageAlone s user id fits' size = .error e → f.pageAlone s user id fits size = .error e := by
  unfold pageAlone
  rw [hrow]
  dsimp only
  rw [hfits, hmissed, sees_eq s]
  cases (f.sectionOf row.key).look s with
  | error e => exact ⟨fun _ h => (nomatch h), fun _ h => h⟩
  | ok sec =>
    change (∀ page, Listing.admits f.site (.ofUser user) sec >>= _ = _ →
      Listing.admits f.site (.ofUser user) sec >>= _ = _ ∧ (_ ↔
        Listing.admits f.site (.ofUser user) sec = _)) ∧
      ∀ e, Listing.admits f.site (.ofUser user) sec >>= _ = _ →
        Listing.admits f.site (.ofUser user) sec >>= _ = _
    cases hadmits : Listing.admits f.site (.ofUser user) sec with
    | error e => exact ⟨fun _ h => (nomatch h), fun _ h => h⟩
    | ok visible =>
      have hnone : (if visible && false then [Comment.ofStored row] else []) = [] := by
        cases visible <;> rfl
      refine ⟨fun page h => ?_, fun e h => ?_⟩
      · obtain ⟨hpage, hempty⟩ := Section.page_nil h
        refine ⟨?_, ?_⟩
        · change sec.page f.site s user (if visible && false then _ else []) size = _
          rw [hnone]
          exact hpage
        · rw [Ne, hempty]
          cases visible with
          | false => exact ⟨fun h => (h rfl).elim, (nomatch ·)⟩
          | true => exact ⟨fun _ => rfl, fun _ => List.cons_ne_nil _ _⟩
      · obtain ⟨page, hpage⟩ := Section.exists_page_nil s size hadmits
        change sec.page f.site s user (if visible && false then _ else []) size = _ at h
        rw [hnone, hpage] at h
        cases h

theorem listed_eq_look (f : Forum) (user : Option UserId) (req : ListRequest) (w : World) :
    f.listed user req w = (f.list user req).look w.store :=
  congrArg Prod.fst ((f.list_reads user req).run_never w)

/-- Besides the comment that they ask for, two requests for the same pages differ in nothing but
whether the comment was made in the time that they ask for. -/
theorem list_alone (f : Forum) (user : Option UserId) (w : World) (hdated : req.IsDated)
    (hdated' : req'.IsDated) (hid : req.comment = some id) (hid' : req'.comment = some id)
    (hpage : req'.page = req.page) (hsize : req'.pageSize = req.pageSize)
    (hsort : req'.sort = req.sort) :
    ((∀ row, w.store.comment? id = some row →
        req'.spans row.timeCreated = req.spans row.timeCreated) →
      f.listed user req' w = f.listed user req w) ∧
    ∀ row, w.store.comment? id = some row → req.spans row.timeCreated = true →
      req'.spans row.timeCreated = false →
      (∀ page, f.listed user req w = .ok page →
        f.listed user req' w = .ok { page with comments := [], total := 0 } ∧
          (page.comments ≠ [] ↔ f.sees user row.key = .ok true)) ∧
      ∀ e, f.listed user req' w = .error e → f.listed user req w = .error e := by
  rw [listed_eq_look, listed_eq_look, look_list_of_isDated hid hdated,
    look_list_of_isDated hid' hdated', ListRequest.paging_congr hpage hsize hsort]
  cases req.paging f.site.settings with
  | error e => exact ⟨fun _ => rfl, fun _ _ _ _ => ⟨fun _ h => (nomatch h), fun _ h => h⟩⟩
  | ok paging => exact ⟨fun h => pageAlone_congr h paging.2, fun row hrow hspans hmissed =>
      pageAlone_missed hrow hspans hmissed⟩

/-- Asks for the first comment, but not before the second one was made. -/
def lateRequest : ListRequest where
  comment := some 1
  timeFrom := some 2

theorem list_alone_terraced :
    let bare : ListRequest := { comment := some 1 }
    let other : ListRequest :=
      { comment := some 1, context := some 3, replyTo := some 9, timeFrom := some 0, timeTo := some 1,
        includeReplies := true }
    let w := annex [1]
    terraced.listed none other w = terraced.listed none bare w ∧
    ∃ page, terraced.listed none bare w = .ok page ∧ page.comments ≠ [] ∧
      terraced.listed none lateRequest w = .ok { page with comments := [], total := 0 } := by
  intro bare other w
  have hbare : bare.IsDated := ⟨by decide, by decide⟩
  have hother : other.IsDated := ⟨by decide, by decide⟩
  have hlateRequest : lateRequest.IsDated := ⟨by decide, by decide⟩
  have hsame := (list_alone terraced none w hbare hother rfl rfl rfl rfl rfl).1
  have hmissed := (list_alone terraced none w hbare hlateRequest rfl rfl rfl rfl rfl).2
  refine ⟨hsame fun row hrow => ?_, ?_⟩
  · obtain rfl := Option.some.inj hrow
    decide
  · have hanswered : (terraced.listed none bare w).toOption.isSome := by cbv
    cases hlisted : terraced.listed none bare w with
    | error e =>
      rw [hlisted] at hanswered
      cases hanswered
    | ok page =>
      obtain ⟨hlate, hseen⟩ := (hmissed _ rfl (by decide) (by decide)).1 page hlisted
      exact ⟨page, rfl, hseen.2 (by decide), hlate⟩

/-- The comment is missed though it is asked for by its id. -/
theorem list_late_terraced :
    lateRequest.IsDated ∧ terraced.listed none lateRequest (annex [1]) ≠
      terraced.listed none { comment := some 1 } (annex [1]) := by
  refine ⟨⟨by decide, by decide⟩, fun h => ?_⟩
  have htotal := congrArg (fun page => (page.map (·.total)).toOption) h
  have hlate : ((terraced.listed none lateRequest (annex [1])).map (·.total)).toOption = some 0 := by
    cbv
  have hbare : ((terraced.listed none { comment := some 1 } (annex [1])).map (·.total)).toOption =
      some 1 := by
    cbv
  cases hlate.symm.trans (htotal.trans hbare)

end Forum

end Discussion
