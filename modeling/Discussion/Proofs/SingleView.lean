import Discussion.Proofs.HiddenAuthors.Page

namespace Discussion

variable {s : Store} {w : World}

/-- The comment of the view is stored, and this is how the user sees it. -/
structure Forum.Presents (f : Forum) (s : Store) (user : UserId) (row : StoredComment)
    (sec : Section) (cap : Capability) (v : ShownComment) : Prop where
  stored : s.comment? v.id = some row
  located : (f.sectionOf row.key).look s = .ok sec
  own : row.key = sec.key
  capability : sec.capability f.site (some user) = .ok cap
  allowed : cap.mayView
  seen : (sec.viewComment (.ofStored row) cap ⟨s.person? row.author, s.person? row.modifier⟩).look s =
    .ok v

/-- The view is what the user reads of its comment alone, in the default listing and in every other
that sets no bounds on times. -/
structure Forum.ReadsBack (f : Forum) (user : UserId) (w : World) (v : ShownComment) : Prop where
  accepted : ∃ params, ListRequest.params f.site.settings { comment := some v.id } = .ok params
  shown : ∀ {req : ListRequest} {params : ListingQuery},
    req.params f.site.settings = .ok params → req.comment = some v.id → req.timeFrom = none →
      req.timeTo = none → ∃ page, (f.list (some user) req).Answers w page ∧ page.comments = [v]

/-- The bounds on times leave a moment in, each of them compared to the nanosecond. -/
def ListingQuery.spans (params : ListingQuery) (t : Instant) : Bool :=
  params.timeFrom.all (·.notAfter t) && params.timeTo.all (t.notAfter ·)

namespace Section

variable (sec : Section)

/-- The comment of a listing of the section that is about it alone. -/
def alone (s : Store) (params : ListingQuery) (id : CommentId) : List Comment :=
  ((s.comment? id).filter fun r => r.key == sec.key && params.spans r.timeCreated).toList.map
    .ofStored

/-- How the user sees a comment of the section. -/
def exhibit (site : Site) (s : Store) (user : Option UserId) (c : Comment) :
    Except Error ShownComment := do
  let cap ← sec.capability site user
  (sec.viewComment c cap ⟨s.person? c.author, s.person? c.modifier⟩).look s

/-- The page of the section with some of its comments. -/
def page (site : Site) (s : Store) (user : Option UserId) (cs : List Comment) (pageSize : Int) :
    Except Error CommentPage := do
  let views ← cs.mapM (sec.exhibit site s user)
  let head ← (Listing.viewSection site user sec).look s
  return {
    comments := views
    total := cs.length
    sections := [head]
    pageSize
    mayPost := head.mayPost }

variable {sec}

theorem alone_eq {params : ListingQuery} {id : CommentId} {row : StoredComment}
    (hrow : s.comment? id = some row) (hown : row.key = sec.key) :
    sec.alone s params id = if params.spans row.timeCreated then [.ofStored row] else [] := by
  rw [alone, hrow, Option.filter_some, hown, beq_self_eq_true, Bool.true_and]
  split <;> rfl

end Section

namespace Listing

open ListingM

variable {site : Site} {l : Listing} {sec : Section} {row : StoredComment} {params : ListingQuery}
variable {user : Option UserId} {id : CommentId}

theorem look_all_alone {viewer : Viewer} {visible : Bool} (hone : params.comment = some id)
    (hadmits : admits site viewer sec = .ok visible) :
    let start : Listing := { place := .ofSection sec, params, viewer }
    let cs := if visible then sec.alone s params id else []
    (all site).look s start = (.ok cs, { start with results := some cs }) := by
  intro start cs
  have hvisible : isVisible site start = .ok visible := hadmits
  have hfetch : (fetch site).look s start = (.ok cs, start) := by
    unfold fetch
    rw [look_bind_of look_get, hvisible, look_bind_of (look_lift _)]
    cases visible with
    | false => rfl
    | true =>
      have hcovers (r : StoredComment) : (r.key == sec.key && params.spans r.timeCreated) =
          Selection.coversAlone { sec.selection with
            parent := params.parent true
            timeFrom := params.timeFrom
            timeTo := params.timeTo } r := by
        change _ = (sec.selection.coversSection r.key && _)
        rw [sec.coversSection_selection]
        rfl
      have hrows : fetchRows.look s start =
          (.ok ((s.comment? id).filter fun r => r.key == sec.key && params.spans r.timeCreated).toList,
            start) := by
        rw [funext hcovers]
        unfold fetchRows
        rw [look_bind_of look_get]
        dsimp only [start]
        rw [hone]
        rfl
      rw [Bool.not_true, if_neg Bool.false_ne_true, look_bind_of hrows]
      rfl
  unfold all
  rw [look_bind_of look_get]
  change ListingM.look s (fetch site >>= _) start = _
  rw [look_bind_of hfetch]
  rfl

theorem look_countAllPages_of_all {includeReplies visible : Bool} {cs : List Comment} {l' : Listing}
    (hvisible : isVisible site l = .ok visible) (hone : l.params.comment.isSome)
    (hnew : l.total? includeReplies = none) (hall : (all site).look s l = (.ok cs, l')) :
    (countAllPages site includeReplies).look s l =
      (.ok cs.length, l'.setTotal includeReplies cs.length) := by
  unfold countAllPages
  rw [look_bind_of look_get, hnew]
  dsimp only
  rw [hvisible, look_bind_of (look_lift _), hone, if_pos rfl, map_eq_pure_bind, bind_assoc,
    look_bind_of hall]
  rfl

theorem look_peopleOf (hpeople : l.people.TrueTo s) (c : Comment) :
    ∃ people, people.TrueTo s ∧ (peopleOf c).look s l =
      (.ok ⟨s.person? c.author, s.person? c.modifier⟩, { l with people }) := by
  obtain ⟨people, hpeople, hauthor⟩ := look_person hpeople c.author
  obtain ⟨people', hpeople', hmodifier⟩ := look_person (l := { l with people }) hpeople c.modifier
  refine ⟨people', hpeople', ?_⟩
  unfold peopleOf
  rw [look_bind_of hauthor, look_bind_of hmodifier]
  rfl

theorem look_viewComment (site : Site) (user : Option UserId) {c : Comment}
    (hplace : l.place = .ofSection sec) (hown : c.key = sec.key) (hpeople : l.people.TrueTo s) :
    ∃ people, people.TrueTo s ∧
      (viewComment site user c).look s l =
        (some <$> sec.exhibit site s user c, { l with people }) := by
  have hsection : l.sectionOf c.key = some sec := by
    rw [sectionOf, hplace]
    exact if_pos hown.symm
  unfold viewComment Section.exhibit
  rw [look_bind_of look_get, hsection]
  dsimp only
  cases sec.capability site user with
  | error e => exact ⟨l.people, hpeople, rfl⟩
  | ok cap =>
    obtain ⟨people, hpeople, hfound⟩ := look_peopleOf hpeople c
    refine ⟨people, hpeople, ?_⟩
    rw [look_bind_of (look_lift _), look_bind_of hfound, look_bind, look_action]
    change _ = (some <$> (sec.viewComment c cap _).look s, _)
    cases (sec.viewComment c cap ⟨s.person? c.author, s.person? c.modifier⟩).look s <;> rfl

theorem look_views (site : Site) (user : Option UserId) {cs : List Comment}
    (hplace : l.place = .ofSection sec) (hown : ∀ c ∈ cs, c.key = sec.key)
    (hpeople : l.people.TrueTo s) :
    ∃ people, ListingM.look s (cs.filterMapM (viewComment site user)) l =
      (cs.mapM (sec.exhibit site s user), { l with people }) := by
  suffices hloop : ∀ found, ∃ people,
      ListingM.look s (List.filterMapM.loop (viewComment site user) cs found) l =
        ((found.reverse ++ ·) <$> cs.mapM (sec.exhibit site s user), { l with people }) by
    obtain ⟨people, hloop⟩ := hloop []
    refine ⟨people, hloop.trans ?_⟩
    cases cs.mapM (sec.exhibit site s user) <;> rfl
  induction cs generalizing l with
  | nil =>
    intro found
    refine ⟨l.people, ?_⟩
    rw [List.mapM_nil, map_pure, List.append_nil]
    rfl
  | cons c cs ih =>
    intro found
    obtain ⟨hc, hrest⟩ := List.forall_mem_cons.1 hown
    obtain ⟨people, hpeople, hview⟩ := look_viewComment site user hplace hc hpeople
    unfold List.filterMapM.loop
    rw [look_bind, hview, List.mapM_cons]
    cases sec.exhibit site s user c with
    | error e => exact ⟨people, rfl⟩
    | ok v =>
      obtain ⟨people', hloop⟩ := ih (l := { l with people }) hplace hrest hpeople (v :: found)
      refine ⟨people', hloop.trans ?_⟩
      rw [List.reverse_cons]
      change _ = ((found.reverse ++ ·) <$> (cs.mapM _ >>= fun vs => pure (v :: vs)), _)
      cases cs.mapM (sec.exhibit site s user) with
      | error e => rfl
      | ok vs =>
        change (Except.ok (found.reverse ++ [v] ++ vs), _) = _
        rw [List.append_assoc]
        rfl

theorem key_of_mem_alone {c : Comment} (h : c ∈ sec.alone s params id) : c.key = sec.key := by
  obtain ⟨r, hr, rfl⟩ := List.mem_map.1 h
  obtain ⟨-, hfits⟩ := Option.filter_eq_some_iff.1 (Option.mem_toList.1 hr)
  rw [Bool.and_eq_true] at hfits
  exact beq_iff_eq.1 hfits.1

theorem look_toPage_alone_of_admits {visible : Bool} (hone : params.comment = some id)
    (hadmits : admits site (.ofUser user) sec = .ok visible) :
    ((toPage site user).look s (.ofSection sec params (.ofUser user))).1 =
      sec.page site s user (if visible then sec.alone s params id else []) params.pageSize := by
  let start : Listing := .ofSection sec params (.ofUser user)
  let cs := if visible then sec.alone s params id else []
  let found : Listing := { start with results := some cs }
  have hall : (all site).look s start = (.ok cs, found) := look_all_alone hone hadmits
  have hcount : (countAllPages site true).look s found =
      (.ok cs.length, found.setTotal true cs.length) :=
    look_countAllPages_of_all (l := found) hadmits (Option.isSome_of_eq_some hone) rfl rfl
  have hown : ∀ c ∈ cs, c.key = sec.key := by
    intro c hc
    dsimp only [cs] at hc
    split at hc
    · exact key_of_mem_alone hc
    · cases hc
  obtain ⟨people, hviews⟩ := look_views site user
    (l := found.setTotal true cs.length) rfl hown PeopleCache.trueTo_empty
  unfold toPage Section.page
  rw [look_bind_of hall, look_bind_of hcount, look_bind, hviews]
  cases cs.mapM (sec.exhibit site s user) with
  | error e => rfl
  | ok views =>
    dsimp only
    rw [look_bind_of look_get]
    change (ListingM.look s (List.mapM _ [sec] >>= _) _).1 = _
    rw [List.mapM_cons, List.mapM_nil, bind_assoc, look_bind_fst]
    change ((ListingM.look s (liftM (viewSection site user sec)) _).1 >>= _) = _
    rw [look_action]
    cases (viewSection site user sec).look s <;> rfl

theorem look_toPage_alone (hone : params.comment = some id) :
    ((toPage site user).look s (.ofSection sec params (.ofUser user))).1 = (do
      let visible ← admits site (.ofUser user) sec
      sec.page site s user (if visible then sec.alone s params id else []) params.pageSize) := by
  cases hadmits : admits site (.ofUser user) sec with
  | ok visible => exact look_toPage_alone_of_admits hone hadmits
  | error e =>
    have hvisible : isVisible site (.ofSection sec params (.ofUser user)) = .error e := hadmits
    have hfetch : ((fetch site).look s (.ofSection sec params (.ofUser user))).1 = .error e := by
      unfold fetch
      rw [look_bind_of look_get, hvisible, look_bind, look_lift]
    have hall : ((all site).look s (.ofSection sec params (.ofUser user))).1 = .error e := by
      unfold all
      rw [look_bind_of look_get]
      change (ListingM.look s (fetch site >>= _) _).1 = _
      rw [look_bind_fst, hfetch]
      rfl
    unfold toPage
    rw [look_bind_fst, hall]
    rfl

theorem exists_look_viewSection (user : Option UserId) {cap : Capability}
    (hcap : sec.capability site user = .ok cap) :
    ∃ view, (viewSection site user sec).look s = .ok view := by
  unfold viewSection Section.view
  rw [hcap, Action.look_bind_of (Action.look_lift _), Action.look_bind_of (sec.look_hearing _ _)]
  exact ⟨_, rfl⟩

end Listing

namespace Forum

variable {f : Forum} {user : UserId} {row : StoredComment} {sec : Section} {cap : Capability}
variable {v : ShownComment}

/-- What a request for one comment is answered with. -/
theorem look_list_alone {user : Option UserId} {req : ListRequest} {id : CommentId}
    (hid : req.comment = some id) : (f.list user req).look s = (do
      let params ← req.params f.site.settings
      match s.comment? id with
      | none => throw (.notFound id)
      | some row =>
        let sec ← (f.sectionOf row.key).look s
        let visible ← Listing.admits f.site (.ofUser user) sec
        sec.page f.site s user (if visible then sec.alone s params id else []) params.pageSize) := by
  unfold list
  rw [Action.look_bind, Action.look_lift]
  cases hparams : req.params f.site.settings with
  | error e => rfl
  | ok params =>
    have hasked : (Action.store (.comment id)).look s = .ok (s.comment? id) := rfl
    change Action.look s (_ >>= _) = _
    unfold openListing comment?
    rw [hid, Action.look_bind, Action.look_bind, Action.look_bind_of hasked]
    cases s.comment? id with
    | none => rfl
    | some row =>
      dsimp only
      rw [Action.look_bind]
      cases hsec : (f.sectionOf row.key).look s with
      | error e => rfl
      | ok sec =>
        change Action.look s (ListingM.eval _ _) = _
        rw [ListingM.look_eval,
          Listing.look_toPage_alone ((ListRequest.params_inv hparams).1.trans hid)]
        rfl

theorem Presents.answers (h : f.Presents w.store user row sec cap v) {req : ListRequest}
    {params : ListingQuery} (hparams : req.params f.site.settings = .ok params)
    (hid : req.comment = some v.id) (hfrom : req.timeFrom = none) (hto : req.timeTo = none) :
    ∃ page, (f.list (some user) req).Answers w page ∧ page.comments = [v] := by
  obtain ⟨-, htimeFrom, htimeTo⟩ := ListRequest.params_inv hparams
  rw [hfrom] at htimeFrom
  rw [hto] at htimeTo
  have hadmits : Listing.admits f.site (.user user) sec = .ok true := by
    change (sec.capability f.site (some user) >>= fun cap => pure cap.mayView) = _
    rw [h.capability, ← h.allowed]
    rfl
  have hspans : params.spans row.timeCreated := by
    rw [ListingQuery.spans, ← Except.ok.inj htimeFrom, ← Except.ok.inj htimeTo]
    rfl
  have halone : sec.alone w.store params v.id = [.ofStored row] :=
    (Section.alone_eq h.stored h.own).trans (if_pos hspans)
  obtain ⟨head, hhead⟩ := Listing.exists_look_viewSection (s := w.store) (some user) h.capability
  have hview : sec.exhibit f.site w.store (some user) (.ofStored row) = .ok v := by
    rw [Section.exhibit, h.capability]
    exact h.seen
  obtain ⟨page, hpage, hcomments⟩ : ∃ page,
      sec.page f.site w.store (some user) [.ofStored row] params.pageSize = .ok page ∧
        page.comments = [v] := by
    rw [Section.page, List.mapM_cons, List.mapM_nil, hview, hhead]
    exact ⟨_, rfl, rfl⟩
  refine ⟨page, (f.list_reads (some user) req).answers ?_, hcomments⟩
  rw [look_list_alone hid, hparams, ← hpage, ← halone]
  change (match w.store.comment? v.id with
    | none => _
    | some row => _) = _
  rw [h.stored]
  change (f.sectionOf row.key).look w.store >>= _ = _
  rw [h.located]
  change Listing.admits f.site (.user user) sec >>= _ = _
  rw [hadmits]
  rfl

theorem Presents.readsBack (h : f.Presents w.store user row sec cap v)
    (hpages : f.site.settings.defaultPageSize ≤ f.site.settings.maxPageSize) :
    f.ReadsBack user w v where
  accepted := by
    have hsort : SortOrder.ofName (Text.upper "DESC") = .ok .descending := by decide
    have hpage : (Slice.rowsBefore? 0 f.site.settings.defaultPageSize).isNone = false := by
      rw [Slice.rowsBefore?, Slice.rowsBefore, Int.max_self, Int.zero_mul]
      rfl
    unfold ListRequest.params
    rw [hsort]
    dsimp only [bind, Except.bind, Option.getD_none]
    rw [if_neg (Int.not_lt.2 hpages), hpage]
    exact ⟨_, rfl⟩
  shown := h.answers

end Forum

end Discussion
