import Discussion.Proofs.HiddenSections.Page
import Discussion.Proofs.PageContents

namespace Discussion

variable {s : Store} {w : World} {user : Option UserId} {σ : Type}

namespace Forum

variable {f : Forum} {req : ListRequest} {params : ListingQuery} {place : Place} {key : SectionKey}

/-- The place that a request turns to. A comment alone is looked for in its own section. -/
def Opens (f : Forum) (s : Store) (req : ListRequest) (place : Place) : Prop :=
  match req.comment with
  | some id => ∃ row sec, s.comment? id = some row ∧ (f.sectionOf row.key).look s = .ok sec ∧
      place = .ofSection sec
  | none => f.place req = .ok place

theorem Opens.place_eq (h : f.Opens s req place) (hmany : req.comment = none) :
    f.place req = .ok place := by
  unfold Opens at h
  rwa [hmany] at h

theorem opens_of_openListing {l : Listing}
    (h : (f.openListing user req params).look s = .ok l) :
    ∃ place, f.Opens s req place ∧ l = { place, params, viewer := .ofUser user } := by
  unfold Opens
  cases hcomment : req.comment with
  | none =>
    rw [look_openListing_place hcomment] at h
    cases hplace : f.place req with
    | error e =>
      rw [hplace] at h
      cases h
    | ok place =>
      rw [hplace] at h
      exact ⟨place, rfl, (Except.ok.inj h).symm⟩
  | some id =>
    unfold openListing at h
    rw [hcomment] at h
    obtain ⟨found, hfound, h⟩ := Action.look_bind_eq_ok h
    unfold comment? at hfound
    obtain ⟨record, hrecord, hfound⟩ := Action.look_bind_eq_ok hfound
    cases record with
    | none =>
      obtain rfl := Except.ok.inj hfound
      cases h
    | some row =>
      obtain ⟨sec, hsec, hfound⟩ := Action.look_bind_eq_ok hfound
      obtain rfl := Except.ok.inj hfound
      exact ⟨.ofSection sec, ⟨row, sec, Except.ok.inj hrecord, hsec, rfl⟩, (Except.ok.inj h).symm⟩

theorem look_sectionOf_of_area {a : Area} {component name : String} {context : ContextId}
    (ha : f.area component name context = .ok a) (hkey : (Place.ofArea a).Holds key) :
    (f.sectionOf key).look s = (Place.ofArea a).locate key := by
  obtain ⟨hcomponent, hname, harea⟩ := area_withContext ha key.context
  have hsame : (a.withContext key.context).sectionKey key.item = key := by
    rw [Area.withContext, Area.sectionKey, ← hkey.1, ← hkey.2]
  unfold Forum.sectionOf
  rw [hkey.1, hkey.2, hcomponent, hname, harea, Action.look_bind_of (Action.look_lift _),
    Area.look_sectionOf, hsame]
  rfl

theorem Opens.locate (h : f.Opens s req place) (hkey : place.Holds key) :
    (f.sectionOf key).look s = place.locate key := by
  unfold Opens at h
  split at h
  · obtain ⟨row, sec, -, hsec, rfl⟩ := h
    obtain rfl : key = sec.key := hkey
    rw [(f.sectionOf_reads row.key).look hsec, hsec]
    rfl
  · obtain ⟨component, name, context, a, ha, ⟨item, host, -, hhost, rfl⟩ | ⟨-, rfl⟩⟩ :=
      place_inv h
    · obtain rfl : key = a.sectionKey item := hkey
      rw [look_sectionOf_of_area ha ⟨rfl, rfl⟩]
      change Except.mapError _ _ >>= _ = _
      rw [hhost]
      rfl
    · exact look_sectionOf_of_area ha hkey

theorem sees_eq (s : Store) (key : SectionKey) :
    f.sees user key = (f.sectionOf key).look s >>= Listing.admits f.site (.ofUser user) := by
  unfold sees Forum.sectionOf
  rw [Action.look_bind, Action.look_lift]
  cases ha : f.area key.component key.area key.context with
  | error e => rfl
  | ok a =>
    obtain ⟨hcomponent, hname, -⟩ := area_withContext ha key.context
    have hholds : (Place.ofArea a).Holds key := ⟨hcomponent.symm, hname.symm⟩
    have hsection : (f.sectionOf key).look s = (a.sectionOf key.item).look s := by
      unfold Forum.sectionOf
      rw [ha]
      rfl
    change (Place.ofArea a).sees f.site _ key = (a.sectionOf key.item).look s >>= _
    rw [Place.sees_eq, ← hsection, look_sectionOf_of_area ha hholds]

theorem Opens.sees (h : f.Opens s req place) (hkey : place.Holds key) :
    place.sees f.site (.ofUser user) key = f.sees user key := by
  rw [Place.sees_eq, sees_eq s, h.locate hkey]

/-- What a request is answered with is the page of a listing that starts at its place. -/
theorem list_settled {page : CommentPage} (h : (f.list user req).look s = .ok page) :
    ∃ params place cs, req.params f.site.settings = .ok params ∧ f.Opens s req place ∧
      Listing.Paged { place, params, viewer := .ofUser user } f.site s user cs page := by
  obtain ⟨params, hparams, h⟩ := Action.look_bind_eq_ok h
  obtain ⟨l, hopen, h⟩ := Action.look_bind_eq_ok h
  obtain ⟨place, hplace, rfl⟩ := opens_of_openListing hopen
  rw [ListingM.look_eval] at h
  have hany : Listing.Excuses { place, params, viewer := .ofUser user } f.site s fun _ => True :=
    ⟨.trivial, fun _ _ _ _ _ _ => trivial⟩
  obtain ⟨-, cs, hpaged⟩ := (Listing.toPage_settles hany).of_ok h
  exact ⟨params, place, cs, hparams, hplace, hpaged⟩

end Forum

/-- The view shows a row in its own section, with what the user may do there. -/
structure Forum.Depicts (f : Forum) (s : Store) (user : Option UserId) (r : StoredComment)
    (sec : Section) (cap : Capability) (fields : Json.Fields) (v : ShownComment) : Prop where
  located : (f.sectionOf r.key).look s = .ok sec
  capability : sec.capability f.site user = .ok cap
  allowed : cap.mayView
  decoded : CustomData.fieldsOf r.customData = .ok fields
  id : v.id = r.id
  key : v.key = r.key
  grants : v.Grants cap ((Comment.ofStored r).withCustomData fields)
  seen : (sec.viewComment (.ofStored r) cap ⟨s.person? r.author, s.person? r.modifier⟩).look s =
    .ok v

/-- The view shows a section as one that the user may view. -/
structure Forum.Portrays (f : Forum) (s : Store) (user : Option UserId) (key : SectionKey)
    (sec : Section) (cap : Capability) (v : ShownSection) : Prop where
  located : (f.sectionOf key).look s = .ok sec
  capability : sec.capability f.site user = .ok cap
  allowed : cap.mayView
  key : v.key = key
  seen : (sec.view cap).look s = .ok v

/-- The component finds the items of the rows, the time for edits is within bounds, and all custom
data can be read. -/
structure Area.Serves (a : Area) (site : Site) (rows : List StoredComment) : Prop where
  located : ∀ r ∈ rows, ∃ host, a.handler.item r.key = .ok host
  timed : ∃ window, site.settings.editingTime = .ok window
  readable : ∀ r ∈ rows, ∃ fields, CustomData.fieldsOf r.customData = .ok fields

/-- A page of an area shows each of the fetched rows that the user may see in its own section, in
their order, and then these sections, each once and in order of first appearance. -/
structure Forum.Panorama (f : Forum) (user : Option UserId) (a : Area) (params : ListingQuery)
    (s : Store) (rows : List StoredComment) (page : CommentPage) : Prop where
  fetched : (Place.ofArea a).rows s params (.ofUser user) = .ok rows
  judged : ∀ r ∈ rows, ∃ seen, f.sees user r.key = .ok seen
  comments : List.Forall₂ (fun r v => ∃ sec cap fields, f.Depicts s user r sec cap fields v)
    (outside (f.hides user) rows) page.comments
  sections : List.Forall₂ (fun key v => ∃ sec cap, f.Portrays s user key sec cap v)
    (page.comments.map (·.key)).eraseDups page.sections
  told : ∀ r ∈ rows, ∀ r' ∈ rows, r.key.unique = r'.key.unique → r.key = r'.key

theorem Listing.admits_ofUser {site : Site} {sec : Section} : Listing.admits site (.ofUser user) sec =
    (do return (← sec.capability site user).mayView) := by
  cases user <;> rfl

namespace Forum

variable {f : Forum} {req : ListRequest} {params : ListingQuery} {place : Place} {key : SectionKey}

theorem hides_eq {seen : Bool} (h : f.sees user key = .ok seen) : f.hides user key = !seen := by
  unfold hides
  rw [h]

theorem allowed_of_sees (h : f.sees user key = .ok true) {sec : Section}
    (hsec : (f.sectionOf key).look s = .ok sec) {cap : Capability}
    (hcap : sec.capability f.site user = .ok cap) : cap.mayView := by
  rw [sees_eq s, hsec] at h
  change Listing.admits f.site (.ofUser user) sec = _ at h
  rw [Listing.admits_ofUser, hcap] at h
  exact Except.ok.inj h

theorem Opens.sees_of_gathers (h : f.Opens s req place) {cs : List Comment}
    (hcs : Listing.Gathers { place, params, viewer := .ofUser user } f.site s cs) :
    ∀ c ∈ cs, f.sees user c.key = .ok true := by
  obtain ⟨rows, hrows, -, rfl⟩ := hcs.found
  intro c hc
  obtain ⟨r, hr, rfl⟩ := List.mem_map.1 hc
  obtain ⟨hr, hshown⟩ := List.mem_filter.1 hr
  exact (h.sees (Place.rows_inv hrows hr).2).symm.trans (Place.shows_iff.1 hshown)

/-- The comments of a page are views of the rows that the user may see, each in its own section. -/
theorem Opens.depicts (h : f.Opens s req place) {cs : List Comment} {page : CommentPage}
    (hpaged : Listing.Paged { place, params, viewer := .ofUser user } f.site s user cs page) :
    ∃ rows, place.rows s params (.ofUser user) = .ok rows ∧
      (∀ r ∈ rows, ∃ seen, f.sees user r.key = .ok seen) ∧
      List.Forall₂ (fun r v => ∃ sec cap fields, f.Depicts s user r sec cap fields v)
        (outside (f.hides user) rows) page.comments := by
  have hseen := h.sees_of_gathers hpaged.gathered
  obtain ⟨rows, hrows, hsees, hcs⟩ := hpaged.gathered.found
  have hholds : ∀ r ∈ rows, place.Holds r.key := fun r hr => (Place.rows_inv hrows hr).2
  have hjudged : ∀ r ∈ rows, ∃ seen, f.sees user r.key = .ok seen := by
    intro r hr
    rw [← h.sees (hholds r hr)]
    exact hsees r hr
  have houtside : outside (f.hides user) rows =
      rows.filter fun r => place.shows f.site (.ofUser user) r.key := by
    refine List.filter_congr fun r hr => ?_
    obtain ⟨seen, hr'⟩ := hjudged r hr
    rw [hides_eq hr', Bool.not_not, Place.shows_eq ((h.sees (hholds r hr)).trans hr')]
  have hcomments := (List.forall₂_and_left _ _).2 ⟨hseen, hpaged.comments⟩
  rw [hcs, List.forall₂_map_left_iff] at hcomments
  refine ⟨rows, hrows, hjudged, ?_⟩
  rw [houtside]
  refine ((List.forall₂_and_left _ _).2
    ⟨fun r hr => hholds r (List.mem_of_mem_filter hr), hcomments⟩).imp ?_
  rintro r v ⟨hkey, hsees, sec, cap, hlocate, hseen⟩
  have hsec := (h.locate hkey).trans hlocate
  obtain ⟨fields, hfields, hid, hown, hgrants⟩ := Section.look_viewComment_inv hseen.seen
  exact ⟨sec, cap, fields, {
    located := hsec
    capability := hseen.capability
    allowed := allowed_of_sees hsees hsec hseen.capability
    decoded := hfields
    id := hid
    key := hown.trans (Place.key_of_locate hkey hlocate)
    grants := hgrants
    seen := hseen.seen }⟩

theorem Opens.depicts_stored (h : f.Opens s req place) {cs : List Comment} {page : CommentPage}
    (hpaged : Listing.Paged { place, params, viewer := .ofUser user } f.site s user cs page) :
    ∀ v ∈ page.comments, ∃ r ∈ s.comments, ∃ sec cap fields,
      f.Depicts s user r sec cap fields v := by
  intro v hv
  obtain ⟨rows, hrows, -, hshown⟩ := h.depicts hpaged
  have hstored : ∀ r ∈ outside (f.hides user) rows, r ∈ s.comments :=
    fun r hr => (Place.rows_inv hrows (List.mem_of_mem_filter hr)).1
  exact exists_of_forall₂ ((List.forall₂_and_left _ _).2 ⟨hstored, hshown⟩) v hv

theorem panorama_of_paged {a : Area} (h : f.Opens s req (.ofArea a)) {cs : List Comment}
    {page : CommentPage} (hpaged : Listing.Paged
      { place := .ofArea a, params, viewer := .ofUser user } f.site s user cs page) :
    ∃ rows, f.Panorama user a params s rows page := by
  obtain ⟨rows, hrows, hjudged, hcomments⟩ := h.depicts hpaged
  have hholds : ∀ r ∈ rows, (Place.ofArea a).Holds r.key := fun r hr => (Place.rows_inv hrows hr).2
  refine ⟨rows, hrows, hjudged, hcomments, ?_, ?_⟩
  · have hshown : ∀ key ∈ (cs.map (·.key)).eraseDups,
        (Place.ofArea a).Holds key ∧ f.sees user key = .ok true := by
      intro key hkey
      obtain ⟨c, hc, rfl⟩ := List.mem_map.1 (List.mem_eraseDups.1 hkey)
      exact ⟨hpaged.gathered.holds c hc, h.sees_of_gathers hpaged.gathered c hc⟩
    rw [hpaged.map_key]
    refine ((List.forall₂_and_left _ _).2 ⟨hshown, hpaged.sections⟩).imp ?_
    rintro key v ⟨⟨hkey, hsees⟩, sec, cap, hlocate, hcap, hview⟩
    have hsec := (h.locate hkey).trans hlocate
    exact ⟨sec, cap, {
      located := hsec
      capability := hcap
      allowed := allowed_of_sees hsees hsec hcap
      key := (Section.look_view_inv hview).trans (Place.key_of_locate hkey hlocate)
      seen := hview }⟩
  · intro r hr r' hr' hunique
    exact SectionKey.unique_inj ((hholds r hr).1.trans (hholds r' hr').1.symm)
      ((hholds r hr).2.trans (hholds r' hr').2.symm) hunique

/-- Where the component serves the rows that are fetched, nothing keeps the listing from its page. -/
theorem excuses_of_serves {a : Area} {viewer : Viewer} {site : Site} (hone : params.comment = none)
    {rows : List StoredComment} (hrows : (Place.ofArea a).rows s params viewer = .ok rows)
    (h : a.Serves site rows) :
    Listing.Excuses { place := .ofArea a, params, viewer } site s fun _ => False where
  selection := by
    intro includeReplies e he
    unfold Place.rows at hrows
    rw [hone] at hrows
    obtain ⟨g, hg, -⟩ := exists_of_bind_eq_ok hrows
    obtain ⟨g', hg'⟩ := Place.exists_selection hg includeReplies
    cases hg'.symm.trans he
  window := by
    intro e he
    obtain ⟨window, hwindow⟩ := h.timed
    cases hwindow.symm.trans he
  located := by
    intro rows' hrows' r hr e he
    obtain rfl := Except.ok.inj (hrows.symm.trans hrows')
    obtain ⟨host, hhost⟩ := h.located r hr
    change (a.handler.item r.key).mapError Error.storage >>= _ = _ at he
    rw [hhost] at he
    cases he
  readable := by
    intro rows' hrows' r hr e he
    obtain rfl := Except.ok.inj (hrows.symm.trans hrows')
    obtain ⟨fields, hfields⟩ := h.readable r hr
    cases hfields.symm.trans he

/-- Any page that is answered to a request for an area shows each of its comments in the comment's
own section, and where hooks and store do their part a page is answered. -/
theorem list_panorama {a : Area} (hparams : req.params f.site.settings = .ok params)
    (hmany : req.comment = none) (harea : f.place req = .ok (.ofArea a)) (w : World) :
    (∀ {σ : Type} (faults : Faults σ) (state : σ) (page : CommentPage),
      ((f.list user req).run.run faults state w).1 = .ok page →
        ∃ rows, f.Panorama user a params w.store rows page) ∧
    ∀ rows, (Place.ofArea a).rows w.store params (.ofUser user) = .ok rows →
      a.Serves f.site rows → ∃ page, (f.list user req).Answers w page ∧
        f.Panorama user a params w.store rows page := by
  have hpage {page : CommentPage} (h : (f.list user req).look w.store = .ok page) :
      ∃ rows, f.Panorama user a params w.store rows page := by
    obtain ⟨params', place, cs, hparams', hopens, hpaged⟩ := list_settled h
    obtain rfl := Except.ok.inj (hparams.symm.trans hparams')
    obtain rfl := Except.ok.inj (harea.symm.trans (hopens.place_eq hmany))
    exact panorama_of_paged hopens hpaged
  constructor
  · intro σ faults state page hrun
    rcases (f.list_asks user req).run faults state w with hlook | ⟨failure, hfailure⟩
    · exact hpage (hlook.symm.trans hrun)
    · cases hfailure.symm.trans hrun
  · intro rows hrows hserves
    have hone : params.comment = none := (params_comment hparams).trans hmany
    have hlook : (f.list user req).look w.store = ((Listing.toPage f.site user).look w.store
        { place := .ofArea a, params, viewer := .ofUser user }).1 := by
      rw [look_list hmany, hparams, harea]
      rfl
    cases hresult : (f.list user req).look w.store with
    | error e =>
      have hsettles := Listing.toPage_settles (excuses_of_serves hone hrows hserves)
      exact (hsettles.of_error (hlook.symm.trans hresult)).elim
    | ok page =>
      obtain ⟨rows', hpanorama⟩ := hpage hresult
      obtain rfl := Except.ok.inj (hrows.symm.trans hpanorama.fetched)
      exact ⟨page, (f.list_reads user req).answers hresult, hpanorama⟩

/-- An area with two contexts below its own. -/
def terraces : Area where
  component := "wiki"
  name := "talk"
  context := 1
  options := {}
  handler := {
    item := fun _ => pure (.plain "Page" "/page")
    visibility := fun _ _ => pure .all
    childContexts := fun _ _ => pure [2, 3] }

/-- Comments may be viewed in the first two contexts, and deleted in the second. -/
def terraced : Forum where
  site := {
    permissions := fun permission context _ =>
      permission == Permissions.view && context < 3 || permission == Permissions.delete && context == 2
    settings := {}
    now := ⟨0, 0⟩ }
  areas := [⟨terraces.component, terraces.name, terraces.options, terraces.handler⟩]

theorem list_panorama_terraced :
    let params : ListingQuery := { pageSize := 0, includeReplies := true, includeChildContexts := true }
    let w := annex [1, 2, 3]
    ∃ rows page, (terraced.list none wholeAnnex).Answers w page ∧
      terraced.Panorama none terraces params w.store rows page ∧
      page.comments.map (fun v => (v.key.context, v.mayDelete)) = [(2, true), (1, false)] ∧
      page.sections.map (·.key.context) = [2, 1] := by
  intro params w
  have hparams : wholeAnnex.params terraced.site.settings = .ok params := by decide +kernel
  have hrows : (Place.ofArea terraces).rows w.store params (.ofUser none) =
      .ok w.store.comments.reverse := by cbv
  have hserves : terraces.Serves terraced.site w.store.comments.reverse := by
    refine ⟨fun r _ => ⟨_, rfl⟩, ⟨_, rfl⟩, fun r hr => ⟨[], ?_⟩⟩
    obtain ⟨context, -, rfl⟩ := List.mem_map.1 (List.mem_reverse.1 hr)
    rfl
  obtain ⟨page, hpage, hpanorama⟩ := (list_panorama hparams rfl rfl w).2 _ hrows hserves
  have hlisted : terraced.listed none wholeAnnex w = .ok page := congrArg Prod.fst hpage
  have hshown : ((terraced.listed none wholeAnnex w).map fun p =>
      (p.comments.map fun v => (v.key.context, v.mayDelete), p.sections.map (·.key.context))).toOption =
        some ([(2, true), (1, false)], [2, 1]) := by cbv
  rw [hlisted] at hshown
  obtain ⟨hcomments, hsections⟩ := Prod.mk.inj (Option.some.inj hshown)
  exact ⟨_, page, hpage, hpanorama, hcomments, hsections⟩

end Forum

end Discussion
