import Discussion.Proofs.ListingFindings
import Discussion.Proofs.SingleView

namespace Discussion

variable {s : Store} {l : Listing} {E : Error → Prop}

/-- The keys of the sections that a page shows besides its comments. -/
def Place.headed (cs : List Comment) : Place → List SectionKey
  | .ofSection sec => [sec.key]
  | .ofArea _ => (cs.map (·.key)).eraseDups

/-- How the user of a capability sees a comment of the section. -/
structure Section.Exhibits (sec : Section) (site : Site) (s : Store) (user : Option UserId)
    (c : Comment) (cap : Capability) (v : ShownComment) : Prop where
  capability : sec.capability site user = .ok cap
  seen : (sec.viewComment c cap ⟨s.person? c.author, s.person? c.modifier⟩).look s = .ok v

/-- The flags of a view are what a capability allows for the comment. -/
structure ShownComment.Grants (v : ShownComment) (cap : Capability) (c : Comment) : Prop where
  replyByPseudonym : v.canReplyByPseudonym = cap.mayPost .pseudonym (some c)
  replyByRealName : v.canReplyByRealName = cap.mayPost .realName (some c)
  upvote : v.mayUpvote = cap.mayUpvote c
  edit : v.mayEdit = cap.mayEdit c
  delete : v.mayDelete = cap.mayDelete c
  subscribe : v.canSubscribe = Section.mayChoose cap v.subscription .immediate c
  subscribeDigest : v.canSubscribeDigest = Section.mayChoose cap v.subscription .dailyDigest c
  unsubscribe : v.canUnsubscribe = Section.mayChoose cap v.subscription .off c

namespace Section

variable {sec : Section} {c : Comment} {cap : Capability} {people : Participants}

theorem look_viewComment_inv {v : ShownComment}
    (h : (sec.viewComment c cap people).look s = .ok v) :
    ∃ fields, c.customData.toFields = .ok fields ∧ v.id = c.id.getD 0 ∧ v.key = sec.key ∧
      v.Grants cap (c.withCustomData fields) := by
  unfold viewComment CustomData.asFields at h
  obtain ⟨⟨fields, data⟩, hdata, h⟩ := Action.look_bind_eq_ok h
  obtain ⟨entries, hfields, hdata⟩ := exists_of_bind_eq_ok (x := c.customData.toFields) hdata
  obtain ⟨rfl, rfl⟩ := Prod.mk.inj (Except.ok.inj hdata)
  dsimp only at h
  rw [Action.look_bind_of (look_hasUpvoted _ _), Action.look_bind_of (sec.look_hearing _ _)] at h
  obtain rfl := Except.ok.inj h
  exact ⟨entries, hfields, rfl, rfl, rfl, rfl, rfl, rfl, rfl, rfl, rfl, rfl⟩

theorem look_view_inv {v : ShownSection} (h : (sec.view cap).look s = .ok v) : v.key = sec.key := by
  unfold view at h
  rw [Action.look_bind_of (sec.look_hearing _ _)] at h
  obtain rfl := Except.ok.inj h
  rfl

end Section

theorem Section.look_viewComment_error {sec : Section} {c : Comment} {cap : Capability}
    {people : Participants} {e : Error} (h : (sec.viewComment c cap people).look s = .error e) :
    c.customData.toFields = .error e := by
  unfold viewComment CustomData.asFields at h
  rw [Action.look_bind] at h
  cases hdata : c.customData.toFields with
  | error e' =>
    rw [hdata] at h
    exact congrArg Except.error (Except.error.inj h)
  | ok data =>
    rw [hdata] at h
    change Action.look s (hasUpvoted _ _ >>= _) = _ at h
    rw [Action.look_bind_of (look_hasUpvoted _ _),
      Action.look_bind_of (sec.look_hearing _ _)] at h
    cases h

namespace Listing

open ListingM

variable {start : Listing} {site : Site}

section Steps

variable (hl : start.Surveyed site s l)

include hl

theorem person_settles (id : UserId) : (person id).Settles s E l fun p l' =>
    p = s.person? id ∧ start.Advances site s l l' := by
  obtain ⟨people, hpeople, hlook⟩ := look_person hl.people id
  refine .of_look hlook ?_ fun _ h => nomatch h
  rintro _ ⟨⟩
  exact ⟨rfl, { hl with people := hpeople }, fun _ hc => hc, fun _ _ hsec => hsec⟩

theorem peopleOf_settles (c : Comment) : (peopleOf c).Settles s E l fun people l' =>
    people = ⟨s.person? c.author, s.person? c.modifier⟩ ∧ start.Advances site s l l' := by
  apply Settles.bind (person_settles hl c.author)
  rintro _ l' ⟨rfl, hl'⟩
  apply Settles.bind (person_settles hl'.surveyed c.modifier)
  rintro _ l'' ⟨rfl, hl''⟩
  exact .pure ⟨rfl, hl'.trans hl''⟩

/-- No comment of the page is left out, as the section of each has been found. -/
theorem viewComment_settles (hwindow : ∀ e, site.settings.editingTime = .error e → E e)
    {user : Option UserId} {c : Comment} (hkey : start.place.Holds c.key)
    (hfound : (l.sectionOf c.key).isSome)
    (hreadable : ∀ e, c.customData.toFields = .error e → E e) :
    (viewComment site user c).Settles s E l fun view l' => (∃ v, view = some v ∧
      ∃ sec cap, start.place.locate c.key = .ok sec ∧ sec.Exhibits site s user c cap v) ∧
        start.Advances site s l l' := by
  obtain ⟨sec, hsec⟩ := Option.isSome_iff_exists.1 hfound
  have hlocate := hl.locate_of_sectionOf hkey hsec
  apply Settles.get_bind
  rw [hsec]
  apply Settles.bind (.lift _ fun e he => hwindow e (capability_error he))
  rintro cap l ⟨hcap, rfl⟩
  apply Settles.bind (peopleOf_settles hl c)
  rintro _ l' ⟨rfl, hl'⟩
  apply Settles.bind (.action _ fun e he => hreadable e (sec.look_viewComment_error he))
  rintro view l' ⟨hseen, rfl⟩
  exact .pure ⟨⟨view, rfl, sec, cap, hlocate, hcap, hseen⟩, hl'⟩

end Steps

theorem viewSection_settles (hwindow : ∀ e, site.settings.editingTime = .error e → E e)
    (user : Option UserId) (sec : Section) :
    (ofAction (viewSection site user sec)).Settles s E l fun v l' =>
      (∃ cap, sec.capability site user = .ok cap ∧ (sec.view cap).look s = .ok v) ∧ l' = l := by
  refine .of_look (look_action (viewSection site user sec)) (fun v hv => ⟨?_, rfl⟩)
    fun e he => hwindow e ?_
  · obtain ⟨cap, hcap, hview⟩ := Action.look_bind_eq_ok hv
    exact ⟨cap, hcap, hview⟩
  · cases hcap : sec.capability site user with
    | error e' =>
      rw [viewSection, Action.look_bind, Action.look_lift, hcap] at he
      rw [capability_error hcap, Except.error.inj he]
    | ok cap =>
      obtain ⟨view, hview⟩ := exists_look_viewSection (s := s) user hcap
      cases hview.symm.trans he

/-- In one area the sections of a page are told apart by the texts of their keys. -/
theorem map_key_foundSections_go {a : Area} {secs : List Section}
    (hsecs : ∀ sec ∈ secs, (Place.ofArea a).Holds sec.key) {seen : List SectionKey}
    (hseen : ∀ key ∈ seen, (Place.ofArea a).Holds key) :
    (foundSections.go (seen.map SectionKey.unique) secs).map (·.key) =
      ((secs.map (·.key)).filter fun key => !seen.contains key).eraseDups := by
  induction secs generalizing seen with
  | nil => rfl
  | cons sec rest ih =>
    obtain ⟨hsec, hrest⟩ := List.forall_mem_cons.1 hsecs
    have hsame : (seen.map SectionKey.unique).contains sec.key.unique = seen.contains sec.key := by
      rw [Bool.eq_iff_iff, List.contains_iff_mem, List.contains_iff_mem, List.mem_map]
      constructor
      · rintro ⟨key, hkey, hunique⟩
        rwa [← SectionKey.unique_inj ((hseen key hkey).1.trans hsec.1.symm)
          ((hseen key hkey).2.trans hsec.2.symm) hunique]
      · exact fun h => ⟨sec.key, h, rfl⟩
    unfold foundSections.go
    rw [hsame, List.map_cons, List.filter_cons]
    cases hknown : seen.contains sec.key with
    | true => exact ih hrest hseen
    | false =>
      have hmore := ih hrest (List.forall_mem_cons.2 ⟨hsec, hseen⟩)
      rw [if_neg Bool.false_ne_true, Bool.not_false, if_pos rfl, List.map_cons,
        List.eraseDups_cons, List.filter_filter]
      refine congrArg _ (hmore.trans (congrArg _ (List.filter_congr fun key _ => ?_)))
      rw [List.contains_cons, Bool.not_or]

/-- What a page shows that starts at a place. -/
structure Paged (start : Listing) (site : Site) (s : Store) (user : Option UserId)
    (cs : List Comment) (page : CommentPage) : Prop where
  gathered : start.Gathers site s cs
  comments : List.Forall₂ (fun c v => ∃ sec cap, start.place.locate c.key = .ok sec ∧
    sec.Exhibits site s user c cap v) cs page.comments
  sections : List.Forall₂ (fun key v => ∃ sec cap, start.place.locate key = .ok sec ∧
    sec.capability site user = .ok cap ∧ (sec.view cap).look s = .ok v)
    (start.place.headed cs) page.sections
  total : start.Totals site s true page.total
  mayPost : page.mayPost = (start.boundSection?.isSome && page.sections.head?.any (·.mayPost))

theorem Gathers.holds {cs : List Comment} (h : start.Gathers site s cs) :
    ∀ c ∈ cs, start.place.Holds c.key := by
  obtain ⟨rows, hrows, -, rfl⟩ := h.found
  intro c hc
  obtain ⟨r, hr, rfl⟩ := List.mem_map.1 hc
  exact (Place.rows_inv hrows (List.mem_of_mem_filter hr)).2

theorem Paged.map_key {user : Option UserId} {cs : List Comment} {page : CommentPage}
    (h : start.Paged site s user cs page) : page.comments.map (·.key) = cs.map (·.key) := by
  have hsame : List.Forall₂ (· = ·) (cs.map (·.key)) (page.comments.map (·.key)) := by
    rw [List.forall₂_map_left_iff, List.forall₂_map_right_iff]
    refine ((List.forall₂_and_left _ _).2 ⟨h.gathered.holds, h.comments⟩).imp ?_
    rintro c v ⟨hkey, sec, cap, hlocate, hseen⟩
    obtain ⟨-, -, -, hown, -⟩ := Section.look_viewComment_inv hseen.seen
    exact (hown.trans (Place.key_of_locate hkey hlocate)).symm
  rw [List.forall₂_eq_eq_eq] at hsame
  exact hsame.symm

theorem Gathers.holds_headed {cs : List Comment} (h : start.Gathers site s cs) :
    ∀ key ∈ start.place.headed cs, start.place.Holds key := by
  have hcs := h.holds
  cases hplace : start.place with
  | ofSection sec => exact List.forall_mem_singleton.2 rfl
  | ofArea a =>
    intro key hkey
    obtain ⟨c, hc, rfl⟩ := List.mem_map.1 (List.mem_eraseDups.1 hkey)
    exact hplace ▸ hcs c hc

theorem Paged.map_key_sections {user : Option UserId} {cs : List Comment} {page : CommentPage}
    (h : start.Paged site s user cs page) :
    page.sections.map (·.key) = start.place.headed cs := by
  have hsame : List.Forall₂ (· = ·) (start.place.headed cs) (page.sections.map (·.key)) := by
    rw [List.forall₂_map_right_iff]
    refine ((List.forall₂_and_left _ _).2 ⟨h.gathered.holds_headed, h.sections⟩).imp ?_
    rintro key v ⟨hkey, sec, cap, hlocate, -, hview⟩
    exact ((Section.look_view_inv hview).trans (Place.key_of_locate hkey hlocate)).symm
  rw [List.forall₂_eq_eq_eq] at hsame
  exact hsame.symm

theorem surveyed_start (place : Place) (params : ListingQuery) (viewer : Viewer) :
    Surveyed { place, params, viewer } site s { place, params, viewer } where
  place := rfl
  params := rfl
  viewer := rfl
  reach := fun _ _ _ h => nomatch h
  sections := fun _ _ _ _ _ h => nomatch h
  people := PeopleCache.trueTo_empty
  results := fun _ h => nomatch h
  totals := fun includeReplies _ h => by cases includeReplies <;> cases h

theorem pageSections_located (hl : start.Surveyed site s l) {cs : List Comment}
    (hcs : l.results = some cs) (hkeys : ∀ c ∈ cs, start.place.Holds c.key) :
    l.pageSections.map (·.key) = start.place.headed cs ∧
      ∀ sec ∈ l.pageSections, start.place.locate sec.key = .ok sec := by
  unfold pageSections boundSection?
  rw [hl.place]
  cases hplace : start.place with
  | ofSection sec =>
    refine ⟨rfl, fun own hown => ?_⟩
    rw [List.mem_singleton.1 hown]
    rfl
  | ofArea a =>
    have hfound : ∀ c ∈ cs, ∃ sec, l.sectionOf c.key = some sec ∧ sec.key = c.key ∧
        start.place.locate c.key = .ok sec := by
      intro c hc
      obtain ⟨sec, hsec⟩ := Option.isSome_iff_exists.1 ((hl.results cs hcs).2 c hc)
      have hlocate := hl.locate_of_sectionOf (hkeys c hc) hsec
      exact ⟨sec, hsec, Place.key_of_locate (hkeys c hc) hlocate, hlocate⟩
    let secs := cs.filterMap fun c => l.sectionOf c.key
    have hsecs : l.foundSections = foundSections.go [] secs := by
      rw [foundSections, hcs]
      rfl
    have hkey : secs.map (·.key) = cs.map (·.key) := by
      rw [List.map_filterMap, ← List.filterMap_eq_map]
      refine List.filterMap_congr fun c hc => ?_
      obtain ⟨sec, hsec, hsame, -⟩ := hfound c hc
      rw [hsec]
      exact congrArg some hsame
    have hlocate : ∀ sec ∈ secs, (Place.ofArea a).Holds sec.key ∧
        (Place.ofArea a).locate sec.key = .ok sec := by
      intro sec hsec
      obtain ⟨c, hc, hsec⟩ := List.mem_filterMap.1 hsec
      obtain ⟨own, hown, hsame, hlocate⟩ := hfound c hc
      obtain rfl := Option.some.inj (hown.symm.trans hsec)
      rw [hsame, ← hplace]
      exact ⟨hkeys c hc, hlocate⟩
    have hnone : ∀ key ∈ ([] : List SectionKey), (Place.ofArea a).Holds key := fun _ h => nomatch h
    rw [hsecs]
    refine ⟨?_, fun sec hsec => (hlocate sec (mem_foundSections_go hsec)).2⟩
    refine (map_key_foundSections_go (fun sec hsec => (hlocate sec hsec).1) hnone).trans ?_
    rw [hkey]
    exact congrArg List.eraseDups (List.filter_eq_self.2 fun _ _ => rfl)

theorem toPage_settles {place : Place} {params : ListingQuery} {user : Option UserId}
    (hE : Excuses { place, params, viewer := .ofUser user } site s E) :
    (toPage site user).Settles s E { place, params, viewer := .ofUser user } fun page _ =>
      ∃ cs, Paged { place, params, viewer := .ofUser user } site s user cs page := by
  let start : Listing := { place, params, viewer := .ofUser user }
  apply Settles.bind (all_settles (surveyed_start place params (.ofUser user)) hE.toHinders)
  rintro cs l ⟨hgathered, hresults, hl⟩
  have hcs : ∀ c ∈ cs, place.Holds c.key ∧ (l.sectionOf c.key).isSome ∧
      ∀ e, c.customData.toFields = .error e → E e := by
    intro c hc
    have hfound := (hl.surveyed.results cs hresults).2 c hc
    obtain ⟨rows, hrows, -, rfl⟩ := hgathered.found
    obtain ⟨r, hr, rfl⟩ := List.mem_map.1 hc
    have hr := List.mem_of_mem_filter hr
    exact ⟨(Place.rows_inv hrows hr).2, hfound, hE.readable rows hrows r hr⟩
  apply Settles.bind (countAllPages_settles hl.surveyed hE.toHinders true)
  rintro total l' ⟨htotal, hl'⟩
  have hviews : ∀ c ∈ cs, ∀ k, start.Advances site s l k →
      (viewComment site user c).Settles s E k fun view k' => (∃ v, view = some v ∧
        ∃ sec cap, place.locate c.key = .ok sec ∧ sec.Exhibits site s user c cap v) ∧
          start.Advances site s l k' := by
    intro c hc k hk
    obtain ⟨hkey, hfound, hreadable⟩ := hcs c hc
    refine (viewComment_settles hk.surveyed hE.window hkey (hk.isSome hfound) hreadable).imp ?_
    exact fun view k' h => ⟨h.1, hk.trans h.2⟩
  apply Settles.bind (Settles.filterMapM hviews hl')
  rintro views k ⟨hviews, hk⟩
  obtain ⟨hkeys, hlocate⟩ := pageSections_located hk.surveyed (hk.results cs hresults)
    fun c hc => (hcs c hc).1
  have hbound : k.boundSection? = start.boundSection? := by
    rw [boundSection?, hk.surveyed.place, boundSection?]
  apply Settles.get_bind
  refine .bind (Settles.mapM (I := fun l => l = k) (P := fun sec v => ∃ cap,
    sec.capability site user = .ok cap ∧ (sec.view cap).look s = .ok v) ?_ rfl) ?_
  · rintro sec - _ rfl
    exact viewSection_settles hE.window user sec
  rintro heads _ ⟨hheads, rfl⟩
  refine .pure ⟨cs, hgathered, hviews, ?_, htotal, congrArg (·.isSome && _) hbound⟩
  rw [← hkeys, List.forall₂_map_left_iff]
  refine ((List.forall₂_and_left _ _).2 ⟨hlocate, hheads⟩).imp ?_
  rintro sec v ⟨hsec, cap, hcap, hview⟩
  exact ⟨sec, cap, hsec, hcap, hview⟩

end Listing

end Discussion
