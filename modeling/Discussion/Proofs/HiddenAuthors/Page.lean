import Discussion.Proofs.HiddenAuthors.Rows
import Discussion.Proofs.Operation

namespace Discussion

/-- The component neither replaces the usual capability nor changes custom data when it is shown. -/
structure Handler.Usual (h : Handler) : Prop where
  capability : h.capability = fun _ c => c.toCapability
  exported : h.exportCustomData = fun _ _ fields _ => fields

def Place.handler : Place → Handler
  | .ofSection sec => sec.handler
  | .ofArea a => a.handler

/-- What listings of two stores have found out, if the stores differ in who hides behind
pseudonyms. -/
structure Listing.Alike (user : Option UserId) (s t : Store) (l k : Listing) : Prop where
  place : k.place = l.place
  params : k.params = l.params
  viewer : k.viewer = l.viewer
  results : Option.Rel (List.Forall₂ (Comment.Disguised user)) l.results k.results
  withReplies : k.totalWithReplies = l.totalWithReplies
  topLevel : k.totalTopLevel = l.totalTopLevel
  sections : k.sections = l.sections
  reach : k.reach = l.reach
  people : l.people.TrueTo s ∧ k.people.TrueTo t
  usual : l.place.handler.Usual ∧ ∀ key sec,
    Dictionary.find? l.sections key = some (some sec) → sec.handler.Usual

variable {α β : Type} {user : Option UserId} {s t : Store}

/-- The computations have outcomes that are related where the listings they work on are alike. -/
abbrev ListingM.Alike (user : Option UserId) (s t : Store) (R : α → β → Prop) (m : ListingM α)
    (n : ListingM β) : Prop :=
  ListingM.Relates s t (Listing.Alike user s t) R m n

namespace Listing

open ListingM

variable (site : Site)

theorem alike_tracks : Tracks (Listing.Alike user s t) where
  place := fun hl => hl.place
  params := fun hl => hl.params
  viewer := fun hl => hl.viewer
  reach := fun hl => hl.reach
  setReach := fun hl _ => { hl with reach := rfl }

theorem accept_alike {a : Area} (ha : a.handler.Usual) {c d : StoredComment}
    (h : c.Disguised user d) :
    ListingM.Alike user s t Eq (accept site a c) (accept site a d) := by
  apply Relates.bind .get
  intro l k hl
  rw [hl.sections, hl.viewer, h.key_eq]
  split
  · exact .pure rfl
  · apply Relates.bind (.sectionOf _ _)
    rintro sec _ ⟨rfl, harea, -⟩
    apply Relates.bind (.lift _)
    rintro allowed _ rfl
    refine .bind (.modify fun l k hl => { hl with
      sections := by rw [hl.sections]
      usual := ⟨hl.usual.1, ?_⟩ }) fun _ _ _ => .pure rfl
    intro key found hfound
    rw [Dictionary.find?_insert] at hfound
    split at hfound
    · cases allowed with
      | false => cases hfound
      | true =>
        obtain rfl := Option.some.inj (Option.some.inj hfound)
        rw [Section.handler, harea]
        exact ha
    · exact hl.usual.2 key found hfound

theorem acceptAll_alike {a : Area} (ha : a.handler.Usual) {rows rows' : List StoredComment}
    (h : List.Forall₂ (StoredComment.Disguised user) rows rows') :
    ListingM.Alike user s t (List.Forall₂ (Comment.Disguised user)) (acceptAll site a rows)
      (acceptAll site a rows') := by
  induction h with
  | nil => exact .pure .nil
  | cons hc _ ih =>
    apply Relates.bind (accept_alike site ha hc)
    rintro accepted _ rfl
    split
    · exact .bind ih fun _ _ hrest => .pure (.cons hc.ofStored hrest)
    · exact ih

theorem fetchRows_alike (hs : s.Disguised user t) :
    ListingM.Alike user s t (List.Forall₂ (StoredComment.Disguised user)) fetchRows fetchRows := by
  apply Relates.bind .get
  intro l k hl
  rw [hl.params]
  split
  next id _ =>
    apply Relates.bind (selection_relates alike_tracks _)
    rintro f _ rfl
    apply Relates.bind (.store (c := .comment id) (hs.comment? id))
    intro found found' hfound
    refine .pure ?_
    cases hfound with
    | none => exact .nil
    | some hc =>
      rw [Option.filter_some, Option.filter_some, hc.coversAlone f]
      split
      · exact .cons hc .nil
      · exact .nil
  · apply Relates.bind (selection_relates alike_tracks _)
    rintro f _ rfl
    exact .store (c := .select _ _ _) (hs.select _ _ _)

theorem fetch_alike (hs : s.Disguised user t) :
    ListingM.Alike user s t (List.Forall₂ (Comment.Disguised user)) (fetch site) (fetch site) := by
  apply Relates.bind .get
  intro l k hl
  have hvisible : k.isVisible site = l.isVisible site := by
    rw [isVisible, hl.place, hl.viewer]
    rfl
  rw [hvisible, hl.place]
  apply Relates.bind (.lift _)
  rintro visible _ rfl
  split
  · exact .pure .nil
  · apply Relates.bind (fetchRows_alike hs)
    intro rows rows' hrows
    cases hplace : l.place with
    | ofSection sec =>
      refine .pure ?_
      rw [List.forall₂_map_left_iff, List.forall₂_map_right_iff]
      exact hrows.imp fun _ _ hc => hc.ofStored
    | ofArea a =>
      have ha := hl.usual.1
      rw [hplace] at ha
      exact acceptAll_alike site ha hrows

theorem all_alike (hs : s.Disguised user t) :
    ListingM.Alike user s t (List.Forall₂ (Comment.Disguised user)) (all site) (all site) := by
  apply Relates.bind .get
  intro l k hl
  have hresults := hl.results
  generalize l.results = known at hresults ⊢
  generalize k.results = known' at hresults ⊢
  cases hresults with
  | some hcomments => exact .pure hcomments
  | none =>
    apply Relates.bind (fetch_alike site hs)
    intro comments comments' hcomments
    exact .bind (.modify fun l k hl => { hl with results := .some hcomments }) fun _ _ _ =>
      .pure hcomments

theorem total?_alike {l k : Listing} (hl : Listing.Alike user s t l k) (includeReplies : Bool) :
    k.total? includeReplies = l.total? includeReplies := by
  rw [total?, total?, hl.withReplies, hl.topLevel]

theorem setTotal_alike {l k : Listing} (hl : Listing.Alike user s t l k) (includeReplies : Bool)
    (n : Nat) :
    Listing.Alike user s t (l.setTotal includeReplies n) (k.setTotal includeReplies n) := by
  cases includeReplies with
  | false => exact { hl with topLevel := rfl }
  | true => exact { hl with withReplies := rfl }

theorem countAllPages_alike (hs : s.Disguised user t) (includeReplies : Bool) :
    ListingM.Alike user s t Eq (countAllPages site includeReplies)
      (countAllPages site includeReplies) := by
  apply Relates.bind .get
  intro l k hl
  have hvisible : k.isVisible site = l.isVisible site := by
    rw [isVisible, hl.place, hl.viewer]
    rfl
  rw [total?_alike hl, hl.params, hvisible]
  split
  · exact .pure rfl
  · extract_lets rest
    have hrest (n : Nat) : ListingM.Alike user s t Eq (rest n) (rest n) :=
      .bind (.modify fun l k hl => setTotal_alike hl includeReplies n) fun _ _ _ => .pure rfl
    apply Relates.bind (.lift _)
    rintro visible _ rfl
    split
    · refine .bind (.map (all_alike site hs) (Q := Eq) fun _ _ hcomments => hcomments.length_eq) ?_
      rintro n _ rfl
      exact hrest n
    · split
      · apply Relates.bind (selection_relates alike_tracks _)
        rintro f _ rfl
        refine .bind (.store (c := .countSelected f) (hs.countSelected f).symm) ?_
        rintro n _ rfl
        exact hrest n
      · exact .bind (.pure rfl) fun _ _ hn => hn ▸ hrest _

theorem look_person {l : Listing} (h : l.people.TrueTo s) (id : UserId) :
    ∃ people, people.TrueTo s ∧ (person id).look s l = (.ok (s.person? id), { l with people }) := by
  obtain ⟨people, hget, hpeople⟩ := h.look_get id l.peopleOfPage
  refine ⟨people, hpeople, ?_⟩
  unfold person
  rw [look_bind_of look_get, look_bind, look_action, hget]
  rfl

/-- The people of the pages differ, but not in what they are to the store. -/
theorem person_alike (hs : s.Disguised user t) (id id' : UserId) :
    ListingM.Alike user s t (fun p p' => p = s.person? id ∧ p' = s.person? id') (person id)
      (person id') := by
  intro l k hl
  obtain ⟨people, hpeople, hlook⟩ := look_person hl.people.1 id
  obtain ⟨people', hpeople', hlook'⟩ := look_person hl.people.2 id'
  rw [hlook, hlook', hs.person?]
  exact .ok ⟨rfl, rfl⟩ { hl with people := ⟨hpeople, hpeople'⟩ }

theorem peopleOf_alike (hs : s.Disguised user t) (c d : Comment) :
    ListingM.Alike user s t (fun p p' => p = ⟨s.person? c.author, s.person? c.modifier⟩ ∧
      p' = ⟨s.person? d.author, s.person? d.modifier⟩) (peopleOf c) (peopleOf d) := by
  apply Relates.bind (person_alike hs _ _)
  rintro _ _ ⟨rfl, rfl⟩
  apply Relates.bind (person_alike hs _ _)
  rintro _ _ ⟨rfl, rfl⟩
  exact .pure ⟨rfl, rfl⟩

theorem sectionOf_alike {l k : Listing} (hl : Listing.Alike user s t l k) :
    k.sectionOf = l.sectionOf := by
  funext key
  rw [sectionOf, sectionOf, hl.place, hl.sections]

theorem sectionOf_usual {l k : Listing} (hl : Listing.Alike user s t l k) {key : SectionKey}
    {sec : Section} (h : l.sectionOf key = some sec) : sec.handler.Usual := by
  have hplace := hl.usual.1
  unfold sectionOf at h
  cases hp : l.place with
  | ofSection own =>
    rw [hp] at h hplace
    obtain ⟨-, hown⟩ := (Option.ite_none_right_eq_some).1 h
    obtain rfl := Option.some.inj hown
    exact hplace
  | ofArea a =>
    rw [hp] at h
    exact hl.usual.2 key.unique sec (Option.join_eq_some_iff.1 h)

/-- Every way from the author to the view is cut for a stranger. -/
theorem viewComment_alike (hs : s.Disguised user t) {c d : Comment} (h : c.Disguised user d) :
    ListingM.Alike user s t Eq (viewComment site user c) (viewComment site user d) := by
  apply Relates.bind .get
  intro l k hl
  rw [sectionOf_alike hl, h.key_eq]
  split
  · exact .pure rfl
  next sec hsec =>
    have husual := sectionOf_usual hl hsec
    apply Relates.bind (.lift_of _)
    rintro cap _ ⟨rfl, hcap⟩
    obtain ⟨usual, huser, rfl⟩ := Section.capability_usual husual.capability hcap
    apply Relates.bind (peopleOf_alike hs c d)
    rintro _ _ ⟨rfl, rfl⟩
    rw [sec.viewComment_disguised h huser husual.exported]
    apply Relates.bind (.action (sec.look_viewComment hs _ _ _))
    rintro view _ rfl
    exact .pure rfl

theorem viewSection_alike (hs : s.Disguised user t) (sec : Section) :
    ListingM.Alike user s t Eq (liftM (viewSection site user sec))
      (liftM (viewSection site user sec)) := by
  apply Relates.action
  rw [viewSection, Action.look_bind, Action.look_bind]
  refine congrArg _ (funext fun cap => ?_)
  unfold Section.view
  rw [Action.look_bind_of (sec.look_hearing _ _), Action.look_bind_of (sec.look_hearing _ _),
    hs.statusIn]
  rfl

theorem sections_of_keys (find : SectionKey → Option Section) {found found' : Option (List Comment)}
    (h : Option.Rel (List.Forall₂ (Comment.Disguised user)) found found') :
    (found'.getD []).filterMap (fun c => find c.key) =
      (found.getD []).filterMap fun c => find c.key := by
  cases h with
  | none => rfl
  | some hcomments =>
    rw [Option.getD_some, Option.getD_some]
    induction hcomments with
    | nil => rfl
    | cons hc _ ih => rw [List.filterMap_cons, List.filterMap_cons, hc.key_eq, ih]

theorem pageSections_alike {l k : Listing} (hl : Listing.Alike user s t l k) :
    k.pageSections = l.pageSections := by
  have hfound : k.foundSections = l.foundSections := by
    unfold foundSections
    rw [sectionOf_alike hl, sections_of_keys l.sectionOf hl.results]
  rw [pageSections, pageSections, boundSection?, boundSection?, hl.place, hfound]

theorem toPage_alike (hs : s.Disguised user t) :
    ListingM.Alike user s t Eq (toPage site user) (toPage site user) := by
  apply Relates.bind (all_alike site hs)
  intro comments comments' hcomments
  apply Relates.bind (countAllPages_alike site hs true)
  rintro total _ rfl
  apply Relates.bind (.filterMapM (fun c d h => viewComment_alike site hs h) hcomments)
  rintro views _ rfl
  apply Relates.bind .get
  intro l k hl
  rw [pageSections_alike hl, boundSection?, boundSection?, hl.place, hl.params]
  apply Relates.bind (.mapM fun sec _ => viewSection_alike site hs sec)
  rintro sections _ rfl
  exact .pure rfl

end Listing

namespace Forum

variable {f : Forum}

/-- Every component keeps the usual capability and shows custom data as it is. -/
def Usual (f : Forum) : Prop :=
  ∀ d ∈ f.areas, d.handler.Usual

theorem Usual.comment? (h : f.Usual) (id : CommentId) :
    (f.comment? id).Reads fun found => ∀ p ∈ found, p.1.handler.Usual := by
  apply Action.Reads.bind (Action.Reads.store rfl)
  intro record _
  cases record with
  | none => exact Action.Reads.pure fun _ hp => nomatch hp
  | some record =>
    apply Action.Reads.bind (sectionOf_handler h record.key)
    rintro sec ⟨-, hsec⟩
    apply Action.Reads.pure
    rintro _ ⟨⟩
    exact hsec

theorem Usual.openListing (h : f.Usual) (user : Option UserId) (req : ListRequest)
    (params : ListingQuery) : (f.openListing user req params).Reads fun l =>
      ∃ place : Place, place.handler.Usual ∧ l = { place, params, viewer := .ofUser user } := by
  unfold Forum.openListing
  split
  · apply Action.Reads.bind (h.comment? _)
    intro found hfound
    cases found with
    | none => exact Action.Reads.throw _
    | some p => exact Action.Reads.pure ⟨.ofSection p.1, hfound p rfl, rfl⟩
  · split
    · apply Action.Reads.bind (Action.Reads.lift _)
      intro a ha
      have husual := area_handler h ha
      split
      · apply Action.Reads.bind (a.sectionOf_reads _)
        intro sec hsec
        refine Action.Reads.pure ⟨.ofSection sec, ?_, rfl⟩
        rw [Place.handler, Section.handler, hsec.1]
        exact husual
      · exact Action.Reads.pure ⟨.ofArea a, husual, rfl⟩
    · exact Action.Reads.throw _

theorem look_openListing (hs : s.Disguised user t) (req : ListRequest) (params : ListingQuery) :
    (f.openListing user req params).look t = (f.openListing user req params).look s := by
  unfold openListing
  split
  next id _ =>
    have hfound := hs.comment? id
    rw [Action.look_bind, Action.look_bind, comment?, Action.look_bind, Action.look_bind]
    change (Except.ok (t.comment? id) >>= _) >>= _ = (Except.ok (s.comment? id) >>= _) >>= _
    generalize s.comment? id = found at hfound ⊢
    generalize t.comment? id = found' at hfound ⊢
    cases hfound with
    | none => rfl
    | @some c d hc =>
      change (Action.look t (f.sectionOf d.key >>= _)) >>= _ =
        (Action.look s (f.sectionOf c.key >>= _)) >>= _
      rw [hc.key_eq, Action.look_bind, Action.look_bind, look_sectionOf]
      cases (f.sectionOf c.key).look s <;> rfl
  · split
    · rw [Action.look_bind, Action.look_bind]
      refine congrArg _ (funext fun a => ?_)
      split
      · rw [Action.look_bind, Action.look_bind, Area.look_sectionOf, Area.look_sectionOf]
        rfl
      · rfl
    · rfl

/-- A pseudonym hides its author: who has written a comment under one cannot be told from any page
that is shown to another. -/
theorem list_disguised (hf : f.Usual) {w w' : World} (hw : w.store.Disguised user w'.store)
    (req : ListRequest) :
    ((f.list user req).run.run Faults.never () w').1 =
      ((f.list user req).run.run Faults.never () w).1 := by
  have hreads := f.list_reads user req
  rw [Program.Reads.run_never hreads, Program.Reads.run_never hreads]
  change (f.list user req).look w'.store = (f.list user req).look w.store
  rw [list, Action.look_bind, Action.look_bind]
  refine congrArg _ (funext fun params => ?_)
  rw [Action.look_bind, Action.look_bind, look_openListing hw]
  cases hopen : (f.openListing user req params).look w.store with
  | error e => rfl
  | ok l =>
    obtain ⟨place, husual, rfl⟩ := (hf.openListing user req params).look hopen
    have hnew : Listing.Alike user w.store w'.store { place, params, viewer := .ofUser user }
        { place, params, viewer := .ofUser user } := {
      place := rfl, params := rfl, viewer := rfl, results := .none, withReplies := rfl
      topLevel := rfl, sections := rfl, reach := rfl
      people := ⟨PeopleCache.trueTo_empty, PeopleCache.trueTo_empty⟩
      usual := ⟨husual, fun _ _ h => nomatch h⟩ }
    have hpages := Listing.toPage_alike f.site hw _ _ hnew
    change Action.look w'.store (ListingM.eval _ _) = Action.look w.store (ListingM.eval _ _)
    rw [ListingM.look_eval, ListingM.look_eval]
    generalize (Listing.toPage f.site user).look w.store _ = page at hpages ⊢
    generalize (Listing.toPage f.site user).look w'.store _ = page' at hpages ⊢
    cases hpages with
    | ok hsame => rw [hsame]
    | error => rfl

/-- One comment under a pseudonym, by one user or another. -/
def writtenBy (author : UserId) : World where
  store := {
    comments := [{ (default : StoredComment) with
      id := 1, key := ⟨"wiki", "talk", 1, 1⟩, content := "Text", author, modifier := author
      pseudonym := some "Owl" }]
    lastId := 1
    people := [⟨4, "ada", "Ada", "L"⟩, ⟨5, "bob", "Bob", "M"⟩] }

theorem list_disguised_writtenBy :
    let req : ListRequest :=
      { component := some "wiki", area := some "talk", context := some 1, item := some 1 }
    (writtenBy 4).store ≠ (writtenBy 5).store ∧
      (((Forum.wiki .wiki).list (some 6) req).run.run Faults.never () (writtenBy 5)).1 =
        (((Forum.wiki .wiki).list (some 6) req).run.run Faults.never () (writtenBy 4)).1 := by
  intro req
  have husual : (Forum.wiki .wiki).Usual := by
    intro d hd
    rw [List.mem_singleton.1 hd]
    exact ⟨rfl, rfl⟩
  have hstores : (writtenBy 4).store.Disguised (some 6) (writtenBy 5).store := {
    comments := .cons (.hidden (by decide) (by decide) (by decide) (.inl ⟨rfl, rfl⟩)) .nil
    votes := rfl, choices := rfl, people := rfl }
  exact ⟨by decide, list_disguised husual hstores req⟩

end Forum

end Discussion
