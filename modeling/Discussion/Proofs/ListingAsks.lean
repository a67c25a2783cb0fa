import Discussion.Proofs.Reading

namespace Discussion

/-- The computation on a listing only asks questions. -/
def ListingM.Reads {α : Type} (m : ListingM α) : Prop :=
  ∀ s : Listing, Program.Reads (m.run.run s) fun _ => True

/-- The computation on a listing only asks questions, and the failure of one of them is its error. -/
def ListingM.Asks {α : Type} (m : ListingM α) : Prop :=
  ∀ s : Listing, (m.run.run s).Asks fun failure r => r.1 = .error (.storage failure)

namespace ListingM.Asks

variable {α β : Type} {m : ListingM α} {g : α → ListingM β}

theorem pure (a : α) : ListingM.Asks (Pure.pure a) := fun _ => trivial

theorem get : ListingM.Asks (MonadState.get : ListingM Listing) := fun _ => trivial

theorem modify (f : Listing → Listing) :
    ListingM.Asks (modifyGet fun s => ((), f s) : ListingM Unit) :=
  fun _ => trivial

theorem lift (r : Except Error α) : ListingM.Asks (liftM r : ListingM α) := fun _ => trivial

theorem action {m : Action α} (h : m.Asks) : ListingM.Asks (liftM m : ListingM α) := by
  refine fun s => Program.Asks.bind h (fun _ => trivial) ?_
  rintro failure _ rfl
  exact ⟨_, rfl, rfl⟩

theorem bind (hm : m.Asks) (hg : ∀ a, (g a).Asks) : (m >>= g).Asks := by
  intro s
  apply Program.Asks.bind (hm s)
  · rintro ⟨r, t⟩
    cases r with
    | ok a => exact hg a t
    | error e => trivial
  · rintro failure ⟨_, t⟩ rfl
    exact ⟨_, rfl, rfl⟩

theorem map {f : α → β} (hm : m.Asks) : (f <$> m).Asks := bind hm fun _ => pure _

theorem mapM {f : α → ListingM β} (hf : ∀ a, (f a).Asks) (l : List α) :
    ListingM.Asks (l.mapM f) := by
  induction l with
  | nil => exact pure []
  | cons a l ih =>
    rw [List.mapM_cons]
    exact bind (hf a) fun _ => bind ih fun _ => pure _

theorem filterMapM {f : α → ListingM (Option β)} (hf : ∀ a, (f a).Asks) (l : List α) :
    ListingM.Asks (l.filterMapM f) := by
  suffices hloop : ∀ found : List β, ListingM.Asks (List.filterMapM.loop f l found) from hloop []
  induction l with
  | nil => exact fun found => pure found.reverse
  | cons a l ih =>
    intro found
    apply bind (hf a)
    intro b
    cases b <;> exact ih _

theorem eval (h : m.Asks) (s : Listing) : (m.eval s).Asks := by
  change Program.Asks _ (m.run.run s >>= fun r => .done r.1)
  exact Program.Asks.bind (h s) (fun _ => trivial) fun _ r hr => ⟨r.1, rfl, hr⟩

theorem reads (h : m.Asks) : m.Reads :=
  fun s => (h s).reads

end ListingM.Asks

theorem ListingM.Reads.eval {α : Type} {m : ListingM α} (h : m.Reads) (s : Listing) :
    (m.eval s).Reads fun _ => True :=
  Program.Reads.bind (h s) fun _ _ _ _ => trivial

theorem PeopleCache.get_asks (people : PeopleCache) (id : UserId) (batch : List UserId) :
    (people.get id batch).Asks := by
  unfold get
  split
  · exact .pure _
  · exact .bind (.store rfl) fun _ => .pure _

namespace Listing

variable (site : Site)

theorem findReach_asks (a : Area) : (findReach a).Asks := by
  apply ListingM.Asks.bind .get
  intro s
  split
  · exact .pure _
  · extract_lets user rest
    have hrest (children : List ContextId) : (rest children).Asks := by
      apply ListingM.Asks.bind (.action (Action.Asks.host _ _))
      intro visibility
      exact .bind (.modify _) fun _ => .pure _
    split
    · exact .bind (.action (Action.Asks.host _ _)) hrest
    · exact .bind (.pure _) hrest

theorem selection_asks (includeReplies : Bool) : (selection includeReplies).Asks := by
  apply ListingM.Asks.bind .get
  intro s
  dsimp only
  split
  · exact .bind (.pure _) fun _ => .pure _
  · exact .bind (findReach_asks _) fun _ => .bind (.pure _) fun _ => .pure _

theorem accept_asks (a : Area) (r : StoredComment) : (accept site a r).Asks := by
  apply ListingM.Asks.bind .get
  intro s
  split
  · exact .pure _
  · apply ListingM.Asks.bind (.action (Area.sectionOf_asks _ _))
    intro sec
    apply ListingM.Asks.bind (.lift _)
    intro allowed
    exact .bind (.modify _) fun _ => .pure _

theorem acceptAll_asks (a : Area) (rows : List StoredComment) :
    (acceptAll site a rows).Asks := by
  induction rows with
  | nil => exact .pure _
  | cons r rest ih =>
    apply ListingM.Asks.bind (accept_asks site a r)
    intro accepted
    split
    · exact .bind ih fun _ => .pure _
    · exact ih

theorem fetchRows_asks : fetchRows.Asks := by
  apply ListingM.Asks.bind .get
  intro s
  split
  · apply ListingM.Asks.bind (selection_asks _)
    intro f
    exact .bind (.action (Action.Asks.store rfl)) fun _ => .pure _
  · exact .bind (selection_asks _) fun f => .action (Action.Asks.store rfl)

theorem fetch_asks : (fetch site).Asks := by
  apply ListingM.Asks.bind .get
  intro s
  apply ListingM.Asks.bind (.lift _)
  intro visible
  split
  · exact .pure _
  · apply ListingM.Asks.bind fetchRows_asks
    intro rows
    split
    · exact .pure _
    · exact acceptAll_asks site _ rows

theorem all_asks : (all site).Asks := by
  apply ListingM.Asks.bind .get
  intro s
  split
  · exact .pure _
  · exact .bind (fetch_asks site) fun _ => .bind (.modify _) fun _ => .pure _

theorem all_reads : (all site).Reads :=
  (all_asks site).reads

theorem countAllPages_asks (includeReplies : Bool) :
    (countAllPages site includeReplies).Asks := by
  apply ListingM.Asks.bind .get
  intro s
  split
  · exact .pure _
  · extract_lets rest
    have hrest (n : Nat) : (rest n).Asks := .bind (.modify _) fun _ => .pure _
    apply ListingM.Asks.bind (.lift _)
    intro visible
    split
    · exact .bind (.map (all_asks site)) hrest
    · split
      · exact .bind (selection_asks _) fun f => .bind (.action (Action.Asks.store rfl)) hrest
      · exact .bind (.pure _) hrest

theorem count_asks : (count site).Asks := by
  apply ListingM.Asks.bind .get
  intro s
  split
  · exact .pure _
  · split
    · exact .bind (all_asks site) fun _ => .pure _
    · apply ListingM.Asks.bind (.lift _)
      intro visible
      split
      · exact .pure _
      · exact .bind (selection_asks _) fun f =>
          .bind (.action (Action.Asks.store rfl)) fun _ => .pure _

theorem person_asks (id : UserId) : (person id).Asks := by
  apply ListingM.Asks.bind .get
  intro s
  apply ListingM.Asks.bind (.action (s.people.get_asks id s.peopleOfPage))
  intro _
  exact .bind (.modify _) fun _ => .pure _

theorem peopleOf_asks (c : Comment) : (peopleOf c).Asks :=
  .bind (person_asks _) fun _ => .bind (person_asks _) fun _ => .pure _

theorem viewComment_asks (user : Option UserId) (c : Comment) :
    (viewComment site user c).Asks := by
  apply ListingM.Asks.bind .get
  intro s
  split
  · exact .pure _
  · apply ListingM.Asks.bind (.lift _)
    intro cap
    apply ListingM.Asks.bind (peopleOf_asks c)
    intro people
    exact .bind (.action (Section.viewComment_asks _ _ _ _)) fun _ => .pure _

theorem viewSection_asks (user : Option UserId) (sec : Section) :
    (viewSection site user sec).Asks :=
  .bind (.lift _) fun cap => sec.view_asks cap

theorem toPage_asks (user : Option UserId) : (toPage site user).Asks := by
  apply ListingM.Asks.bind (all_asks site)
  intro comments
  apply ListingM.Asks.bind (countAllPages_asks site true)
  intro total
  apply ListingM.Asks.bind (.filterMapM (viewComment_asks site user) comments)
  intro views
  apply ListingM.Asks.bind .get
  intro s
  refine ListingM.Asks.bind (.mapM (fun sec => ?_) _) fun sections => .pure _
  exact .action (viewSection_asks site user sec)

end Listing

namespace Forum

variable (f : Forum) (user : Option UserId)

theorem openListing_asks (req : ListRequest) (params : ListingQuery) :
    (f.openListing user req params).Asks := by
  unfold openListing
  split
  · refine .bind (f.comment?_asks _) fun found => ?_
    split
    · exact .pure _
    · exact .throw _
  · split
    · refine .bind (.lift _) fun a => ?_
      split
      · exact .bind (a.sectionOf_asks _) fun _ => .pure _
      · exact .pure _
    · exact .throw _

theorem list_asks (req : ListRequest) : (f.list user req).Asks :=
  .bind (.lift _) fun params => .bind (f.openListing_asks user req params) fun listing =>
    ListingM.Asks.eval (Listing.toPage_asks f.site user) listing

theorem list_reads (req : ListRequest) : (f.list user req).Reads fun _ => True :=
  (f.list_asks user req).reads

theorem sectionViews_asks (req : SectionRequest) : (f.sectionViews user req).Asks := by
  unfold sectionViews
  split
  · exact .pure _
  · apply Action.Asks.bind (f.sectionOf_asks _)
    intro sec
    apply Action.Asks.bind (.lift _)
    intro cap
    split
    · exact .bind (sec.view_asks cap) fun _ => .pure _
    · exact .pure _

theorem sectionViews_reads (req : SectionRequest) :
    (f.sectionViews user req).Reads fun _ => True :=
  (f.sectionViews_asks user req).reads

end Forum

end Discussion
