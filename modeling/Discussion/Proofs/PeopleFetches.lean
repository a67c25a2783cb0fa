import Discussion.Proofs.PeopleLookups

namespace Discussion

variable {α β : Type} {w : World} {cs : List Comment} {l : Listing}

/-- How many of the calls look people up. -/
def countLookups (calls : List Call) : Nat :=
  calls.countP (·.asked?.isSome)

theorem countLookups_append (calls calls' : List Call) :
    countLookups (calls ++ calls') = countLookups calls + countLookups calls' :=
  List.countP_append

theorem countLookups_eq_zero {calls : List Call} (h : ∀ c ∈ calls, c.AsksNobody) :
    countLookups calls = 0 := by
  refine List.countP_eq_zero.2 fun c hc => ?_
  rw [show c.asked? = none from h c hc]
  exact Bool.false_ne_true

/-- A lookup is left to a listing as long as it does not know all the people of its page. -/
def Listing.lookupsLeft (l : Listing) : Nat :=
  if l.peopleOfPage.all l.people.knows then 0 else 1

theorem Listing.lookupsLeft_le_one (l : Listing) : l.lookupsLeft ≤ 1 := by
  unfold lookupsLeft
  split <;> decide

/-- Once the listing has its comments, the computation makes only lookups that are left. -/
def ListingM.Frugal (cs : List Comment) (m : ListingM α) : Prop :=
  ∀ w l, l.results = some cs → (m.run.run l).Ends (fun _ => True) w fun r calls _ =>
    r.2.results = some cs ∧ countLookups calls + r.2.lookupsLeft ≤ l.lookupsLeft

namespace ListingM.Frugal

variable {m : ListingM α} {g : α → ListingM β}

theorem pure (a : α) : (Pure.pure a : ListingM α).Frugal cs :=
  fun _ l hl => ⟨hl, (Nat.zero_add l.lookupsLeft).le⟩

theorem get : (MonadState.get : ListingM Listing).Frugal cs :=
  fun _ l hl => ⟨hl, (Nat.zero_add l.lookupsLeft).le⟩

theorem lift (r : Except Error α) : (liftM r : ListingM α).Frugal cs :=
  fun _ l hl => ⟨hl, (Nat.zero_add l.lookupsLeft).le⟩

theorem action {m : Action α} (h : m.AsksOnly Call.AsksNobody) :
    (liftM m : ListingM α).Frugal cs := by
  intro w l hl
  have hled : Leads Call.AsksNobody w (· = l) (liftM m : ListingM α) l fun _ l' => l' = l :=
    .action h rfl
  apply Program.Ends.mono hled
  rintro ⟨r, l'⟩ calls w' ⟨-, hcalls, hl'⟩
  obtain rfl : l' = l := by cases r <;> exact hl'
  rw [countLookups_eq_zero hcalls, Nat.zero_add]
  exact ⟨hl, Nat.le_refl _⟩

theorem bind (hm : m.Frugal cs) (hg : ∀ a, (g a).Frugal cs) : (m >>= g).Frugal cs := by
  intro w l hl
  apply ends_bind.2
  apply (hm w l hl).mono
  rintro ⟨r, l'⟩ calls w' ⟨hl', hcalls⟩
  cases r with
  | ok a =>
    apply (hg a w' l' hl').mono
    rintro r calls' w'' ⟨hl'', hcalls'⟩
    rw [countLookups_append]
    refine ⟨hl'', ?_⟩
    dsimp only at hcalls
    omega
  | error e => exact ⟨hl', hcalls⟩

theorem mapM {f : α → ListingM β} (hf : ∀ a, (f a).Frugal cs) (l : List α) :
    ListingM.Frugal cs (l.mapM f) := by
  induction l with
  | nil => exact pure []
  | cons a l ih =>
    rw [List.mapM_cons]
    exact bind (hf a) fun _ => bind ih fun _ => pure _

theorem filterMapM {f : α → ListingM (Option β)} {l : List α} (hf : ∀ a ∈ l, (f a).Frugal cs) :
    ListingM.Frugal cs (l.filterMapM f) := by
  suffices hloop : ∀ found : List β, ListingM.Frugal cs (List.filterMapM.loop f l found) from hloop []
  induction l with
  | nil => exact fun found => pure found.reverse
  | cons a l ih =>
    obtain ⟨ha, hl⟩ := List.forall_mem_cons.1 hf
    intro found
    refine bind ha fun b => ?_
    cases b <;> exact ih hl _

end ListingM.Frugal

/-- Whichever calls fail, at most one lookup of people is carried out. -/
def Program.LooksUpOnce (p : Program α) (w : World) : Prop :=
  p.Ends (fun _ => True) w fun _ calls _ => countLookups calls ≤ 1

theorem Action.AsksOnly.looksUpOnce_bind {m : Action α} {g : α → Action β}
    (hm : m.AsksOnly Call.AsksNobody) (hasks : m.Asks)
    (hg : ∀ a, m.look w.store = .ok a → (g a).run.LooksUpOnce w) :
    (m >>= g).run.LooksUpOnce w := by
  refine ends_bind_of (Program.Ends.and (hm w) (Program.Asks.ends hasks)) ?_ ?_
  · rintro a calls _ ⟨⟨rfl, hcalls⟩, hlook | ⟨failure, hfailure⟩, -⟩
    · apply (hg a hlook.symm).mono
      intro r calls' w' hcalls'
      rwa [countLookups_append, countLookups_eq_zero hcalls, Nat.zero_add]
    · cases hfailure
  · rintro e calls _ ⟨⟨-, hcalls⟩, -⟩
    exact (countLookups_eq_zero hcalls).trans_le (Nat.zero_le 1)

section Listing

variable {m : ListingM α} {g : α → ListingM β} {I : Listing → Prop} {Q : α → Listing → Prop}

theorem ListingM.Leads.looksUpOnce_bind (hm : m.Leads Call.AsksNobody w I l Q)
    (hg : ∀ a l', Q a l' → ((g a).run.run l').LooksUpOnce w) :
    ((m >>= g).run.run l).LooksUpOnce w := by
  apply ends_bind.2
  apply Program.Ends.mono hm
  rintro ⟨r, l'⟩ calls w' ⟨rfl, hcalls, hr⟩
  cases r with
  | ok a =>
    apply (hg a l' hr).mono
    intro r calls' w'' hcalls'
    rwa [countLookups_append, countLookups_eq_zero hcalls, Nat.zero_add]
  | error e => exact (countLookups_eq_zero hcalls).trans_le (Nat.zero_le 1)

theorem ListingM.Frugal.looksUpOnce (h : m.Frugal cs) (hl : l.results = some cs) :
    (m.run.run l).LooksUpOnce w := by
  apply (h w l hl).mono
  rintro r calls w' ⟨-, hcalls⟩
  exact (Nat.le_of_add_right_le hcalls).trans l.lookupsLeft_le_one

theorem Program.LooksUpOnce.eval (h : (m.run.run l).LooksUpOnce w) :
    (m.eval l).run.LooksUpOnce w := by
  change Program.Ends _ (m.run.run l >>= fun r => .done r.1) w _
  rw [Program.ends_bind]
  apply Program.Ends.mono h
  intro r calls w' hcalls
  change countLookups (calls ++ []) ≤ 1
  rwa [List.append_nil]

end Listing

namespace Section

variable (s : Section)

theorem status_asksNobody (user : UserId) (comment : Option Comment) :
    (s.status user comment).AsksOnly Call.AsksNobody := by
  have hasked (comment : Option Comment) :
      (s.chosenStatus user comment).AsksOnly Call.AsksNobody := .store rfl rfl
  have hsection : (s.status user none).AsksOnly Call.AsksNobody := by
    refine .bind (hasked none) fun status => ?_
    cases status <;> exact .pure _
  unfold status
  split
  · refine .bind (hasked comment) fun status => ?_
    cases status with
    | some status => exact .pure _
    | none => exact hsection
  · exact hsection

theorem hearing_asksNobody (viewer : Option UserId) (comment : Option Comment) :
    (s.hearing viewer comment).AsksOnly Call.AsksNobody := by
  cases viewer with
  | none => exact .pure _
  | some user => exact .bind (s.status_asksNobody user comment) fun _ => .pure _

theorem hasUpvoted_asksNobody (viewer : Option UserId) (id : CommentId) :
    (hasUpvoted viewer id).AsksOnly Call.AsksNobody := by
  cases viewer with
  | none => exact .pure _
  | some user => exact .store rfl rfl

theorem viewComment_asksNobody (comment : Comment) (cap : Capability) (people : Participants) :
    (s.viewComment comment cap people).AsksOnly Call.AsksNobody :=
  .bind (.lift _) fun _ => .bind (hasUpvoted_asksNobody _ _) fun _ =>
    .bind (s.hearing_asksNobody _ _) fun _ => .pure _

theorem view_asksNobody (cap : Capability) : (s.view cap).AsksOnly Call.AsksNobody :=
  .bind (s.hearing_asksNobody cap.user none) fun _ => .pure _

end Section

theorem Area.sectionOf_asksNobody (a : Area) (item : ItemId) :
    (a.sectionOf item).AsksOnly Call.AsksNobody :=
  .bind (.host rfl) fun _ => .pure _

namespace Forum

variable (f : Forum) (user : Option UserId)

theorem openListing_asksNobody (req : ListRequest) (params : ListingQuery) :
    (f.openListing user req params).AsksOnly Call.AsksNobody := by
  unfold openListing
  split
  · refine .bind (.bind (.store rfl rfl) fun record => ?_) fun found => ?_
    · split
      · exact .pure _
      · exact .bind (.bind (.lift _) fun a => a.sectionOf_asksNobody _) fun _ => .pure _
    · split
      · exact .pure _
      · exact .throw _
  · split
    · refine .bind (.lift _) fun a => ?_
      split
      · exact .bind (a.sectionOf_asksNobody _) fun _ => .pure _
      · exact .pure _
    · exact .throw _

end Forum

namespace Listing

open ListingM

/-- To look up somebody of the page is to look up everybody there. -/
theorem person_frugal {id : UserId} (hid : id ∈ cs.flatMap fun c => [c.author, c.modifier]) :
    (person id).Frugal cs := by
  intro w l hl
  have hpage : l.peopleOfPage = cs.flatMap fun c => [c.author, c.modifier] := by
    rw [peopleOfPage, hl]
    rfl
  change Program.Ends _ ((liftM (l.people.get id l.peopleOfPage) >>= _ : ListingM _).run.run l) w _
  cases hknows : l.people.knows id with
  | true =>
    rw [PeopleCache.get_known hknows]
    exact ⟨hl, (Nat.zero_add l.lookupsLeft).le⟩
  | false =>
    have hleft : l.lookupsLeft = 1 := by
      refine if_neg fun hall => ?_
      rw [List.all_eq_true.1 hall id (hpage ▸ hid)] at hknows
      cases hknows
    let ids := l.people.wanted id l.peopleOfPage
    let people := l.people.learn ids (w.store.peopleByIds ids)
    have hnone : lookupsLeft { l with people } = 0 := by
      refine if_pos (List.all_eq_true.2 fun u hu => PeopleCache.knows_learn.2 ?_)
      rw [or_iff_not_imp_left, Bool.not_eq_true]
      exact fun hunknown => PeopleCache.mem_wanted_iff.2 ⟨.inl hu, hunknown⟩
    rw [PeopleCache.get_unknown hknows]
    refine ⟨fun failure _ => ⟨hl, (Nat.zero_add l.lookupsLeft).le⟩, hl, ?_⟩
    change 1 + lookupsLeft { l with people } ≤ l.lookupsLeft
    rw [hnone, hleft]

theorem viewComment_frugal (site : Site) (user : Option UserId) {c : Comment} (hc : c ∈ cs) :
    (viewComment site user c).Frugal cs := by
  have hauthor : c.author ∈ cs.flatMap fun c => [c.author, c.modifier] :=
    List.mem_flatMap.2 ⟨c, hc, List.mem_cons_self⟩
  have hmodifier : c.modifier ∈ cs.flatMap fun c => [c.author, c.modifier] :=
    List.mem_flatMap.2 ⟨c, hc, List.mem_cons_of_mem _ List.mem_cons_self⟩
  refine .bind .get fun k => ?_
  split
  · exact .pure _
  next sec _ =>
    refine .bind (.lift _) fun cap => .bind ?_ fun people => ?_
    · exact .bind (person_frugal hauthor) fun _ => .bind (person_frugal hmodifier) fun _ => .pure _
    · exact .bind (.action (sec.viewComment_asksNobody _ _ _)) fun _ => .pure _

theorem viewSection_asksNobody (site : Site) (user : Option UserId) (sec : Section) :
    (viewSection site user sec).AsksOnly Call.AsksNobody :=
  .bind (.lift _) fun cap => sec.view_asksNobody cap

theorem toPage_looksUpOnce (site : Site) (user : Option UserId) (place : Place)
    (params : ListingQuery) (viewer : Viewer) :
    ((toPage site user).run.run { place, params, viewer }).LooksUpOnce w := by
  apply Leads.looksUpOnce_bind (all_endures (remembers_start place params viewer))
  rintro comments l ⟨hl, hcs⟩
  apply Leads.looksUpOnce_bind ((countAllPages_retains hl true).and_settles
    (countAllPages_asks site true) (countAllPages_settles hl.toSurveyed .trivial true))
  rintro total l' ⟨-, -, hadvances⟩
  have hrest := hadvances.results comments hcs
  refine Frugal.looksUpOnce ?_ hrest
  refine .bind (.filterMapM fun c hc => viewComment_frugal site user hc) fun views => ?_
  refine .bind .get fun k => .bind (.mapM (fun sec => ?_) _) fun heads => .pure _
  exact .action (viewSection_asksNobody site user sec)

end Listing

theorem Forum.list_looksUpOnce (f : Forum) (user : Option UserId) (req : ListRequest) (w : World) :
    (f.list user req).run.LooksUpOnce w := by
  refine Action.AsksOnly.looksUpOnce_bind (.lift _) (.lift _) fun params _ => ?_
  refine (f.openListing_asksNobody user req params).looksUpOnce_bind
    (f.openListing_asks user req params) fun l hopen => ?_
  obtain ⟨place, -, rfl⟩ := opens_of_openListing hopen
  exact (Listing.toPage_looksUpOnce f.site user place params (.ofUser user)).eval

namespace PeopleCache

/-- Whichever lookups fail, a cache fetches everybody once at most, found or not: an answer is whom the
store has under the id, and nobody is asked for again who has been asked for with success. So a page
of comments takes one lookup at most that succeeds, whoever wrote and changed the comments. -/
theorem fetches_once {σ : Type} (faults : Faults σ) (state : σ) (w : World) :
    (∀ inquiries : List Inquiry,
      let p := (inquiries.mapM inquire).run {}
      let r := p.run faults state w
      r.2.2 = w ∧
        List.Forall₂ (fun q reply => ∀ found, reply = .ok found → w.store.Registers q.id found)
          inquiries r.1.1 ∧
        Kept w.store (lookups (p.made faults state w)) r.1.2) ∧
    ∀ (f : Forum) (user : Option UserId) (req : ListRequest),
      (lookups ((f.list user req).run.made faults state w)).countP (·.2) ≤ 1 := by
  refine ⟨fun inquiries => ?_, fun f user req => ?_⟩
  · obtain ⟨hw, hreplies, hkept⟩ := kept_empty.inquireAll inquiries faults state
    refine ⟨hw, hreplies.imp fun q reply hreply found hfound => ?_, hkept⟩
    rw [hreply found hfound]
    exact w.store.registers_person? q.id
  · rw [countP_lookups, ← Program.carried_eq]
    exact (f.list_looksUpOnce user req w).run_any faults state

/-- After a lookup that fails the two people are asked for again, and then no more, though one of them
does not exist. -/
example :
    let person : Person := { (default : Person) with id := 7 }
    let w : World := { store := { people := [person] } }
    let faults : Faults Nat := fun n _ => (if n = 0 then some "down" else none, n + 1)
    let inquiries : List Inquiry := [⟨9, [7, 7]⟩, ⟨7, [9]⟩, ⟨9, [8]⟩]
    let p := (inquiries.mapM inquire).run {}
    lookups (p.made faults 0 w) = [([7, 9], false), ([7, 9], true)] ∧
      (p.run faults 0 w).1.1.map (·.toOption) = [none, some (some person), some none] := by
  decide +kernel

end PeopleCache

end Discussion
