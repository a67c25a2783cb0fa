import Discussion.Proofs.HiddenSections.Rows
import Discussion.Proofs.Operation

namespace Discussion

/-- Listings that start like this are of two stores that differ in hidden sections only. Their pages
have the same rows outside of these, and `hidden` and `hidden'` rows are counted within. -/
structure Listing.Secluded (hides : SectionKey → Bool) (site : Site) (s t : Store)
    (hidden hidden' : Nat) (start : Listing) : Prop where
  many : start.params.comment = none
  conceals : start.place.Conceals site start.viewer hides
  same : s.SameOutside hides t
  page : ∀ a, start.place = .ofArea a → ∀ f, start.place.selection start.params start.viewer
      start.params.includeReplies = .ok f →
    outside hides (pageRows t f start.params) = outside hides (pageRows s f start.params)
  counted : ∀ f, start.place.selection start.params start.viewer true = .ok f →
    start.place.countHidden hides f s = hidden ∧ start.place.countHidden hides f t = hidden'

def CommentPage.addTotal (p : CommentPage) (n : Nat) : CommentPage :=
  { p with total := p.total + n }

/-- Both numbers count the same, and each of them so many more. -/
def Apart (hidden hidden' n n' : Nat) : Prop :=
  ∃ shown, n = shown + hidden ∧ n' = shown + hidden'

/-- What two such listings have found out. -/
structure Listing.Veiled (hides : SectionKey → Bool) (s : Store) (hidden hidden' : Nat)
    (start l k : Listing) : Prop where
  same : ∃ sections withReplies topLevel, k = { l with
    sections := sections, totalWithReplies := withReplies, totalTopLevel := topLevel }
  place : l.place = start.place
  params : l.params = start.params
  viewer : l.viewer = start.viewer
  reach : ∀ a, start.place = .ofArea a → ∀ reach, l.reach = some reach →
    a.reach start.viewer start.params.includeChildContexts = .ok reach
  results : ∀ comments, l.results = some comments → ∀ c ∈ comments, start.place.Shows hides s c
  sections : ∀ a, start.place = .ofArea a → a.Recollects hides l.sections k.sections
  totals : Option.Rel (Apart hidden hidden') l.totalWithReplies k.totalWithReplies

variable {hides : SectionKey → Bool} {site : Site} {s t : Store}
variable {hidden hidden' : Nat} {start : Listing}

namespace Listing

open ListingM

namespace Veiled

variable {l k : Listing} (hl : Veiled hides s hidden hidden' start l k)

include hl

theorem place_eq : k.place = start.place := by
  obtain ⟨_, _, _, rfl⟩ := hl.same
  exact hl.place

theorem params_eq : k.params = start.params := by
  obtain ⟨_, _, _, rfl⟩ := hl.same
  exact hl.params

theorem viewer_eq : k.viewer = start.viewer := by
  obtain ⟨_, _, _, rfl⟩ := hl.same
  exact hl.viewer

theorem reach_eq : k.reach = l.reach := by
  obtain ⟨_, _, _, rfl⟩ := hl.same
  rfl

theorem results_eq : k.results = l.results := by
  obtain ⟨_, _, _, rfl⟩ := hl.same
  rfl

theorem people_eq : k.people = l.people := by
  obtain ⟨_, _, _, rfl⟩ := hl.same
  rfl

theorem setReach {a : Area} (ha : start.place = .ofArea a) {reach : List ContextId × ItemRange}
    (hreach : a.reach start.viewer start.params.includeChildContexts = .ok reach) :
    Veiled hides s hidden hidden' start { l with reach := some reach }
      { k with reach := some reach } := by
  obtain ⟨sections, withReplies, topLevel, rfl⟩ := hl.same
  refine { hl with same := ⟨sections, withReplies, topLevel, rfl⟩, reach := ?_ }
  intro a' ha' reach' hreach'
  obtain rfl := Place.ofArea.inj (ha.symm.trans ha')
  exact Option.some.inj hreach' ▸ hreach

theorem setSections {a : Area} (ha : start.place = .ofArea a) {d e : Dictionary (Option Section)}
    (h : a.Recollects hides d e) :
    Veiled hides s hidden hidden' start { l with sections := d } { k with sections := e } := by
  obtain ⟨_, withReplies, topLevel, rfl⟩ := hl.same
  refine { hl with same := ⟨e, withReplies, topLevel, rfl⟩, sections := ?_ }
  intro a' ha'
  obtain rfl := Place.ofArea.inj (ha.symm.trans ha')
  exact h

end Veiled

theorem findReach_veiled {a : Area} (ha : start.place = .ofArea a) :
    Relates s t (Veiled hides s hidden hidden' start)
      (fun reach reach' => reach' = reach ∧
        a.reach start.viewer start.params.includeChildContexts = .ok reach)
      (findReach a) (findReach a) := by
  apply Relates.bind .get
  intro l k hl
  have hknown := hl.reach a ha
  rw [hl.reach_eq, hl.params_eq, hl.viewer_eq, hl.params, hl.viewer]
  split
  next reach hreach => exact .pure ⟨rfl, hknown reach hreach⟩
  next =>
    extract_lets user rest
    have hrest (children : List ContextId) (hchildren :
        a.children start.viewer start.params.includeChildContexts = .ok children) :
        Relates s t (Veiled hides s hidden hidden' start)
          (fun reach reach' => reach' = reach ∧
            a.reach start.viewer start.params.includeChildContexts = .ok reach)
          (rest children) (rest children) := by
      apply Relates.bind (.host_look _ _)
      rintro _ visibility ⟨rfl, hvisibility⟩
      have hreach : a.reach start.viewer start.params.includeChildContexts =
          .ok (addContexts [a.context] children, visibility.range) := by
        change (a.handler.visibility _ start.viewer.user?).mapError Error.storage = _ at hvisibility
        rw [Area.reach, hchildren]
        change Except.mapError Error.storage _ >>= _ = _
        rw [hvisibility]
        rfl
      exact .bind (.modify fun l k hl => hl.setReach ha hreach) fun _ _ _ => .pure ⟨rfl, hreach⟩
    split
    next hwith =>
      apply Relates.bind (.host_look _ _)
      rintro _ children ⟨rfl, hchildren⟩
      exact hrest children (by rw [Area.children, if_pos hwith]; exact hchildren)
    next hwithout =>
      refine .bind (.pure (R := fun a b => b = a ∧ a = []) ⟨rfl, rfl⟩) ?_
      rintro _ _ ⟨rfl, rfl⟩
      exact hrest [] (by rw [Area.children, if_neg hwithout]; rfl)

theorem selection_veiled (includeReplies : Bool) :
    Relates s t (Veiled hides s hidden hidden' start)
      (fun f f' => f' = f ∧
        start.place.selection start.params start.viewer includeReplies = .ok f)
      (selection includeReplies) (selection includeReplies) := by
  apply Relates.bind .get
  intro l k hl
  rw [hl.place_eq, hl.params_eq, hl.place, hl.params]
  cases hplace : start.place with
  | ofSection sec =>
    refine .bind (.pure (R := fun f f' => f' = f ∧ f = sec.selection) ⟨rfl, rfl⟩) ?_
    rintro _ _ ⟨rfl, rfl⟩
    exact .pure ⟨rfl, rfl⟩
  | ofArea a =>
    apply Relates.bind (findReach_veiled hplace)
    rintro _ reach ⟨rfl, hreach⟩
    refine .bind (.pure (R := fun f f' => f' = f ∧
      f = { a.selection with contexts := reach.1, items := reach.2 }) ⟨rfl, rfl⟩) ?_
    rintro _ _ ⟨rfl, rfl⟩
    refine .pure ⟨rfl, ?_⟩
    rw [Place.selection, hreach]
    rfl

section Accept

variable {a : Area} (ha : start.place = .ofArea a) {r : StoredComment}

include ha

/-- A row of a hidden section is left out. What is kept of the section tells no more. -/
theorem accept_hidden {l : Listing} (hplace : l.viewer = start.viewer)
    (h : start.Secluded hides site s t hidden hidden') (hkey : start.place.Holds r.key)
    (hhidden : hides r.key) (hknown : (Dictionary.find? l.sections r.key.unique).join = none)
    (u : Store) : ∃ sections, (accept site a r).look u l = (.ok false, { l with sections }) ∧
      (sections = l.sections ∨ sections = l.sections.insert r.key.unique none) := by
  have hsees := (h.conceals r.key hkey).1 hhidden
  rw [ha, ← hplace] at hsees
  rw [ha] at hkey
  cases hfind : Dictionary.find? l.sections r.key.unique with
  | some known =>
    rw [hfind] at hknown
    refine ⟨l.sections, ?_, .inl rfl⟩
    unfold accept
    rw [look_bind_of look_get, hfind]
    change (pure known.isSome : ListingM Bool).look u l = _
    rw [show known = none from hknown]
    rfl
  | none =>
    obtain ⟨known, hnone, hlook⟩ := look_accept_new hkey.1 hkey.2 hfind hsees
    rw [Option.isSome_eq_false_iff, Option.isNone_iff_eq_none] at hnone
    exact ⟨_, hnone ▸ hlook, .inr rfl⟩

theorem accept_shown (hkey : start.place.Holds r.key) (hshown : hides r.key = false) :
    Relates s t (Veiled hides s hidden hidden' start) Eq (accept site a r) (accept site a r) := by
  rw [ha] at hkey
  apply Relates.bind .get
  intro l k hl
  rw [(hl.sections a ha).shown r.key hkey hshown, hl.viewer, hl.viewer_eq]
  split
  · exact .pure rfl
  · apply Relates.bind (.sectionOf _ _)
    rintro _ sec ⟨rfl, -, hsec⟩
    have hown : sec.key = r.key := by
      rw [hsec, Area.withContext, Area.sectionKey, ← hkey.1, ← hkey.2]
    apply Relates.bind (.lift _)
    rintro allowed _ rfl
    refine .bind (.modify fun l k hl => hl.setSections ha ?_) fun _ _ _ => .pure rfl
    refine (hl.sections a ha).insert_shown hkey hshown ?_
    intro known hknown
    cases allowed with
    | false => cases hknown
    | true => rwa [← Option.some.inj hknown]

theorem accept_hidden_left {l k : Listing} (hl : Veiled hides s hidden hidden' start l k)
    (h : start.Secluded hides site s t hidden hidden') (hkey : start.place.Holds r.key)
    (hhidden : hides r.key) : ∃ l', (accept site a r).look s l = (.ok false, l') ∧
      Veiled hides s hidden hidden' start l' k := by
  have hkept := hl.sections a ha
  obtain ⟨sections, hlook, hsections⟩ := accept_hidden ha hl.viewer h hkey hhidden
    (hkept.hidden r.key (ha ▸ hkey) hhidden).1 s
  refine ⟨_, hlook, hl.setSections ha ?_⟩
  rcases hsections with rfl | rfl
  · exact hkept
  · exact hkept.insert_hidden (ha ▸ hkey) hhidden

theorem accept_hidden_right {l k : Listing} (hl : Veiled hides s hidden hidden' start l k)
    (h : start.Secluded hides site s t hidden hidden') (hkey : start.place.Holds r.key)
    (hhidden : hides r.key) : ∃ k', (accept site a r).look t k = (.ok false, k') ∧
      Veiled hides s hidden hidden' start l k' := by
  have hkept := hl.sections a ha
  obtain ⟨sections, hlook, hsections⟩ := accept_hidden ha hl.viewer_eq h hkey hhidden
    (hkept.hidden r.key (ha ▸ hkey) hhidden).2 t
  refine ⟨_, hlook, hl.setSections ha ?_⟩
  rcases hsections with rfl | rfl
  · exact hkept
  · exact (hkept.symm.insert_hidden (ha ▸ hkey) hhidden).symm

/-- The rows outside of hidden sections are accepted alike, whatever rows of hidden sections stand
between them. -/
theorem acceptAll_veiled (h : start.Secluded hides site s t hidden hidden')
    {rows rows' : List StoredComment} (hrows : Interleaved hides rows rows')
    (hstored : ∀ r ∈ rows, r ∈ s.comments ∧ start.place.Holds r.key)
    (hstored' : ∀ r ∈ rows', start.place.Holds r.key) :
    Relates s t (Veiled hides s hidden hidden' start)
      (fun cs cs' => cs' = cs ∧ ∀ c ∈ cs, start.place.Shows hides s c)
      (acceptAll site a rows) (acceptAll site a rows') := by
  induction hrows with
  | nil => exact .pure ⟨rfl, fun _ hc => nomatch hc⟩
  | @shown r rest rest' hr _ ih =>
    obtain ⟨⟨hmem, hkey⟩, hrest⟩ := List.forall_mem_cons.1 hstored
    have hall := ih hrest (List.forall_mem_cons.1 hstored').2
    apply Relates.bind (accept_shown ha hkey hr)
    rintro accepted _ rfl
    split
    · apply Relates.bind hall
      rintro _ cs ⟨rfl, hcs⟩
      exact .pure ⟨rfl, List.forall_mem_cons.2 ⟨⟨r, hmem, hkey, hr, rfl⟩, hcs⟩⟩
    · exact hall
  | left hr _ ih =>
    obtain ⟨⟨-, hkey⟩, hrest⟩ := List.forall_mem_cons.1 hstored
    exact .left (fun _ _ hl => accept_hidden_left ha hl h hkey hr) (ih hrest hstored')
  | right hr _ ih =>
    obtain ⟨hkey, hrest⟩ := List.forall_mem_cons.1 hstored'
    exact .right (fun _ _ hl => accept_hidden_right ha hl h hkey hr) (ih hstored hrest)

end Accept

theorem fetchRows_veiled (h : start.Secluded hides site s t hidden hidden') :
    Relates s t (Veiled hides s hidden hidden' start)
      (fun rows rows' => ∃ f, start.place.selection start.params start.viewer
          start.params.includeReplies = .ok f ∧
        rows = pageRows s f start.params ∧ rows' = pageRows t f start.params)
      fetchRows fetchRows := by
  apply Relates.bind .get
  intro l k hl
  rw [hl.params, hl.params_eq, h.many]
  apply Relates.bind (selection_veiled _)
  rintro _ f ⟨rfl, hf⟩
  apply Relates.store (c := .select f _ _)
  exact ⟨f, hf, rfl, rfl⟩

theorem pageRows_section {sec : Section} (hplace : start.place = .ofSection sec)
    (h : start.Secluded hides site s t hidden hidden') (hshown : hides sec.key = false)
    {f : Selection} {includeReplies : Bool}
    (hf : start.place.selection start.params start.viewer includeReplies = .ok f) :
    t.comments.filter f.covers = s.comments.filter f.covers := by
  apply h.same.filter_of_shown
  intro r hr
  have hkey := Place.holds_of_covers hf hr
  rw [hplace] at hkey
  rw [show r.key = sec.key from hkey, hshown]

theorem isVisible_veiled (site : Site) {l k : Listing}
    (hl : Veiled hides s hidden hidden' start l k) :
    k.isVisible site = start.isVisible site ∧ l.isVisible site = start.isVisible site := by
  unfold isVisible
  rw [hl.place_eq, hl.place, hl.viewer_eq, hl.viewer]
  exact ⟨rfl, rfl⟩

theorem Secluded.shown {sec : Section} (hplace : start.place = .ofSection sec)
    (h : start.Secluded hides site s t hidden hidden')
    (hvisible : start.isVisible site = .ok true) : hides sec.key = false := by
  rw [← Bool.not_eq_true, h.conceals sec.key (by rw [hplace]; rfl), hplace]
  unfold isVisible at hvisible
  rw [hplace] at hvisible
  change ¬ admits site start.viewer sec = .ok false
  rw [show admits site start.viewer sec = .ok true from hvisible]
  exact fun h => nomatch h

theorem fetch_veiled (h : start.Secluded hides site s t hidden hidden') :
    Relates s t (Veiled hides s hidden hidden' start)
      (fun cs cs' => cs' = cs ∧ ∀ c ∈ cs, start.place.Shows hides s c) (fetch site)
      (fetch site) := by
  apply Relates.bind .get
  intro l k hl
  obtain ⟨hk, hl'⟩ := isVisible_veiled site hl
  rw [hk, hl', hl.place, hl.place_eq]
  apply Relates.bind (.lift_of _)
  rintro _ visible ⟨rfl, hvisible⟩
  cases visible with
  | false => exact .pure ⟨rfl, fun _ hc => nomatch hc⟩
  | true =>
    rw [Bool.not_true, if_neg Bool.false_ne_true]
    apply Relates.bind (fetchRows_veiled h)
    rintro _ _ ⟨f, hf, rfl, rfl⟩
    have hrows (u : Store) : ∀ r ∈ pageRows u f start.params,
        r ∈ u.comments ∧ start.place.Holds r.key := by
      intro r hr
      obtain ⟨hmem, hcovers⟩ := Store.covers_of_mem_select hr
      exact ⟨hmem, Place.holds_of_covers hf hcovers⟩
    cases hplace : start.place with
    | ofSection sec =>
      have hshown := h.shown hplace hvisible
      have hsame : pageRows t f start.params = pageRows s f start.params := by
        unfold pageRows Store.select
        rw [pageRows_section hplace h hshown hf]
      rw [hsame]
      refine .pure ⟨rfl, fun c hc => ?_⟩
      obtain ⟨r, hr, rfl⟩ := List.mem_map.1 hc
      obtain ⟨hmem, hkey⟩ := hrows s r hr
      rw [hplace] at hkey
      exact ⟨r, hmem, hkey, by rw [show r.key = sec.key from hkey, hshown], rfl⟩
    | ofArea a =>
      have hinterleaved := interleaved_of_outside_eq (h.page a hplace f hf)
      have hall := acceptAll_veiled hplace h hinterleaved (hrows s) fun r hr => (hrows t r hr).2
      rw [hplace] at hall
      exact hall

theorem all_veiled (h : start.Secluded hides site s t hidden hidden') :
    Relates s t (Veiled hides s hidden hidden' start)
      (fun cs cs' => cs' = cs ∧ ∀ c ∈ cs, start.place.Shows hides s c) (all site) (all site) := by
  apply Relates.bind .get
  intro l k hl
  have hknown := hl.results
  rw [hl.results_eq]
  generalize l.results = results at hknown ⊢
  cases results with
  | some comments => exact .pure ⟨rfl, hknown comments rfl⟩
  | none =>
    apply Relates.bind (fetch_veiled h)
    rintro _ comments ⟨rfl, hcomments⟩
    refine .bind (.modify fun l k hl => ?_) fun _ _ _ => .pure ⟨rfl, hcomments⟩
    obtain ⟨sections, withReplies, topLevel, rfl⟩ := hl.same
    exact { hl with
      same := ⟨sections, withReplies, topLevel, rfl⟩
      results := fun found hfound => Option.some.inj hfound ▸ hcomments }

/-- The total counts the hidden rows of an area as well. -/
theorem countSelected_veiled (h : start.Secluded hides site s t hidden hidden')
    (hvisible : start.isVisible site = .ok true) {f : Selection}
    (hf : start.place.selection start.params start.viewer true = .ok f) :
    Apart hidden hidden' (s.countSelected f) (t.countSelected f) := by
  obtain ⟨hhidden, hhidden'⟩ := h.counted f hf
  cases hplace : start.place with
  | ofSection sec =>
    rw [hplace] at hhidden hhidden'
    refine ⟨s.countSelected f, by rw [← hhidden]; rfl, ?_⟩
    rw [← hhidden', Store.countSelected, Store.countSelected, List.countP_eq_length_filter,
      pageRows_section hplace h (h.shown hplace hvisible) hf, List.countP_eq_length_filter]
    rfl
  | ofArea a =>
    rw [hplace] at hhidden hhidden'
    refine ⟨(outside hides s.comments).countP f.covers, ?_, ?_⟩
    · rw [← hhidden, s.countSelected_eq hides]
      rfl
    · rw [← hhidden', t.countSelected_eq hides, h.same.comments]
      rfl

theorem countSelected_hidden (h : start.Secluded hides site s t hidden hidden')
    (hvisible : start.isVisible site = .ok false) : Apart hidden hidden' 0 0 := by
  unfold isVisible at hvisible
  cases hplace : start.place with
  | ofArea a =>
    rw [hplace] at hvisible
    cases hvisible
  | ofSection sec =>
    have hcounted := h.counted
    rw [hplace] at hcounted
    obtain ⟨hhidden, hhidden'⟩ := hcounted _ rfl
    exact ⟨0, by rw [← hhidden]; rfl, by rw [← hhidden']; rfl⟩

theorem countAllPages_veiled (h : start.Secluded hides site s t hidden hidden') :
    Relates s t (Veiled hides s hidden hidden' start) (Apart hidden hidden')
      (countAllPages site true) (countAllPages site true) := by
  apply Relates.bind .get
  intro l k hl
  obtain ⟨hk, hl'⟩ := isVisible_veiled site hl
  have htotals : Option.Rel _ (l.total? true) (k.total? true) := hl.totals
  rw [hl.params, hl.params_eq, h.many, hk, hl']
  generalize l.total? true = total at htotals ⊢
  generalize k.total? true = total' at htotals ⊢
  cases htotals with
  | some hn => exact .pure hn
  | none =>
    apply Relates.bind (.lift_of _)
    rintro _ visible ⟨rfl, hvisible⟩
    extract_lets rest
    have hrest (n n' : Nat) (hn : Apart hidden hidden' n n') :
        Relates s t (Veiled hides s hidden hidden' start) (Apart hidden hidden') (rest n)
          (rest n') := by
      refine .bind (.modify fun l k hl => ?_) fun _ _ _ => .pure hn
      obtain ⟨sections, withReplies, topLevel, rfl⟩ := hl.same
      exact { hl with same := ⟨sections, _, topLevel, rfl⟩, totals := .some hn }
    rw [Option.isSome_none, if_neg Bool.false_ne_true]
    cases visible with
    | true =>
      apply Relates.bind (selection_veiled true)
      rintro _ f ⟨rfl, hf⟩
      exact .bind (.store (c := .countSelected f) (R := Apart hidden hidden')
        (countSelected_veiled h hvisible hf)) hrest
    | false =>
      exact .bind (.pure (R := Apart hidden hidden') (countSelected_hidden h hvisible)) hrest

theorem person_veiled (h : start.Secluded hides site s t hidden hidden') (id : UserId) :
    Relates s t (Veiled hides s hidden hidden' start) Eq (person id) (person id) := by
  apply Relates.bind .get
  intro l k hl
  have hasked : k.peopleOfPage = l.peopleOfPage := by
    rw [peopleOfPage, hl.results_eq, ← peopleOfPage]
  rw [hl.people_eq, hasked]
  apply Relates.bind (.action (PeopleCache.look_get_congr h.same.people _ _ _))
  rintro p _ rfl
  refine .bind (.modify fun l k hl => ?_) fun _ _ _ => .pure rfl
  obtain ⟨sections, withReplies, topLevel, rfl⟩ := hl.same
  exact { hl with same := ⟨sections, withReplies, topLevel, rfl⟩ }

theorem peopleOf_veiled (h : start.Secluded hides site s t hidden hidden') (c : Comment) :
    Relates s t (Veiled hides s hidden hidden' start) Eq (peopleOf c) (peopleOf c) := by
  apply Relates.bind (person_veiled h _)
  rintro author _ rfl
  apply Relates.bind (person_veiled h _)
  rintro modifier _ rfl
  exact .pure rfl

theorem sectionOf_veiled {l k : Listing} (hl : Veiled hides s hidden hidden' start l k)
    {c : Comment} (hc : start.place.Shows hides s c) :
    k.sectionOf c.key = l.sectionOf c.key ∧ ∀ sec, l.sectionOf c.key = some sec →
      sec.key = c.key := by
  obtain ⟨r, -, hkey, hshown, rfl⟩ := hc
  unfold sectionOf
  rw [hl.place, hl.place_eq]
  cases hplace : start.place with
  | ofSection sec =>
    refine ⟨rfl, fun found hfound => ?_⟩
    obtain ⟨hsame, hfound⟩ := Option.ite_none_right_eq_some.1 hfound
    rwa [← Option.some.inj hfound]
  | ofArea a =>
    rw [hplace] at hkey
    have hkept := hl.sections a hplace
    refine ⟨congrArg Option.join (hkept.shown r.key hkey hshown), fun found hfound => ?_⟩
    exact hkept.own r.key hkey hshown found (Option.join_eq_some_iff.1 hfound)

theorem viewComment_veiled (h : start.Secluded hides site s t hidden hidden')
    (user : Option UserId) {c : Comment} (hc : start.place.Shows hides s c) :
    Relates s t (Veiled hides s hidden hidden' start) Eq (viewComment site user c)
      (viewComment site user c) := by
  apply Relates.bind .get
  intro l k hl
  obtain ⟨hsame, hown⟩ := sectionOf_veiled hl hc
  rw [hsame]
  split
  · exact .pure rfl
  next sec hsec =>
    obtain ⟨r, hr, hkey, hshown, rfl⟩ := hc
    have hshown' : hides sec.key = false := by rw [hown sec hsec]; exact hshown
    apply Relates.bind (.lift _)
    rintro cap _ rfl
    apply Relates.bind (peopleOf_veiled h _)
    rintro people _ rfl
    have hview : (sec.viewComment (.ofStored r) cap people).look t =
        (sec.viewComment (.ofStored r) cap people).look s :=
      sec.look_viewComment_congr (h.same.upvoted r hr hshown)
        (fun user => by rw [h.same.statusIn hshown']) people
    apply Relates.bind (.action hview)
    rintro view _ rfl
    exact .pure rfl

theorem pageSections_veiled {l k : Listing} (hl : Veiled hides s hidden hidden' start l k) :
    k.pageSections = l.pageSections ∧ ∀ sec ∈ l.pageSections,
      start.place = .ofSection sec ∨ hides sec.key = false := by
  unfold pageSections boundSection?
  rw [hl.place, hl.place_eq]
  cases hplace : start.place with
  | ofSection sec => exact ⟨rfl, fun own hown => .inl (by rw [List.mem_singleton.1 hown])⟩
  | ofArea a =>
    have hresults : ∀ c ∈ l.results.getD [], start.place.Shows hides s c := by
      cases hfound : l.results with
      | none => exact fun _ hc => nomatch hc
      | some comments => exact hl.results comments hfound
    constructor
    · change foundSections.go [] _ = foundSections.go [] _
      rw [hl.results_eq]
      congr 1
      exact List.filterMap_congr fun c hc => (sectionOf_veiled hl (hresults c hc)).1
    · intro sec hsec
      obtain ⟨c, hc, hfound⟩ := List.mem_filterMap.1 (mem_foundSections_go hsec)
      have hown := (sectionOf_veiled hl (hresults c hc)).2 sec hfound
      obtain ⟨r, -, -, hshown, rfl⟩ := hresults c hc
      exact .inr (by rw [hown]; exact hshown)

theorem look_viewSection {user : Option UserId} {sec : Section}
    (h : ∀ cap, sec.capability site user = .ok cap → ∀ own, cap.user = some own →
      t.choice? own sec.key none = s.choice? own sec.key none) :
    (viewSection site user sec).look t = (viewSection site user sec).look s := by
  rw [viewSection, Action.look_bind, Action.look_bind]
  cases hcap : sec.capability site user with
  | error e => rfl
  | ok cap =>
    change (sec.view cap).look t = (sec.view cap).look s
    have hhearing : (sec.hearing cap.user none).look t = (sec.hearing cap.user none).look s := by
      rw [sec.look_hearing, sec.look_hearing]
      cases hown : cap.user with
      | none => rfl
      | some own =>
        have hchoice := h cap hcap own hown
        have hstatus : sec.statusIn t own none = sec.statusIn s own none := by
          unfold Section.statusIn
          rw [hchoice]
          rfl
        change Except.ok (Hearing.mk (sec.statusIn t own none) _) =
          Except.ok (Hearing.mk (sec.statusIn s own none) _)
        rw [hstatus]
    rw [Section.view, Action.look_bind, Action.look_bind, hhearing]
    rfl

/-- The pages are the same but for their totals. -/
theorem toPage_veiled (h : start.Secluded hides site s t hidden hidden') {user : Option UserId}
    (hown : ∀ sec, start.place = .ofSection sec → ∀ cap, sec.capability site user = .ok cap →
      ∀ own, cap.user = some own → t.choice? own sec.key none = s.choice? own sec.key none) :
    Relates s t (Veiled hides s hidden hidden' start)
      (fun p p' => ∃ shown : CommentPage, p = shown.addTotal hidden ∧ p' = shown.addTotal hidden')
      (toPage site user) (toPage site user) := by
  apply Relates.bind (all_veiled h)
  rintro _ comments ⟨rfl, hcomments⟩
  apply Relates.bind (countAllPages_veiled h)
  rintro _ _ ⟨shown, rfl, rfl⟩
  have hviews : List.Forall₂ (fun c d => d = c ∧ start.place.Shows hides s c) comments comments :=
    List.forall₂_same.2 fun c hc => ⟨rfl, hcomments c hc⟩
  refine .bind (.filterMapM (fun c d hd => ?_) hviews) ?_
  · rw [hd.1]
    exact viewComment_veiled h user hd.2
  rintro views _ rfl
  apply Relates.bind .get
  intro l k hl
  obtain ⟨hsections, hshown⟩ := pageSections_veiled hl
  rw [hsections, boundSection?, boundSection?, hl.place, hl.place_eq, hl.params, hl.params_eq]
  refine .bind (.mapM fun sec hsec => .action (look_viewSection fun cap hcap own hcapown => ?_)) ?_
  · rcases hshown sec hsec with hplace | hsec
    · exact hown sec hplace cap hcap own hcapown
    · exact h.same.choices sec.key hsec own none
  · rintro sections _ rfl
    exact .pure ⟨{
      comments := views
      total := shown
      sections
      pageSize := start.params.pageSize
      mayPost := _ }, rfl, rfl⟩

end Listing

end Discussion
