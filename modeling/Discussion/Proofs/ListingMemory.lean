import Discussion.Proofs.ListingSteps

namespace Discussion

namespace Listing

open ListingM

/-- A call on a listing, whose answer is given out. -/
inductive Probe where
  | all
  | first
  | count
  | total (includeReplies : Bool)
  | person (id : UserId)

abbrev Probe.Answer : Probe → Type
  | .all => List Comment
  | .first => Option Comment
  | .count | .total _ => Nat
  | .person _ => Option Person

def Probe.ask (site : Site) : (p : Probe) → ListingM p.Answer
  | .all => Listing.all site
  | .first => Listing.first site
  | .count => Listing.count site
  | .total includeReplies => countAllPages site includeReplies
  | .person id => Listing.person id

/-- The call fetches the page. -/
def Probe.fetches : Probe → Bool
  | .all | .first => true
  | .count | .total _ | .person _ => false

/-- What has become of a call. -/
structure Reply where
  probe : Probe
  result : Except Error probe.Answer

/-- The reply gives out the page or the first comment there. -/
def Reply.isPage (r : Reply) : Bool :=
  r.probe.fetches && r.result.toBool

def Probe.reply (site : Site) (p : Probe) : StateT Listing Program Reply := fun l => do
  let (result, l) ← (p.ask site).run.run l
  return (⟨p, result⟩, l)

/-- Makes calls on a listing one after another, whatever becomes of those before. -/
def converse (site : Site) (probes : List Probe) : StateT Listing Program (List Reply) :=
  probes.mapM (Probe.reply site)

/-- The reply, if it is no error, is that of a new listing where no call fails. But a listing that has
given out its page counts the comments there. -/
def Reply.IsFresh (w : World) (site : Site) (start : Listing) (given : Bool) : Reply → Prop
  | ⟨.count, .ok n⟩ =>
    if given then ∃ cs, ((Listing.all site).eval start).Answers w cs ∧ n = cs.length
    else ((Listing.count site).eval start).Answers w n
  | ⟨p, .ok a⟩ => ((p.ask site).eval start).Answers w a
  | ⟨_, .error _⟩ => True

/-- What the replies of a listing have in common with those of new ones. -/
structure Transparent (w : World) (site : Site) (start : Listing) (replies : List Reply)
    (l : Listing) : Prop where
  fresh : ∀ before reply after, replies = before ++ reply :: after →
    reply.IsFresh w site start (before.any (·.isPage))
  sections : replies.any (·.isPage) → ∃ cs fresh,
    ((all site).run.run start).run Faults.never () w = ((.ok cs, fresh), (), w) ∧
      l.foundSections = fresh.foundSections ∧ ∀ key, l.sectionOf key = fresh.sectionOf key

/-- Where a listing stands that has given out its page or not. -/
structure Stands (start : Listing) (site : Site) (s : Store) (given : Bool) (l : Listing) : Prop where
  remembers : start.Remembers site s l
  fetched : given → l.results.isSome
  withheld : l.results.isSome → given ∨ start.params.comment.isSome

variable {site : Site} {w : World} {s : Store} {place : Place} {params : ListingQuery}
variable {viewer : Viewer} {start l k : Listing} {given : Bool}

theorem stands_start : Stands { place, params, viewer } site s false { place, params, viewer } where
  remembers := remembers_start place params viewer
  fetched := fun h => nomatch h
  withheld := fun h => nomatch h

theorem Stands.endures (h : start.Stands site s given l) (hk : start.Endures site s l k) :
    start.Stands site s given k where
  remembers := hk.remembers
  fetched := fun hf => hk.results ▸ h.fetched hf
  withheld := fun hresults => h.withheld (hk.results ▸ hresults)

theorem Stands.retains (h : start.Stands site s given l) (hk : start.Retains site s l k) :
    start.Stands site s given k where
  remembers := hk.remembers
  fetched := fun hf => hk.results.elim (fun hsame => hsame ▸ h.fetched hf) (·.2)
  withheld := fun hresults =>
    hk.results.elim (fun hsame => h.withheld (hsame ▸ hresults)) fun hone => .inr hone.1

theorem stands_of_results (h : start.Remembers site s l) {cs : List Comment}
    (hcs : l.results = some cs) : start.Stands site s true l :=
  ⟨h, fun _ => Option.isSome_of_eq_some hcs, fun _ => .inl rfl⟩

section Sections

variable (hl : start.Remembers site s l) (hresults : l.results.isSome)

include hl hresults

/-- A listing of an area that has its comments has looked at the sections of its rows and no others. -/
theorem Remembers.hasMet_iff {a : Area} (ha : start.place = .ofArea a) {text : String} :
    l.HasMet text ↔ ∃ rows, start.place.rows s start.params start.viewer = .ok rows ∧
      ∃ r ∈ rows, r.key.unique = text := by
  refine ⟨hl.confined text, ?_⟩
  rintro ⟨rows, hrows, r, hr, rfl⟩
  exact hl.complete hresults a ha rows hrows r hr

theorem Remembers.sectionOf_eq (hk : start.Remembers site s k) (hresults' : k.results.isSome)
    (key : SectionKey) : l.sectionOf key = k.sectionOf key := by
  unfold sectionOf
  rw [hl.place, hk.place]
  split
  next => rfl
  next a ha =>
    refine congrArg Option.join ?_
    by_cases hmet : l.HasMet key.unique
    · obtain ⟨rows, hrows, r, hr, hsame⟩ := hl.confined _ hmet
      have hkey := (Place.rows_inv hrows hr).2
      rw [ha] at hkey
      have hmet' : k.HasMet key.unique :=
        (hk.hasMet_iff hresults' ha).2 ⟨rows, hrows, r, hr, hsame⟩
      obtain ⟨known, hknown⟩ := Option.isSome_iff_exists.1 hmet
      obtain ⟨known', hknown'⟩ := Option.isSome_iff_exists.1 hmet'
      rw [← hsame] at hknown hknown' ⊢
      obtain ⟨sec, seen, hlocate, hadmits, rfl⟩ := hl.sections a ha r.key hkey known hknown
      obtain ⟨sec', seen', hlocate', hadmits', rfl⟩ := hk.sections a ha r.key hkey known' hknown'
      obtain rfl := Except.ok.inj (hlocate.symm.trans hlocate')
      obtain rfl := Except.ok.inj (hadmits.symm.trans hadmits')
      rw [hknown, hknown']
    · have hmet' : ¬k.HasMet key.unique := fun h =>
        hmet ((hl.hasMet_iff hresults ha).2 ((hk.hasMet_iff hresults' ha).1 h))
      rw [Option.not_isSome_iff_eq_none.1 hmet, Option.not_isSome_iff_eq_none.1 hmet']

end Sections

theorem Stands.exists_fresh (h : Stands { place, params, viewer } site w.store true l) :
    ∃ cs fresh, ((all site).run.run { place, params, viewer }).run Faults.never () w =
      ((.ok cs, fresh), (), w) ∧ l.foundSections = fresh.foundSections ∧
        ∀ key, l.sectionOf key = fresh.sectionOf key := by
  have hl := h.remembers
  obtain ⟨cs, hcs⟩ := Option.isSome_iff_exists.1 (h.fetched rfl)
  obtain ⟨fresh, hlook⟩ := (hl.results cs hcs).1.look_all
  obtain ⟨hfresh, hcs'⟩ :=
    (all_endures (remembers_start place params viewer)).of_look (all_asks site) hlook
  have hsections := hl.sectionOf_eq (h.fetched rfl) hfresh (Option.isSome_of_eq_some hcs')
  refine ⟨cs, fresh, ?_, ?_, hsections⟩
  · rw [Program.Reads.run_never ((all_asks site).reads _)]
    exact congrArg (·, (), w) hlook
  · unfold foundSections
    rw [hcs, hcs', funext hsections]

theorem first_asks (site : Site) : (first site).Asks :=
  .bind (all_asks site) fun _ => .pure _

theorem answers_first {cs : List Comment} (h : Gathers { place, params, viewer } site w.store cs) :
    ((first site).eval { place, params, viewer }).Answers w cs.head? := by
  obtain ⟨fresh, hlook⟩ := h.look_all
  rw [(first_asks site).answers_iff, first, look_bind_of hlook]
  rfl

theorem answers_person (id : UserId) :
    ((person id).eval { place, params, viewer }).Answers w (w.store.person? id) := by
  obtain ⟨people, -, hlook⟩ :=
    look_person (l := { place, params, viewer }) (s := w.store) PeopleCache.trueTo_empty id
  rw [(person_asks id).answers_iff, hlook]

/-- What a call leads to, whichever of the calls it makes fail. -/
def Probe.Proceeds (p : Probe) (w : World) (site : Site) (start : Listing) (given : Bool)
    (l : Listing) : Prop :=
  ((p.reply site).run l).Ends (fun _ => True) w fun r _ w' =>
    w' = w ∧ r.1.probe = p ∧ r.1.IsFresh w site start given ∧
      start.Stands site w.store (given || r.1.isPage) r.2

theorem Probe.proceeds_of {p : Probe} {C : Call → Prop} {Q : p.Answer → Listing → Prop}
    (h : start.Stands site w.store given l)
    (hp : (p.ask site).Leads C w (start.Endures site w.store l) l Q)
    (hQ : ∀ a l', Q a l' → Reply.IsFresh w site start given ⟨p, .ok a⟩ ∧
      start.Stands site w.store (given || p.fetches) l') :
    p.Proceeds w site start given l := by
  change Program.Ends _ ((p.ask site).run.run l >>= fun r =>
    .done ((⟨p, r.1⟩, r.2) : Reply × Listing)) w _
  rw [Program.ends_bind]
  apply Program.Ends.mono hp
  rintro ⟨r, l'⟩ calls w' ⟨rfl, -, hr⟩
  refine ⟨rfl, rfl, ?_⟩
  cases r with
  | ok a =>
    have hpage : Reply.isPage ⟨p, .ok a⟩ = p.fetches := Bool.and_true _
    rw [hpage]
    exact hQ a l' hr
  | error e =>
    have hpage : Reply.isPage ⟨p, .error e⟩ = false := Bool.and_false _
    rw [hpage, Bool.or_false]
    refine ⟨?_, h.endures hr⟩
    cases p <;> trivial

/-- One call: an answer is that of a new listing, and a failure leaves nothing wrong behind. -/
theorem Probe.proceeds (h : Stands { place, params, viewer } site w.store given l) (p : Probe) :
    p.Proceeds w site { place, params, viewer } given l := by
  have hl := h.remembers
  have hall := (all_endures hl).and_settles (all_asks site) (all_settles hl.toSurveyed .trivial)
  cases p with
  | all =>
    refine proceeds_of h hall ?_
    rintro cs l' ⟨⟨hl', hcs⟩, hgathers, -⟩
    rw [fetches, Bool.or_true]
    exact ⟨answers_all_iff.2 hgathers, stands_of_results hl' hcs⟩
  | first =>
    refine proceeds_of h (C := Call.AsksNobody) (Q := fun c l' => ∃ cs, c = cs.head? ∧
      Gathers { place, params, viewer } site w.store cs ∧
        Stands { place, params, viewer } site w.store true l') ?_ ?_
    · apply Leads.bind hall
      rintro cs l' ⟨⟨hl', hcs⟩, hgathers, -⟩
      exact .pure ⟨cs, rfl, hgathers, stands_of_results hl' hcs⟩
    · rintro _ l' ⟨cs, rfl, hgathers, hl'⟩
      rw [fetches, Bool.or_true]
      exact ⟨answers_first hgathers, hl'⟩
  | count =>
    refine proceeds_of h ((count_retains hl).and_settles (count_asks site)
      (count_settles hl.toSurveyed .trivial)) ?_
    rintro n l' ⟨⟨hl', hlength⟩, hremains, -⟩
    rw [fetches, Bool.or_false]
    refine ⟨?_, h.retains hl'⟩
    change if given then _ else _
    split
    next hgiven =>
      obtain ⟨cs, hcs⟩ := Option.isSome_iff_exists.1 (h.fetched hgiven)
      exact ⟨cs, answers_all_iff.2 (hl.results cs hcs).1, hlength cs hcs⟩
    next hwithheld =>
      rw [answers_count_iff]
      cases hresults : l.results with
      | none => exact hremains hresults
      | some cs =>
        -- The page can only be there as the listing is about one comment.
        have hone : params.comment.isSome :=
          (h.withheld (Option.isSome_of_eq_some hresults)).resolve_left hwithheld
        refine ⟨n, ?_, (if_pos hone).symm⟩
        rw [hlength cs hresults]
        obtain ⟨id, hid⟩ := Option.isSome_iff_exists.1 hone
        unfold Totals
        dsimp only
        rw [hid]
        exact ⟨cs, (hl.results cs hresults).1, rfl⟩
  | total includeReplies =>
    refine proceeds_of h ((countAllPages_retains hl includeReplies).and_settles
      (countAllPages_asks site includeReplies)
        (countAllPages_settles hl.toSurveyed .trivial includeReplies)) ?_
    rintro n l' ⟨hl', htotals, -⟩
    rw [fetches, Bool.or_false]
    exact ⟨answers_countAllPages_iff.2 htotals, h.retains hl'⟩
  | person id =>
    refine proceeds_of h (person_endures hl id) ?_
    rintro _ l' ⟨rfl, hl'⟩
    rw [fetches, Bool.or_false]
    exact ⟨answers_person id, h.endures hl'⟩

theorem converse_ends (h : Stands { place, params, viewer } site w.store given l)
    (probes : List Probe) :
    ((converse site probes).run l).Ends (fun _ => True) w fun r _ w' =>
      w' = w ∧ r.1.map (·.probe) = probes ∧
        (∀ before reply after, r.1 = before ++ reply :: after →
          reply.IsFresh w site { place, params, viewer } (given || before.any (·.isPage))) ∧
        Stands { place, params, viewer } site w.store (given || r.1.any (·.isPage)) r.2 := by
  -- By induction on the calls: where one leaves the listing, the next ones begin.
  induction probes generalizing given l with
  | nil =>
    refine ⟨rfl, rfl, fun before reply after hsplit => ?_, ?_⟩
    · cases before <;> cases hsplit
    · exact (Bool.or_false given).symm ▸ h
  | cons p probes ih =>
    rw [converse, List.mapM_cons]
    change Program.Ends _ ((p.reply site).run l >>= fun r =>
      (converse site probes).run r.2 >>= fun rs => .done (r.1 :: rs.1, rs.2)) w _
    rw [Program.ends_bind]
    apply (p.proceeds h).mono
    rintro ⟨reply, l'⟩ calls _ ⟨rfl, hp, hreply, hl'⟩
    rw [Program.ends_bind]
    apply (ih hl').mono
    rintro ⟨replies, l''⟩ calls' _ ⟨rfl, hprobes, hreplies, hl''⟩
    refine ⟨rfl, ?_, fun before next after hsplit => ?_, ?_⟩
    · rw [List.map_cons, hp, hprobes]
    · cases before with
      | nil =>
        obtain ⟨rfl, -⟩ := List.cons.inj hsplit
        rw [List.any_nil, Bool.or_false]
        exact hreply
      | cons head before =>
        obtain ⟨rfl, hrest⟩ := List.cons.inj hsplit
        rw [List.any_cons, ← Bool.or_assoc]
        exact hreplies before next after hrest
    · rw [List.any_cons, ← Bool.or_assoc]
      exact hl''

/-- Nobody can tell from the replies of a listing that it keeps what it has found out, whichever calls
fail: every answer is that of a new listing where none fails, but for the count of a page that has been
given out. The sections it has found by then are those that a new listing finds with its page. -/
theorem converse_transparent {σ : Type} (faults : Faults σ) (state : σ) (w : World) (site : Site)
    (place : Place) (params : ListingQuery) (viewer : Viewer) (probes : List Probe) :
    let r := ((converse site probes).run { place, params, viewer }).run faults state w
    r.2.2 = w ∧ r.1.1.map (·.probe) = probes ∧
      Transparent w site { place, params, viewer } r.1.1 r.1.2 := by
  intro r
  obtain ⟨hw, hprobes, hfresh, hstands⟩ :=
    (converse_ends stands_start probes).run_any faults state
  rw [Bool.false_or] at hstands
  refine ⟨hw, hprobes, ?_, fun hpage => ?_⟩
  · intro before reply after hsplit
    have hreply := hfresh before reply after hsplit
    rwa [Bool.false_or] at hreply
  · rw [hpage] at hstands
    exact hstands.exists_fresh

/-- The section of the comment is not found at first. The count then fetches the page. -/
example :
    let site : Site := { permissions := fun _ _ _ => false, settings := {}, now := ⟨0, 0⟩ }
    let start : Listing :=
      { place := .ofArea secretPage, params := { comment := some 1 }, viewer := .trusted }
    let faults : Faults Nat := fun n _ => (if n = 2 then some "down" else none, n + 1)
    let r := ((converse site [.all, .count, .first]).run start).run faults 0 fourComments
    (r.1.1.map fun reply => reply.result.toBool) = [false, true, true] ∧
      r.1.2.results.map List.length = some 1 := by decide +kernel

end Listing

end Discussion
