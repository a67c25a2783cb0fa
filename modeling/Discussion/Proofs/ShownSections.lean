import Discussion.Proofs.AreaPages

namespace Discussion

variable {s : Store} {w : World} {user : Option UserId} {σ : Type}

/-- The section that a request is bound to: that of its comment or its item. A request for a whole
area is bound to none. -/
def ListRequest.boundTo (req : ListRequest) (s : Store) : Option SectionKey :=
  match req.comment with
  | some id => (s.comment? id).map (·.key)
  | none =>
    match req.component, req.area, req.context, req.item with
    | some component, some area, some context, some item => some ⟨component, area, context, item⟩
    | _, _, _, _ => none

/-- The section with the key that a place is bound to. -/
def Place.bound? : Place → Option SectionKey
  | .ofSection sec => some sec.key
  | .ofArea _ => none

namespace Forum

variable {f : Forum} {req : ListRequest} {params : ListingQuery} {place : Place} {key : SectionKey}

theorem Opens.boundTo_eq (h : f.Opens s req place) : req.boundTo s = place.bound? := by
  unfold Opens at h
  unfold ListRequest.boundTo
  cases hcomment : req.comment with
  | some id =>
    rw [hcomment] at h
    obtain ⟨row, sec, hrow, hsec, rfl⟩ := h
    dsimp only
    rw [hrow, Place.bound?, (f.sectionOf_reads row.key).look hsec]
    rfl
  | none =>
    rw [hcomment] at h
    change f.place req = .ok place at h
    unfold Forum.place at h
    split at h
    next component name context hcomponent hname hcontext =>
      obtain ⟨a, ha, h⟩ := exists_of_bind_eq_ok h
      rw [hcomponent, hname, hcontext]
      cases hitem : req.item with
      | none =>
        rw [hitem] at h
        obtain rfl := Except.ok.inj h
        rfl
      | some item =>
        rw [hitem] at h
        obtain ⟨host, -, h⟩ := exists_of_bind_eq_ok h
        obtain rfl := Except.ok.inj h
        exact congrArg some (area_key ha item).symm
    next => cases h

/-- What a page shows belongs to sections that the user sees, but for the section itself that the
request is bound to: it is shown to everybody, without comments where the user does not see it. -/
theorem list_discreet {faults : Faults σ} {state : σ} {page : CommentPage}
    (h : ((f.list user req).run.run faults state w).1 = .ok page) :
    (∀ v ∈ page.comments, f.sees user v.key = .ok true) ∧
    ((∀ v ∈ page.sections, f.sees user v.key = .ok true) ↔
      ∀ key ∈ req.boundTo w.store, f.sees user key = .ok true) ∧
    ∀ key ∈ req.boundTo w.store, f.sees user key ≠ .ok true →
      page.comments = [] ∧ page.total = 0 ∧ page.sections.map (·.key) = [key] := by
  have hlook : (f.list user req).look w.store = .ok page := by
    rcases (f.list_asks user req).run faults state w with hlook | ⟨failure, hfailure⟩
    · exact hlook.symm.trans h
    · cases hfailure.symm.trans h
  obtain ⟨params, place, cs, -, hopens, hpaged⟩ := list_settled hlook
  have hkeys := hpaged.map_key
  have hheaded := hpaged.map_key_sections
  have hseen := hopens.sees_of_gathers hpaged.gathered
  have hsections : (∀ v ∈ page.sections, f.sees user v.key = .ok true) ↔
      ∀ key ∈ place.headed cs, f.sees user key = .ok true := by
    rw [← hheaded, List.forall_mem_map]
  rw [hopens.boundTo_eq, hsections]
  refine ⟨fun v hv => ?_, ?_⟩
  · have hkey : v.key ∈ cs.map (·.key) := hkeys ▸ List.mem_map_of_mem hv
    obtain ⟨c, hc, hsame⟩ := List.mem_map.1 hkey
    exact hsame ▸ hseen c hc
  · cases place with
    | ofArea a =>
      refine ⟨⟨fun _ _ hkey => (nomatch hkey), fun _ key hkey => ?_⟩, fun _ hkey => nomatch hkey⟩
      obtain ⟨c, hc, rfl⟩ := List.mem_map.1 (List.mem_eraseDups.1 hkey)
      exact hseen c hc
    | ofSection sec =>
      refine ⟨?_, ?_⟩
      · change (∀ key ∈ [sec.key], _) ↔ ∀ key ∈ some sec.key, _
        rw [List.forall_mem_singleton]
        exact ⟨fun hsees _ hkey => Option.some.inj hkey ▸ hsees, fun hsees => hsees _ rfl⟩
      · rintro _ ⟨⟩ hunseen
        obtain ⟨v, rest, ⟨_, cap, hlocate, hcap, -⟩, -, -⟩ :=
          List.forall₂_cons_left_iff.1 hpaged.sections
        obtain rfl := Except.ok.inj hlocate
        have hsees : Listing.admits f.site (.ofUser user) sec = .ok cap.mayView := by
          rw [Listing.admits_ofUser, hcap]
          rfl
        rw [← hopens.sees rfl] at hunseen
        have hhidden : cap.mayView = false :=
          Bool.eq_false_iff.2 fun hview => hunseen (hview ▸ hsees)
        rw [hhidden] at hsees
        have hvisible : Listing.isVisible f.site
            { place := .ofSection sec, params, viewer := .ofUser user } = .ok false := hsees
        obtain rfl := Listing.gathers_unseen hvisible hpaged.gathered
        exact ⟨List.map_eq_nil_iff.1 hkeys, Listing.totals_unseen hvisible hpaged.total, hheaded⟩

/-- Asks for the comments of the page in the third context, which nobody may view. -/
def thirdTerrace : ListRequest where
  component := some "wiki"
  area := some "talk"
  context := some 3
  item := some 1

theorem list_discreet_terraced :
    ∃ page, terraced.listed none thirdTerrace (annex [3]) = .ok page ∧
      page.comments = [] ∧ page.total = 0 ∧ page.sections.map (·.key) = [⟨"wiki", "talk", 3, 1⟩] := by
  have hsees : terraced.sees none ⟨"wiki", "talk", 3, 1⟩ ≠ .ok true := by decide
  have hanswered : (terraced.listed none thirdTerrace (annex [3])).toOption.isSome := by cbv
  cases hlisted : terraced.listed none thirdTerrace (annex [3]) with
  | error e =>
    rw [hlisted] at hanswered
    cases hanswered
  | ok page => exact ⟨page, rfl, (list_discreet hlisted).2.2 _ rfl hsees⟩

/-- The hidden section itself is shown, to a request for its item and to one for a comment of it,
while it is left out of the sections that the guest is told of. -/
theorem list_indiscreet_terraced :
    let hidden : SectionKey := ⟨"wiki", "talk", 3, 1⟩
    let shown (req : ListRequest) : Option (List SectionKey) :=
      ((terraced.listed none req (annex [3])).map fun page => page.sections.map (·.key)).toOption
    terraced.sees none hidden = .ok false ∧ shown thirdTerrace = some [hidden] ∧
      shown { comment := some 3 } = some [hidden] ∧
      (((terraced.sectionViews none ⟨"wiki", "talk", 3, some 1⟩).run.run Faults.never ()
        (annex [3])).1.map (·.length)).toOption = some 0 := by
  refine ⟨by decide, ?_, ?_, ?_⟩ <;> cbv

end Forum

end Discussion
