import Discussion.Proofs.Look
import Discussion.Proofs.NoOrphans
import Discussion.Proofs.Sorting

namespace Discussion

variable {s : Store} {w : World} {f : Selection} {p : SectionKey → Bool}
variable {rows : List StoredComment} {order : SortOrder}

def Vote.isFor (v : Vote) (r : StoredComment) : Bool :=
  v.comment == r.id

/-- The choice is for the comment, not for the section as a whole. -/
def Choice.isFor (c : Choice) (r : StoredComment) : Bool :=
  c.comment != 0 && c.comment == r.id && c.key == r.key

namespace Store

/-- What stays when rows go, with the votes for them and with some choices. -/
def remainder (s : Store) (rows : List StoredComment) (unchosen : Choice → Bool) : Store :=
  { s with
    comments := s.comments.filter fun r => !rows.contains r
    votes := s.votes.filter fun v => !rows.any v.isFor
    choices := s.choices.filter fun c => !unchosen c }

theorem remainder_congr {unchosen unchosen' : Choice → Bool}
    (h : ∀ c ∈ s.choices, unchosen c = unchosen' c) :
    s.remainder rows unchosen = s.remainder rows unchosen' := by
  unfold remainder
  rw [List.filter_congr fun c hc => congrArg not (h c hc)]

theorem anyWithId_eq {q : StoredComment → Bool} (hrows : rows.Perm (s.comments.filter q)) :
    s.anyWithId q = fun id => rows.any (id == ·.id) := by
  funext id
  rw [hrows.any_eq, List.any_filter, anyWithId]
  exact congrArg s.comments.any (funext fun r => by rw [BEq.comm])

theorem drop_eq_remainder {q : StoredComment → Bool} (hrows : rows.Perm (s.comments.filter q))
    (unchosen : Choice → Bool) :
    ((s.dropVotes (s.anyWithId q)).dropChoices unchosen).dropComments q =
      s.remainder rows unchosen := by
  have hcontains : ∀ r ∈ s.comments, rows.contains r = q r := by
    intro r hr
    rw [Bool.eq_iff_iff, List.contains_iff_mem, hrows.mem_iff, List.mem_filter, and_iff_right hr]
  refine Store.ext ?_ rfl ?_ rfl rfl
  · exact List.filter_congr fun r hr => congrArg not (hcontains r hr).symm
  · rw [anyWithId_eq hrows]
    rfl

theorem removeSections_eq_remainder (hrows : rows.Perm (s.comments.filter (p ·.key))) :
    s.removeSections p = (rows.length, s.remainder rows (p ·.key)) := by
  rw [removeSections, drop_eq_remainder hrows, List.countP_eq_length_filter, hrows.length_eq]

/-- Of the choices for comments just those for removed rows go, as each is for a stored comment in
its own section. -/
theorem Tied.isFor_eq (h : s.Tied) {q : StoredComment → Bool}
    (hrows : rows.Perm (s.comments.filter q)) {c : Choice} (hc : c ∈ s.choices) :
    s.anyWithId q c.comment = rows.any c.isFor := by
  rw [anyWithId_eq hrows, Bool.eq_iff_iff, List.any_eq_true, List.any_eq_true]
  refine exists_congr fun r => and_congr_right fun hr => ?_
  have hstored := List.mem_of_mem_filter (hrows.mem_iff.1 hr)
  rw [Choice.isFor, Bool.and_eq_true, Bool.and_eq_true, bne_iff_ne, beq_iff_eq, beq_iff_eq]
  constructor
  · intro hid
    have hpos := (h.issued _ (mem_identities hstored)).1
    have hne : c.comment ≠ 0 := by
      rw [hid]
      exact Int.ne_of_gt hpos
    obtain ⟨k, hk, hkid, hkey⟩ := h.choices c hc hne
    obtain ⟨d, hd, rfl⟩ := List.mem_map.1 hk
    have hsame : d = r := List.inj_on_of_nodup_map h.toNumbered.nodup_ids hd hstored (hkid.trans hid)
    exact ⟨⟨hne, hid⟩, hkey ▸ hsame ▸ rfl⟩
  · exact fun hfor => hfor.1.2

theorem Tied.removeSelected_eq_remainder (h : s.Tied) (hf : f.isWholeSections = false)
    (order : SortOrder) : s.removeSelected f = ((s.select f order none).length,
      s.remainder (s.select f order none) fun c => (s.select f order none).any c.isFor) := by
  have hrows := s.select_perm f order
  rw [removeSelected, drop_eq_remainder hrows, length_select, hf]
  refine congrArg _ (remainder_congr fun c hc => ?_)
  exact h.isFor_eq hrows hc

theorem remainder_nil {unchosen : Choice → Bool} (h : ∀ c ∈ s.choices, unchosen c = false) :
    s.remainder [] unchosen = s := by
  refine Store.ext ?_ rfl ?_ ?_ rfl
  · exact List.filter_eq_self.2 fun _ _ => rfl
  · exact List.filter_eq_self.2 fun _ _ => rfl
  · exact List.filter_eq_self.2 fun c hc => by rw [h c hc]; rfl

theorem perm_nil_of_none {q : StoredComment → Bool} (h : ∀ r ∈ s.comments, q r = false) :
    ([] : List StoredComment).Perm (s.comments.filter q) := by
  rw [List.filter_eq_nil_iff.2 fun r hr => Bool.eq_false_iff.1 (h r hr)]

theorem removeSections_of_none (hrows : ∀ r ∈ s.comments, p r.key = false)
    (hchoices : ∀ c ∈ s.choices, p c.key = false) : s.removeSections p = (0, s) := by
  rw [removeSections_eq_remainder (perm_nil_of_none hrows), remainder_nil hchoices]
  rfl

theorem removeSelected_of_none (hf : f.isWholeSections = false)
    (hrows : ∀ r ∈ s.comments, f.covers r = false) : s.removeSelected f = (0, s) := by
  have hnil := perm_nil_of_none hrows
  have hcount : s.countSelected f = 0 := by
    rw [countSelected, List.countP_eq_length_filter, ← hnil.length_eq]
    rfl
  rw [removeSelected, drop_eq_remainder hnil, anyWithId_eq hnil, hf]
  exact Prod.ext hcount (remainder_nil fun _ _ => rfl)

end Store

/-- The choices that go with the rows of a selection: all those of the sections that it selects if it
limits neither replies nor times, otherwise those for the rows. -/
def Selection.unchosen (f : Selection) (rows : List StoredComment) (c : Choice) : Bool :=
  if f.parent = .any ∧ f.timeFrom = none ∧ f.timeTo = none then f.coversSection c.key
  else rows.any c.isFor

/-- The action removes the rows with the votes for them and with some choices, and nothing else, and
tells how many rows there were. When it is repeated nothing happens. -/
structure Removes (m : Action Nat) (w : World) (rows : List StoredComment)
    (unchosen : Choice → Bool) : Prop where
  first : m.run.run Faults.never () w =
    (.ok rows.length, (), { w with store := w.store.remainder rows unchosen })
  again : m.Answers { w with store := w.store.remainder rows unchosen } 0

theorem Store.not_mem_remainder {q : StoredComment → Bool}
    (hrows : rows.Perm (s.comments.filter q)) {unchosen : Choice → Bool} :
    ∀ r ∈ (s.remainder rows unchosen).comments, q r = false := by
  intro r hr
  obtain ⟨hr, hkept⟩ := List.mem_filter.1 hr
  rw [Bool.not_eq_true', Bool.eq_false_iff, ne_eq, List.contains_iff_mem, hrows.mem_iff,
    List.mem_filter, and_iff_right hr] at hkept
  exact Bool.eq_false_iff.2 hkept

theorem Removes.nothing {m : Action Nat} {unchosen : Choice → Bool} (h : Removes m w [] unchosen)
    (hunchosen : ∀ c, unchosen c = false) : m.Answers w 0 := by
  have hfirst := h.first
  rw [Store.remainder_nil fun c _ => hunchosen c] at hfirst
  exact hfirst

theorem removes_sections {m : Action Nat} (hm : ∀ w : World, m.run.run Faults.never () w =
      (.ok (w.store.removeSections p).1, (), { w with store := (w.store.removeSections p).2 }))
    (hrows : rows.Perm (w.store.comments.filter (p ·.key))) : Removes m w rows (p ·.key) where
  first := by rw [hm, Store.removeSections_eq_remainder hrows]
  again := by
    have hkept : ∀ r ∈ (w.store.remainder rows (p ·.key)).comments, p r.key = false :=
      Store.not_mem_remainder hrows
    have hchosen : ∀ c ∈ (w.store.remainder rows (p ·.key)).choices, p c.key = false := by
      intro c hc
      rw [← Bool.not_eq_true']
      exact (List.mem_filter.1 hc).2
    rw [Action.Answers, hm, Store.removeSections_of_none hkept hchosen]

theorem run_removeSelected (f : Selection) (w : World) :
    (Action.store (.removeSelected f)).run.run Faults.never () w =
      (.ok (w.store.removeSelected f).1, (), { w with store := (w.store.removeSelected f).2 }) := rfl

theorem run_removeSelected_whole (hf : f.isWholeSections) (w : World) :
    (Action.store (.removeSelected f)).run.run Faults.never () w =
      (.ok (w.store.removeSections f.coversSection).1, (),
        { w with store := (w.store.removeSections f.coversSection).2 }) := by
  rw [run_removeSelected, Store.removeSelected_whole hf]

namespace Selection

theorem isWholeSections_iff :
    f.isWholeSections ↔ f.parent = .any ∧ f.timeFrom = none ∧ f.timeTo = none := by
  rw [isWholeSections, Bool.and_eq_true, Bool.and_eq_true, beq_iff_eq, Option.isNone_iff_eq_none,
    Option.isNone_iff_eq_none, and_assoc]

theorem unchosen_of_whole (hf : f.isWholeSections) (rows : List StoredComment) :
    f.unchosen rows = fun c => f.coversSection c.key :=
  funext fun _ => if_pos (isWholeSections_iff.1 hf)

theorem unchosen_of_part (hf : f.isWholeSections = false) (rows : List StoredComment) :
    f.unchosen rows = fun c => rows.any c.isFor :=
  funext fun _ => if_neg (mt isWholeSections_iff.2 (Bool.eq_false_iff.1 hf))

theorem coversSection_of_empty (hf : f.contexts = [] ∨ f.items = .anyOf []) (k : SectionKey) :
    f.coversSection k = false := by
  rcases hf with hf | hf
  · rw [coversSection, hf, List.contains_nil, Bool.and_false, Bool.false_and]
  · rw [coversSection, hf, ItemRange.covers, List.contains_nil, Bool.and_false]

theorem covers_of_empty (hf : f.contexts = [] ∨ f.items = .anyOf []) (r : StoredComment) :
    f.covers r = false := by
  rw [covers, coversSection_of_empty hf, Bool.false_and, Bool.false_and]

theorem unchosen_of_empty (hf : f.contexts = [] ∨ f.items = .anyOf []) (c : Choice) :
    f.unchosen [] c = false := by
  rw [unchosen, coversSection_of_empty hf, List.any_nil, ite_self]

end Selection

theorem removes_selected (h : w.store.Tied) (f : Selection) (order : SortOrder) :
    Removes (Action.store (.removeSelected f)) w (w.store.select f order none)
      (f.unchosen (w.store.select f order none)) := by
  have hrows := w.store.select_perm f order
  cases hf : f.isWholeSections with
  | true =>
    rw [Selection.unchosen_of_whole hf]
    rw [Store.covers_of_isWholeSections hf] at hrows
    exact removes_sections (run_removeSelected_whole hf) hrows
  | false =>
    rw [Selection.unchosen_of_part hf]
    constructor
    · rw [run_removeSelected, h.removeSelected_eq_remainder hf order]
    · rw [Action.Answers, run_removeSelected,
        Store.removeSelected_of_none hf (Store.not_mem_remainder hrows)]

/-- The action removes just what stands in the sections that satisfy a condition. -/
def Empties (m : Action Nat) (w : World) (p : SectionKey → Bool) : Prop :=
  Removes m w (w.store.comments.filter (p ·.key)) (p ·.key)

theorem empties_selected (hf : f.isWholeSections) :
    Empties (Action.store (.removeSelected f)) w f.coversSection :=
  removes_sections (run_removeSelected_whole hf) (.refl _)

theorem empties_component (component : String) (w : World) :
    Empties (Forum.purgeComponent component) w (·.component == component) :=
  removes_sections (p := (·.component == component)) (fun _ => rfl) (.refl _)

theorem empties_contexts (contexts : List ContextId) (w : World) :
    Empties (Forum.purgeContexts contexts) w (contexts.contains ·.context) :=
  removes_sections (p := (contexts.contains ·.context)) (fun _ => rfl) (.refl _)

/-- In every reachable state: what a selection finds is what it counts and what it removes. To clear
a section or an area, and to purge a component or contexts, empties just these. -/
theorem clearing_of_reached {allowed : Forum → Operation → Prop} (hw : Reached allowed w) :
    (∀ f order, ∃ rows, (Action.store (.select f order none)).Answers w rows ∧
      rows.Perm (w.store.comments.filter f.covers) ∧
      (Action.store (.countSelected f)).Answers w rows.length ∧
      Removes (Action.store (.removeSelected f)) w rows (f.unchosen rows) ∧
      (f.contexts = [] ∨ f.items = .anyOf [] →
        rows = [] ∧ (Action.store (.removeSelected f)).Answers w 0)) ∧
    (∀ sec : Section, Empties sec.clear w (· == sec.key)) ∧
    (∀ a : Area, Empties a.clear w fun k =>
      k.component == a.component && k.area == a.name && k.context == a.context) ∧
    (∀ component, Empties (Forum.purgeComponent component) w (·.component == component)) ∧
    (∀ contexts, Empties (Forum.purgeContexts contexts) w (contexts.contains ·.context)) ∧
    (Forum.purgeContexts []).Answers w 0 := by
  have h := Store.tied_of_reached hw
  refine ⟨fun f order => ?_, fun sec => ?_, fun a => ?_, (empties_component · w),
    (empties_contexts · w), ?_⟩
  · have hrows := w.store.select_perm f order
    have hremoves := removes_selected h f order
    refine ⟨w.store.select f order none, rfl, hrows, ?_, hremoves, fun hf => ?_⟩
    · rw [Store.length_select]
      rfl
    · have hnone := (Store.perm_nil_of_none fun r _ => f.covers_of_empty hf r).trans hrows.symm
      rw [← hnone.nil_eq] at hremoves ⊢
      exact ⟨rfl, hremoves.nothing (Selection.unchosen_of_empty hf)⟩
  · rw [← sec.coversSection_selection]
    exact empties_selected rfl
  · rw [← a.coversSection_selection]
    exact empties_selected rfl
  · have hempty : Removes (Forum.purgeContexts []) w [] fun _ => false :=
      removes_sections (p := fun _ => false) (fun _ => rfl) (Store.perm_nil_of_none fun _ _ => rfl)
    exact hempty.nothing fun _ => rfl

/-- Two threads, of which a user follows one reply to each and the section. -/
def followed : World :=
  let talk : SectionKey := ⟨"wiki", "talk", 1, 1⟩
  Forum.twoThreads.afterAll (.wiki .wiki) [
    .choose (some 8) ⟨talk, some 3, "immediate"⟩,
    .choose (some 8) ⟨talk, some 5, "immediate"⟩,
    .choose (some 8) ⟨talk, none, "digests"⟩]

/-- With the replies to a comment go the votes and choices for these, and no other choice. -/
theorem clearing_followed :
    let f : Selection :=
      { component := "wiki", area := "talk", contexts := [2, 1], parent := .repliesTo 2 }
    let rest := (followed.store.removeSelected f).2
    Reached (fun _ _ => True) followed ∧
      (∃ rows, (Action.store (.select f .descending none)).Answers followed rows ∧
        Removes (Action.store (.removeSelected f)) followed rows (f.unchosen rows) ∧
        (Action.store (.countSelected f)).Answers followed rows.length) ∧
      (Action.store (.countSelected f)).Answers followed 2 ∧
      followed.store.comments.map (·.id) = [1, 2, 3, 4, 5] ∧ rest.comments.map (·.id) = [1, 2, 3] ∧
      followed.store.votes = [⟨4, 6⟩] ∧ rest.votes = [] ∧
      followed.store.choices.map (·.comment) = [3, 5, 0] ∧ rest.choices.map (·.comment) = [3, 0] := by
  intro f rest
  have hw : Reached (fun _ _ => True) followed :=
    Forum.reached_twoThreads.afterAll fun _ _ => trivial
  obtain ⟨rows, hrows, -, hcount, hremoves, -⟩ := (clearing_of_reached hw).1 f .descending
  exact ⟨hw, ⟨rows, hrows, hremoves, hcount⟩, rfl, by decide⟩

end Discussion
