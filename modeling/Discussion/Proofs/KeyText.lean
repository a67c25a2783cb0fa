import Discussion.Error
import Discussion.Proofs.Numeral

namespace Discussion

/-- Two texts that are put together at a separator are the same where they are cut at the same
place, or one of them at a separator that belongs to a part of the other. -/
theorem append_cons_eq_iff {α : Type} {x : α} {a b c d : List α} : a ++ x :: b = c ++ x :: d ↔
    (a = c ∧ b = d) ∨ (∃ m, a = c ++ x :: m ∧ d = m ++ x :: b) ∨
      ∃ m, c = a ++ x :: m ∧ b = m ++ x :: d := by
  constructor
  · intro h
    obtain ⟨m, rfl, hm⟩ | ⟨m, rfl, hm⟩ := List.append_eq_append_iff.1 h
    · cases m with
      | nil => exact .inl ⟨(List.append_nil a).symm, (List.cons.inj hm).2⟩
      | cons y m =>
        obtain ⟨rfl, rfl⟩ := List.cons.inj hm
        exact .inr (.inr ⟨m, rfl, rfl⟩)
    · cases m with
      | nil => exact .inl ⟨List.append_nil c, (List.cons.inj hm).2.symm⟩
      | cons y m =>
        obtain ⟨rfl, rfl⟩ := List.cons.inj hm
        exact .inr (.inl ⟨m, rfl, rfl⟩)
  · rintro (⟨rfl, rfl⟩ | ⟨m, rfl, rfl⟩ | ⟨m, rfl, rfl⟩)
    · rfl
    · exact List.append_assoc c (x :: m) (x :: b)
    · exact (List.append_assoc a (x :: m) (x :: d)).symm

theorem append_cons_inj {α : Type} {x : α} {a b c d : List α} (hb : x ∉ b) (hd : x ∉ d) :
    a ++ x :: b = c ++ x :: d ↔ a = c ∧ b = d := by
  rw [append_cons_eq_iff]
  constructor
  · rintro (h | ⟨m, -, rfl⟩ | ⟨m, -, rfl⟩)
    · exact h
    · exact (hd (List.mem_append_right m List.mem_cons_self)).elim
    · exact (hb (List.mem_append_right m List.mem_cons_self)).elim
  · exact .inl

theorem isName_of_append {s t : String} (h : isName (s ++ "_" ++ t)) : isName s := by
  unfold isName at h ⊢
  rw [String.toList_append, String.toList_append] at h
  cases hs : s.toList with
  | nil =>
    rw [hs] at h
    cases h
  | cons c rest =>
    rw [hs] at h
    simp only [List.cons_append, List.all_append, List.length_append, Bool.and_eq_true,
      decide_eq_true_eq] at h ⊢
    obtain ⟨⟨hc, ⟨hrest, -⟩, -⟩, hlength⟩ := h
    exact ⟨⟨hc, hrest⟩, by omega⟩

namespace SectionKey

theorem make_eq_ok {component area : String} {context : ContextId} {item : ItemId}
    {k : SectionKey} : make component area context item = .ok k ↔
      isName component ∧ isName area ∧ k = ⟨component, area, context, item⟩ := by
  unfold make checkName
  by_cases hcomponent : isName component
  · by_cases harea : isName area
    · rw [if_pos hcomponent, if_pos harea]
      constructor
      · exact fun h => ⟨hcomponent, harea, (Except.ok.inj h).symm⟩
      · rintro ⟨-, -, rfl⟩
        rfl
    · rw [if_pos hcomponent, if_neg harea]
      exact ⟨nofun, fun h => (harea h.2.1).elim⟩
  · rw [if_neg hcomponent]
    exact ⟨nofun, fun h => (hcomponent h.1).elim⟩

/-- A word stands at the end of the first key's component, and at the start of the second key's
area; without it they have the same component and the same area. -/
def SharesWord (j k : SectionKey) (word : String) : Prop :=
  j.component = k.component ++ "_" ++ word ∧ k.area = word ++ "_" ++ j.area

variable {j k : SectionKey}

theorem toList_unique (k : SectionKey) : k.unique.toList =
    ((k.component.toList ++ '_' :: k.area.toList) ++ '_' :: Text.integerDigits k.context) ++
      '_' :: Text.integerDigits k.item := by
  simp only [unique, String.toList_append, Text.integerText, String.toList_ofList,
    List.append_assoc]
  rfl

theorem unique_eq_iff_names : j.unique = k.unique ↔
    j.component.toList ++ '_' :: j.area.toList = k.component.toList ++ '_' :: k.area.toList ∧
      j.context = k.context ∧ j.item = k.item := by
  have hfree := Text.underscore_not_mem_integerDigits
  rw [← String.toList_inj, toList_unique, toList_unique, append_cons_inj (hfree _) (hfree _),
    append_cons_inj (hfree _) (hfree _), Text.integerDigits_injective.eq_iff,
    Text.integerDigits_injective.eq_iff, and_assoc]

theorem sharesWord_iff : (∃ word, j.SharesWord k word) ↔
    ∃ m, j.component.toList = k.component.toList ++ '_' :: m ∧
      k.area.toList = m ++ '_' :: j.area.toList := by
  have hchars (word : String) : j.SharesWord k word ↔
      j.component.toList = k.component.toList ++ '_' :: word.toList ∧
        k.area.toList = word.toList ++ '_' :: j.area.toList := by
    rw [SharesWord, ← String.toList_inj, ← String.toList_inj]
    simp only [String.toList_append, List.append_assoc]
    rfl
  constructor
  · rintro ⟨word, h⟩
    exact ⟨word.toList, (hchars word).1 h⟩
  · rintro ⟨m, h⟩
    refine ⟨.ofList m, (hchars _).2 ?_⟩
    rw [String.toList_ofList]
    exact h

theorem unique_eq_iff_sharesWord : j.unique = k.unique ↔ j = k ∨
    (j.context = k.context ∧ j.item = k.item ∧
      ((∃ word, j.SharesWord k word) ∨ ∃ word, k.SharesWord j word)) := by
  rw [unique_eq_iff_names, append_cons_eq_iff, sharesWord_iff, sharesWord_iff, String.toList_inj,
    String.toList_inj]
  constructor
  · rintro ⟨⟨hcomponent, harea⟩ | hword, hcontext, hitem⟩
    · left
      cases j
      cases k
      simp only [mk.injEq]
      exact ⟨hcomponent, harea, hcontext, hitem⟩
    · exact .inr ⟨hcontext, hitem, hword⟩
  · rintro (rfl | ⟨hcontext, hitem, hword⟩)
    · exact ⟨.inl ⟨rfl, rfl⟩, rfl, rfl⟩
    · exact ⟨.inr hword, hcontext, hitem⟩

theorem SharesWord.not_apart {word : String} (h : j.SharesWord k word) :
    ¬(j.component = k.component ∨ j.area = k.area ∨ '_' ∉ j.component.toList) := by
  obtain ⟨hcomponent, harea⟩ := h
  have hone : "_".toList.length = 1 := rfl
  rintro (heq | heq | hfree)
  · have hlength := congrArg (·.toList.length) (heq.symm.trans hcomponent)
    simp only [String.toList_append, List.length_append] at hlength
    omega
  · have hlength := congrArg (·.toList.length) (heq.trans harea)
    simp only [String.toList_append, List.length_append] at hlength
    omega
  · apply hfree
    rw [hcomponent, String.toList_append, String.toList_append]
    exact List.mem_append_left _ (List.mem_append_right _ (List.mem_singleton_self '_'))

/-- The text of a key tells the numbers, and the names only where no word can be taken for a part of
either. Two keys have one text just when they are equal, or when they have the same numbers and the
component of one of them goes on with a name with which the area of the other one starts. So it
tells the sections of one component, those of areas of one name, and those of components without
an underscore. -/
theorem unique_eq_iff {component area component' area' : String} {context context' : ContextId}
    {item item' : ItemId} (hj : make component area context item = .ok j)
    (hk : make component' area' context' item' = .ok k) :
    (j.unique = k.unique ↔ j = k ∨ (j.context = k.context ∧ j.item = k.item ∧
      ∃ word, isName word ∧ (j.SharesWord k word ∨ k.SharesWord j word))) ∧
    (j.component = k.component ∨ j.area = k.area ∨
        ('_' ∉ j.component.toList ∧ '_' ∉ k.component.toList) → j.unique = k.unique → j = k) := by
  have hname {i l : SectionKey} {word : String} (hl : isName l.area) (h : i.SharesWord l word) :
      isName word := by
    rw [h.2] at hl
    exact isName_of_append hl
  obtain ⟨-, hjarea, rfl⟩ := make_eq_ok.1 hj
  obtain ⟨-, hkarea, rfl⟩ := make_eq_ok.1 hk
  constructor
  · rw [unique_eq_iff_sharesWord]
    refine or_congr_right (and_congr_right fun _ => and_congr_right fun _ => ?_)
    constructor
    · rintro (⟨word, h⟩ | ⟨word, h⟩)
      · exact ⟨word, hname hkarea h, .inl h⟩
      · exact ⟨word, hname hjarea h, .inr h⟩
    · rintro ⟨word, -, h | h⟩
      · exact .inl ⟨word, h⟩
      · exact .inr ⟨word, h⟩
  · intro hapart h
    rcases unique_eq_iff_sharesWord.1 h with heq | ⟨-, -, ⟨word, h⟩ | ⟨word, h⟩⟩
    · exact heq
    · exact (h.not_apart (hapart.imp_right (.imp_right And.left))).elim
    · exact (h.not_apart (hapart.imp Eq.symm (.imp Eq.symm And.right))).elim

theorem unique_eq_iff_demoNotes :
    let j : SectionKey := ⟨"mod_demo", "notes", 7, 42⟩
    let k : SectionKey := ⟨"mod", "demo_notes", 7, 42⟩
    make "mod_demo" "notes" 7 42 = .ok j ∧ make "mod" "demo_notes" 7 42 = .ok k ∧
      j.unique = k.unique ∧ ∃ word, isName word ∧ (j.SharesWord k word ∨ k.SharesWord j word) := by
  intro j k
  have hj : make "mod_demo" "notes" 7 42 = .ok j := rfl
  have hk : make "mod" "demo_notes" 7 42 = .ok k := rfl
  have hunique : j.unique = k.unique := rfl
  obtain ⟨-, -, hword⟩ := ((unique_eq_iff hj hk).1.1 hunique).resolve_left (by decide)
  exact ⟨hj, hk, hunique, hword⟩

/-- The text of a key does not tell the section among all components. -/
theorem unique_not_injective : ∃ j k : SectionKey, make "mod_demo" "notes" 7 42 = .ok j ∧
    make "mod" "demo_notes" 7 42 = .ok k ∧ j.unique = k.unique ∧ j.component ≠ k.component ∧
      j.area ≠ k.area :=
  ⟨⟨"mod_demo", "notes", 7, 42⟩, ⟨"mod", "demo_notes", 7, 42⟩, rfl, rfl, rfl, by decide, by decide⟩

end SectionKey

end Discussion
