import Discussion.Proofs.KeyText
import Discussion.Settings.Load
import Mathlib.Data.List.Infix

namespace Discussion

namespace SettingPath

/-- A text that is read as one step of a path. -/
structure IsStep (name : String) : Prop where
  nonempty : name ≠ ""
  chars : ∀ c ∈ name.toList, isNameChar c

theorem stepsOf?_cons {name : String} (h : IsStep name) {tail : List Char}
    (htail : tail = [] ∨ ∃ rest, tail = '.' :: rest) :
    stepsOf? ('.' :: (name.toList ++ tail)) =
      (stepsOf? tail).map fun steps => .field name :: steps := by
  have hstop : tail.takeWhile isNameChar = [] ∧ tail.dropWhile isNameChar = tail := by
    rcases htail with rfl | ⟨rest, rfl⟩
    · exact ⟨rfl, rfl⟩
    · exact ⟨rfl, rfl⟩
  have hsome : ¬name.toList.isEmpty := by
    rw [List.isEmpty_iff, String.toList_eq_nil_iff]
    exact h.nonempty
  rw [stepsOf?, List.takeWhile_append_of_pos h.chars, List.dropWhile_append_of_pos h.chars,
    hstop.1, hstop.2, List.append_nil, String.ofList_toList]
  exact if_neg hsome

theorem stepsOf?_flatMap {path : List String} (h : ∀ name ∈ path, IsStep name) :
    stepsOf? (path.flatMap fun name => '.' :: name.toList) = some (path.map .field) := by
  induction path with
  | nil => rw [List.flatMap_nil, stepsOf?, List.map_nil]
  | cons name path ih =>
    obtain ⟨hname, hpath⟩ := List.forall_mem_cons.1 h
    rw [List.flatMap_cons, List.cons_append, stepsOf?_cons hname, ih hpath]
    · rfl
    · cases path with
      | nil => exact .inl rfl
      | cons second path => exact .inr ⟨_, rfl⟩

theorem ofText?_intercalate {path : List String} (hpath : path ≠ [])
    (h : ∀ name ∈ path, IsStep name) :
    ofText? (".".intercalate path) = some (path.map .field) := by
  have htext : '.' :: (".".intercalate path).toList =
      path.flatMap fun name => '.' :: name.toList := by
    clear h
    rw [String.toList_intercalate]
    induction path with
    | nil => exact (hpath rfl).elim
    | cons name path ih =>
      cases path with
      | nil => rw [List.map_singleton, List.intercalate_singleton, List.flatMap_singleton]
      | cons second path =>
        rw [List.map_cons, List.map_cons, List.intercalate_cons_cons, List.flatMap_cons,
          ← ih (List.cons_ne_nil second path), List.append_assoc]
        rfl
  rw [ofText?, htext, stepsOf?_flatMap h]

end SettingPath

/-- The value at the end of a path through tables. -/
def Setting.valueAt? (tree : Setting) (path : List String) : Option Setting :=
  match path with
  | [] => some tree
  | name :: rest => (Dictionary.find? tree.fields name).bind fun inner => inner.valueAt? rest

namespace Setting

theorem placeAt?_fields (tree : Setting) (name : String) (rest : List String) (value : String) :
    ∃ changed, tree.placeAt? ((name :: rest).map .field) (.text value) = some changed ∧
      changed.valueAt? (name :: rest) = some (.text value) ∧
      ∀ other, other ≠ name → Dictionary.find? changed.fields other =
        Dictionary.find? tree.fields other := by
  induction rest generalizing tree name with
  | nil =>
    refine ⟨.table (Dictionary.insert tree.fields name (.text value)), rfl, ?_, ?_⟩
    · rw [valueAt?, fields, Dictionary.find?_insert, if_pos rfl]
      rfl
    · intro other hother
      exact (Dictionary.find?_insert _ _ _ _).trans (if_neg hother.symm)
  | cons second rest ih =>
    obtain ⟨inner, hinner, hvalue, -⟩ :=
      ih ((Dictionary.find? tree.fields name).getD .null) second
    refine ⟨.table (Dictionary.insert tree.fields name inner), ?_, ?_, ?_⟩
    · change Option.map _ _ = _
      rw [hinner]
      rfl
    · rw [valueAt?, fields, Dictionary.find?_insert, if_pos rfl]
      exact hvalue
    · intro other hother
      exact (Dictionary.find?_insert _ _ _ _).trans (if_neg hother.symm)

end Setting

namespace Environment

/-- The characters of the names of settings. -/
def isFieldChar (c : Char) : Bool :=
  Text.isDigit c || ('a' ≤ c && c ≤ 'z') || c == '_'

/-- A name of a setting. Its underscores stand alone and between other characters. -/
structure IsFieldName (name : String) : Prop where
  chars : ∀ c ∈ name.toList, isFieldChar c
  nonempty : name ≠ ""
  head : name.toList.head? ≠ some '_'
  last : name.toList.getLast? ≠ some '_'
  single : ¬['_', '_'] <:+: name.toList

instance (name : String) : Decidable (IsFieldName name) :=
  decidable_of_iff (name.toList.all isFieldChar ∧ name ≠ "" ∧ name.toList.head? ≠ some '_' ∧
      name.toList.getLast? ≠ some '_' ∧ ¬['_', '_'] <:+: name.toList)
    ⟨fun h => ⟨List.all_eq_true.1 h.1, h.2.1, h.2.2.1, h.2.2.2.1, h.2.2.2.2⟩,
      fun h => ⟨List.all_eq_true.2 h.chars, h.nonempty, h.head, h.last, h.single⟩⟩

/-- The variable that is meant for the setting at the end of a path. -/
def variableFor (path : List String) : String :=
  "COMMENTS_" ++ "__".intercalate (path.map String.toUpper)

/-- What two underscores can be told from: no others stand in it in a row, or at its end. -/
structure IsPart (cs : List Char) : Prop where
  nonempty : cs ≠ []
  last : cs.getLast? ≠ some '_'
  single : ¬['_', '_'] <:+: cs

section Parts

variable {cs tail : List Char} {parts : List (List Char)}

theorem IsPart.suffix {ds : List Char} (h : IsPart cs) (hs : ds <:+ cs) (hne : ds ≠ []) :
    IsPart ds where
  nonempty := hne
  last := by
    obtain ⟨front, rfl⟩ := hs
    rw [← List.getLast?_append_of_ne_nil front hne]
    exact h.last
  single := fun hgap => h.single (hgap.trans hs.isInfix)

theorem IsPart.underscore (h : IsPart cs) (hhead : cs.head? ≠ some '_') : IsPart ('_' :: cs) := by
  cases cs with
  | nil => exact (h.nonempty rfl).elim
  | cons c cs =>
    refine ⟨List.cons_ne_nil _ _, ?_, fun hgap => ?_⟩
    · rw [List.getLast?_cons_cons]
      exact h.last
    · rcases List.infix_cons_iff.1 hgap with hfront | hlater
      · obtain ⟨_, hc⟩ := List.cons_prefix_cons.1 hfront
        exact hhead (congrArg some (List.cons_prefix_cons.1 hc).1.symm)
      · exact h.single hlater

theorem separate_cons {c d : Char} (h : ¬(c = '_' ∧ d = '_')) :
    separate (c :: d :: tail) = c :: separate (d :: tail) := by
  rw [separate]
  rintro rest rfl ⟨⟩
  exact h ⟨rfl, rfl⟩

theorem IsPart.separate_cons {c d : Char} (h : IsPart (c :: d :: cs)) (tail : List Char) :
    separate (c :: d :: tail) = c :: separate (d :: tail) := by
  apply Environment.separate_cons
  rintro ⟨rfl, rfl⟩
  exact h.single ⟨[], cs, rfl⟩

theorem IsPart.separate (h : IsPart cs) : separate cs = cs := by
  induction cs with
  | nil => rfl
  | cons c cs ih =>
    cases cs with
    | nil =>
      rw [Environment.separate, Environment.separate]
      rintro rest - ⟨⟩
    | cons d cs =>
      rw [h.separate_cons, ih (h.suffix (List.suffix_cons c _) (List.cons_ne_nil d cs))]

theorem IsPart.separate_append (h : IsPart cs) (tail : List Char) :
    Environment.separate (cs ++ '_' :: '_' :: tail) = cs ++ '.' :: Environment.separate tail := by
  induction cs with
  | nil => exact (h.nonempty rfl).elim
  | cons c cs ih =>
    cases cs with
    | nil =>
      have hc : c ≠ '_' := fun hc => h.last (congrArg some hc)
      change Environment.separate (c :: '_' :: '_' :: tail) = _
      rw [Environment.separate_cons fun hboth => hc hboth.1, Environment.separate]
      rfl
    | cons d cs =>
      change Environment.separate (c :: d :: (cs ++ '_' :: '_' :: tail)) = _
      rw [h.separate_cons]
      exact congrArg (c :: ·) (ih (h.suffix (List.suffix_cons c _) (List.cons_ne_nil d cs)))

theorem separate_intercalate (h : ∀ p ∈ parts, IsPart p) :
    separate (['_', '_'].intercalate parts) = ['.'].intercalate parts := by
  induction parts with
  | nil => rfl
  | cons p parts ih =>
    obtain ⟨hp, hparts⟩ := List.forall_mem_cons.1 h
    cases parts with
    | nil =>
      rw [List.intercalate_singleton, List.intercalate_singleton]
      exact hp.separate
    | cons q parts =>
      rw [List.intercalate_cons_cons, List.intercalate_cons_cons, List.append_assoc,
        List.append_assoc]
      exact (hp.separate_append _).trans (congrArg (p ++ '.' :: ·) (ih hparts))

theorem dropMarkers_marker_append (cs : List Char) :
    dropMarkers (marker ++ cs) = dropMarkers cs := rfl

theorem dropMarkers_eq_self (h : ¬marker <+: cs) : dropMarkers cs = cs := by
  unfold dropMarkers
  split
  next rest => exact (h ⟨rest, rfl⟩).elim
  · rfl

theorem IsPart.of_marker_append (h : IsPart (marker ++ cs)) : IsPart cs := by
  refine h.suffix (List.suffix_append marker cs) ?_
  rintro rfl
  exact h.last rfl

theorem dropMarkers_suffix (cs : List Char) : dropMarkers cs <:+ cs := by
  induction cs using dropMarkers.induct with
  | case1 rest ih => exact ih.trans (List.suffix_append marker rest)
  | case2 cs hcs =>
    rw [dropMarkers_eq_self fun ⟨rest, hrest⟩ => hcs rest hrest.symm]

theorem IsPart.dropMarkers (h : IsPart cs) : IsPart (Environment.dropMarkers cs) := by
  refine h.suffix (dropMarkers_suffix cs) ?_
  induction cs using Environment.dropMarkers.induct with
  | case1 rest ih =>
    have hpart : IsPart (marker ++ rest) := h
    exact ih hpart.of_marker_append
  | case2 cs hcs =>
    rw [dropMarkers_eq_self fun ⟨rest, hrest⟩ => hcs rest hrest.symm]
    exact h.nonempty

/-- Two underscores that follow belong to the last marker if nothing stands between. -/
theorem IsPart.dropMarkers_append (h : IsPart cs) (tail : List Char) :
    Environment.dropMarkers (cs ++ '_' :: '_' :: tail) =
      if Environment.dropMarkers cs = "COMMENTS".toList then '_' :: tail
      else Environment.dropMarkers cs ++ '_' :: '_' :: tail := by
  induction cs using Environment.dropMarkers.induct with
  | case1 rest ih =>
    have hpart : IsPart (marker ++ rest) := h
    exact ih hpart.of_marker_append
  | case2 cs hcs =>
    have hstart : ¬marker <+: cs := fun ⟨rest, hrest⟩ => hcs rest hrest.symm
    rw [dropMarkers_eq_self hstart]
    split
    next heq =>
      rw [heq]
      rfl
    next hne =>
      refine dropMarkers_eq_self fun ⟨rest, hrest⟩ => ?_
      obtain ⟨m, hm, -⟩ | ⟨m, hm, htail⟩ := List.append_eq_append_iff.1 hrest
      · exact hstart ⟨m, hm.symm⟩
      cases m with
      | nil => exact hstart ⟨[], hm.trans (List.append_nil cs)⟩
      | cons c m =>
        obtain ⟨rfl, -⟩ := List.cons.inj htail
        have hword : "COMMENTS".toList ++ '_' :: [] = cs ++ '_' :: m := hm
        obtain ⟨heq, -⟩ | ⟨k, hk, -⟩ | ⟨k, -, hk⟩ := append_cons_eq_iff.1 hword
        · exact hne heq.symm
        · have hmem : '_' ∈ "COMMENTS".toList := hk ▸ List.mem_append_right cs List.mem_cons_self
          exact absurd hmem (by decide)
        · exact List.append_ne_nil_of_right_ne_nil k (List.cons_ne_nil '_' m) hk.symm

/-- What is heard of the parts of a name: the first one loses the markers that it starts with, and
where it is left as the word of a marker, it is gone with the underscore that follows. -/
def heardParts (first second : List Char) (rest : List (List Char)) : List (List Char) :=
  if dropMarkers first = "COMMENTS".toList then ('_' :: second) :: rest
  else dropMarkers first :: second :: rest

theorem dropMarkers_intercalate {first second : List Char} (h : IsPart first)
    (rest : List (List Char)) :
    dropMarkers (['_', '_'].intercalate (first :: second :: rest)) =
      ['_', '_'].intercalate (heardParts first second rest) := by
  have hcons (c : Char) : c :: ['_', '_'].intercalate (second :: rest) =
      ['_', '_'].intercalate ((c :: second) :: rest) := by
    cases rest with
    | nil => rfl
    | cons third rest => rfl
  rw [List.intercalate_cons_cons, List.append_assoc]
  refine (h.dropMarkers_append _).trans ?_
  unfold heardParts
  split
  · exact hcons '_'
  · rw [List.intercalate_cons_cons, List.append_assoc]
    rfl

theorem map_intercalate {f : Char → Char} (hf : f '.' = '.') (parts : List (List Char)) :
    (['.'].intercalate parts).map f = ['.'].intercalate (parts.map fun p => p.map f) := by
  induction parts with
  | nil => rfl
  | cons p parts ih =>
    cases parts with
    | nil => rw [List.map_singleton, List.intercalate_singleton, List.intercalate_singleton]
    | cons q parts =>
      rw [List.map_cons, List.map_cons, List.intercalate_cons_cons, List.intercalate_cons_cons,
        List.map_append, List.map_append, ih, List.map_singleton, hf]
      rfl

end Parts

section Names

variable {name first second : String} {rest : List String}

theorem lowerChar_toUpper {c : Char} (h : isFieldChar c) : Text.lowerChar c.toUpper = c := by
  have hsmall : ∀ n < 128, isFieldChar (Char.ofNat n) →
      Text.lowerChar (Char.ofNat n).toUpper = Char.ofNat n := by decide
  have hbound : c.toNat < 128 := by
    have hle : c ≤ 'z' := by
      simp only [isFieldChar, Text.isDigit, Bool.or_eq_true, Bool.and_eq_true, decide_eq_true_eq,
        beq_iff_eq] at h
      rcases h with (⟨-, h⟩ | ⟨-, h⟩) | rfl
      · exact Char.le_trans h (by decide)
      · exact h
      · decide
    exact Nat.lt_of_le_of_lt (show c.toNat ≤ 'z'.toNat from hle) (by decide)
  have hc := hsmall c.toNat hbound
  rw [Char.ofNat_toNat] at hc
  exact hc h

theorem IsFieldName.map_lowerChar (h : IsFieldName name) :
    name.toUpper.toList.map Text.lowerChar = name.toList := by
  rw [String.toUpper, String.toList_map, List.map_map]
  refine (List.map_congr_left fun c hc => ?_).trans (List.map_id _)
  exact lowerChar_toUpper (h.chars c hc)

theorem IsFieldName.isPart (h : IsFieldName name) : IsPart name.toUpper.toList where
  nonempty := by
    intro hnil
    have hname := h.map_lowerChar
    rw [hnil] at hname
    exact h.nonempty (String.toList_eq_nil_iff.1 hname.symm)
  last := by
    intro hlast
    have hname := congrArg (Option.map Text.lowerChar) hlast
    rw [← List.getLast?_map, h.map_lowerChar] at hname
    exact h.last hname
  single := by
    intro hgap
    have hname := hgap.map Text.lowerChar
    rw [h.map_lowerChar] at hname
    exact h.single hname

theorem IsFieldName.head_toUpper (h : IsFieldName name) :
    name.toUpper.toList.head? ≠ some '_' := by
  intro hhead
  have hname := congrArg (Option.map Text.lowerChar) hhead
  rw [← List.head?_map, h.map_lowerChar] at hname
  exact h.head hname

/-- What is left of a name when the markers that its capitals start with are dropped. -/
def unmarked (name : String) : String :=
  Text.lower (String.ofList (dropMarkers name.toUpper.toList))

/-- The path that the variable for a path is taken for. -/
def heard (first second : String) (rest : List String) : List String :=
  if dropMarkers first.toUpper.toList = "COMMENTS".toList then ("_" ++ second) :: rest
  else unmarked first :: second :: rest

theorem toList_unmarked (name : String) :
    (unmarked name).toList = (dropMarkers name.toUpper.toList).map Text.lowerChar := by
  rw [unmarked, Text.lower, String.toList_ofList, String.toList_ofList]

theorem toList_variableFor (path : List String) : (variableFor path).toList =
    marker ++ ['_', '_'].intercalate (path.map fun name => name.toUpper.toList) := by
  rw [variableFor, String.toList_append, String.toList_intercalate, List.map_map]
  rfl

theorem map_toList_heard (hsecond : IsFieldName second) (hrest : ∀ name ∈ rest, IsFieldName name) :
    (heard first second rest).map String.toList =
      (heardParts first.toUpper.toList second.toUpper.toList
        (rest.map fun name => name.toUpper.toList)).map fun p => p.map Text.lowerChar := by
  have hlater : (rest.map fun name => name.toUpper.toList).map (fun p => p.map Text.lowerChar) =
      rest.map String.toList := by
    rw [List.map_map]
    exact List.map_congr_left fun name hname => (hrest name hname).map_lowerChar
  unfold heard heardParts
  split
  · rw [List.map_cons, List.map_cons, List.map_cons, hsecond.map_lowerChar, hlater,
      String.toList_append]
    rfl
  · rw [List.map_cons, List.map_cons, List.map_cons, List.map_cons, hsecond.map_lowerChar, hlater,
      toList_unmarked]

theorem isPart_of_mem_heardParts {first second : List Char} {rest : List (List Char)}
    (hfirst : IsPart first) (hsecond : IsPart second) (hhead : second.head? ≠ some '_')
    (hrest : ∀ p ∈ rest, IsPart p) : ∀ p ∈ heardParts first second rest, IsPart p := by
  unfold heardParts
  split
  · exact List.forall_mem_cons.2 ⟨hsecond.underscore hhead, hrest⟩
  · exact List.forall_mem_cons.2 ⟨hfirst.dropMarkers, List.forall_mem_cons.2 ⟨hsecond, hrest⟩⟩

theorem settingOf?_variableFor (hfirst : IsFieldName first) (hsecond : IsFieldName second)
    (hrest : ∀ name ∈ rest, IsFieldName name) :
    settingOf? (variableFor (first :: second :: rest)) =
      some (".".intercalate (heard first second rest)) := by
  have hparts := isPart_of_mem_heardParts hfirst.isPart hsecond.isPart hsecond.head_toUpper
    (List.forall_mem_map.2 fun name hname => (hrest name hname).isPart)
  have hmarker : marker.isPrefixOf (variableFor (first :: second :: rest)).toList := by
    rw [toList_variableFor, List.isPrefixOf_iff_prefix]
    exact List.prefix_append _ _
  rw [settingOf?, if_pos hmarker, toList_variableFor, dropMarkers_marker_append, List.map_cons,
    List.map_cons, dropMarkers_intercalate hfirst.isPart, separate_intercalate hparts]
  refine congrArg some (String.toList_inj.1 ?_)
  rw [Text.lower, String.toList_ofList, String.toList_ofList, map_intercalate rfl,
    String.toList_intercalate, map_toList_heard hsecond hrest]
  rfl

theorem isNameChar_of_isFieldChar {c : Char} (h : isFieldChar c) : SettingPath.isNameChar c := by
  simp only [isFieldChar, SettingPath.isNameChar, Bool.or_eq_true] at h ⊢
  tauto

theorem IsFieldName.isStep (h : IsFieldName name) : SettingPath.IsStep name :=
  ⟨h.nonempty, fun c hc => isNameChar_of_isFieldChar (h.chars c hc)⟩

theorem IsFieldName.isStep_unmarked (h : IsFieldName name) :
    SettingPath.IsStep (unmarked name) where
  nonempty := by
    intro hnil
    have hchars := congrArg String.toList hnil
    rw [toList_unmarked] at hchars
    exact h.isPart.dropMarkers.nonempty (List.map_eq_nil_iff.1 hchars)
  chars := by
    intro c hc
    have hsuffix := (dropMarkers_suffix name.toUpper.toList).map Text.lowerChar
    rw [← toList_unmarked, h.map_lowerChar] at hsuffix
    exact isNameChar_of_isFieldChar (h.chars c (hsuffix.subset hc))

theorem IsFieldName.isStep_underscore (h : IsFieldName name) :
    SettingPath.IsStep ("_" ++ name) where
  nonempty := by
    intro hnil
    have hchars := congrArg String.toList hnil
    rw [String.toList_append] at hchars
    cases hchars
  chars := by
    rw [String.toList_append]
    exact List.forall_mem_cons.2 ⟨rfl, h.isStep.chars⟩

theorem isStep_of_mem_heard (hfirst : IsFieldName first) (hsecond : IsFieldName second)
    (hrest : ∀ name ∈ rest, IsFieldName name) :
    ∀ name ∈ heard first second rest, SettingPath.IsStep name := by
  have hlater : ∀ name ∈ rest, SettingPath.IsStep name := fun name hname =>
    (hrest name hname).isStep
  unfold heard
  split
  · exact List.forall_mem_cons.2 ⟨hsecond.isStep_underscore, hlater⟩
  · exact List.forall_mem_cons.2 ⟨hfirst.isStep_unmarked,
      List.forall_mem_cons.2 ⟨hsecond.isStep, hlater⟩⟩

/-- A variable sets the value at the end of a path. -/
structure Sets (name : String) (path : List String) : Prop where
  read : settingOf? name = some (".".intercalate path)
  overrides : ∀ value, Settings.overrides [(name, value)] = .ok [(path.map .field, .text value)]
  changes : ∀ (tree : Setting) (value : String), ∃ changed,
    Settings.change tree (path.map .field) (.text value) = .ok changed ∧
      changed.valueAt? path = some (.text value) ∧
      ∀ other later, path.head? ≠ some other →
        changed.valueAt? (other :: later) = tree.valueAt? (other :: later)

theorem Sets.of_read {path : List String} (hpath : path ≠ [])
    (hsteps : ∀ name ∈ path, SettingPath.IsStep name)
    (hread : settingOf? name = some (".".intercalate path)) : Sets name path where
  read := hread
  overrides := by
    intro value
    have hfound : [(name, value)].filterMap (fun v => (settingOf? v.1).map (·, v.2)) =
        [(".".intercalate path, value)] := by
      rw [List.filterMap_cons, hread]
      rfl
    rw [Settings.overrides, hfound, List.mapM_cons, SettingPath.ofText?_intercalate hpath hsteps]
    rfl
  changes := by
    intro tree value
    cases path with
    | nil => exact (hpath rfl).elim
    | cons first rest =>
      obtain ⟨changed, hchanged, hvalue, hkept⟩ := tree.placeAt?_fields first rest value
      refine ⟨changed, ?_, hvalue, fun other later hother => ?_⟩
      · rw [Settings.change, hchanged]
        rfl
      · rw [Setting.valueAt?, Setting.valueAt?, hkept other]
        rintro rfl
        exact hother rfl

/-- The first name on a path starts with the word of a marker. -/
def Restarts (first : String) : Prop :=
  first = "comments" ∨ "comments_".toList <+: first.toList

instance (first : String) : Decidable (Restarts first) :=
  inferInstanceAs (Decidable (_ ∨ _))

theorem marker_prefix_iff (h : IsFieldName first) :
    marker <+: first.toUpper.toList ↔ "comments_".toList <+: first.toList := by
  constructor
  · intro hmarker
    have hlower := hmarker.map Text.lowerChar
    rw [h.map_lowerChar] at hlower
    exact hlower
  · intro hword
    rw [String.toUpper, String.toList_map]
    exact hword.map Char.toUpper

theorem unmarked_eq_iff (h : IsFieldName first) :
    unmarked first = first ↔ ¬marker <+: first.toUpper.toList := by
  rw [← String.toList_inj, toList_unmarked, ← h.map_lowerChar]
  constructor
  · rintro heq ⟨left, hleft⟩
    have hlength := congrArg List.length heq
    rw [List.length_map, List.length_map, ← hleft, dropMarkers_marker_append,
      List.length_append] at hlength
    have hle := (dropMarkers_suffix left).length_le
    have hpos : marker.length = 9 := rfl
    omega
  · intro hmarker
    rw [dropMarkers_eq_self hmarker]

theorem heard_of_not_restarts (h : IsFieldName first) (hfirst : ¬Restarts first) :
    heard first second rest = first :: second :: rest := by
  have hmarker : ¬marker <+: first.toUpper.toList := fun hmarker =>
    hfirst (.inr ((marker_prefix_iff h).1 hmarker))
  unfold heard
  rw [(unmarked_eq_iff h).2 hmarker, if_neg]
  rw [dropMarkers_eq_self hmarker]
  intro hword
  have hlower := congrArg (List.map Text.lowerChar) hword
  rw [h.map_lowerChar] at hlower
  exact hfirst (.inl (String.toList_inj.1 hlower))

theorem head_heard_of_restarts (h : IsFieldName first) (hfirst : Restarts first) :
    (heard first second rest).head? ≠ some first := by
  unfold heard
  split
  · intro hhead
    refine h.head ?_
    rw [← Option.some.inj hhead, String.toList_append]
    rfl
  next hleft =>
    intro hhead
    have hmarker := (unmarked_eq_iff h).1 (Option.some.inj hhead)
    rcases hfirst with rfl | hword
    · rw [String.toUpper, String.toList_map] at hleft
      exact hleft rfl
    · exact hmarker ((marker_prefix_iff h).2 hword)

/-- The variable for the setting at the end of a path sets it, unless the first name on the path
starts with the word of a marker. As a variable loses all the markers that it starts with, and not
one only, it is then taken for another setting: the first name loses these words, or it is gone
where it has no others. The setting that is meant stays as it is. -/
theorem sets_variableFor (hnames : ∀ name ∈ first :: second :: rest, IsFieldName name) :
    let path := first :: second :: rest
    (¬Restarts first → Sets (variableFor path) path) ∧
    (Restarts first → settingOf? (variableFor path) ≠ some (".".intercalate path) ∧
      Sets (variableFor path) (heard first second rest) ∧
      ∀ (tree : Setting) (value : String), ∃ changed,
        Settings.change tree ((heard first second rest).map .field) (.text value) = .ok changed ∧
          changed.valueAt? path = tree.valueAt? path) := by
  intro path
  obtain ⟨hfirst, hlater⟩ := List.forall_mem_cons.1 hnames
  obtain ⟨hsecond, hrest⟩ := List.forall_mem_cons.1 hlater
  have hheard : heard first second rest ≠ [] := by
    unfold heard
    split <;> exact List.cons_ne_nil _ _
  have hsteps := isStep_of_mem_heard hfirst hsecond hrest
  have hsets : Sets (variableFor path) (heard first second rest) :=
    .of_read hheard hsteps (settingOf?_variableFor hfirst hsecond hrest)
  constructor
  · intro hother
    rw [heard_of_not_restarts hfirst hother] at hsets
    exact hsets
  · intro hagain
    have hhead : (heard first second rest).head? ≠ some first :=
      head_heard_of_restarts hfirst hagain
    refine ⟨fun hread => ?_, hsets, fun tree value => ?_⟩
    · have htext := Option.some.inj (hsets.read.symm.trans hread)
      have hpath : SettingPath.ofText? (".".intercalate path) = some (path.map .field) :=
        SettingPath.ofText?_intercalate (List.cons_ne_nil _ _) fun name hname =>
          (hnames name hname).isStep
      rw [← htext, SettingPath.ofText?_intercalate hheard hsteps, Option.some.injEq] at hpath
      have hsame : heard first second rest = path :=
        List.map_injective_iff.2 (fun _ _ hname => PathStep.field.inj hname) hpath
      exact hhead (congrArg List.head? hsame)
    · obtain ⟨changed, hchanged, -, hkept⟩ := hsets.changes tree value
      exact ⟨changed, hchanged, hkept first (second :: rest) hhead⟩

theorem sets_variableFor_replies :
    let path := ["areas", "mod_demo", "notes", "allow_replies"]
    (∀ name ∈ path, IsFieldName name) ∧ ¬Restarts "areas" ∧
      variableFor path = "COMMENTS_AREAS__MOD_DEMO__NOTES__ALLOW_REPLIES" ∧
        Sets (variableFor path) path := by
  intro path
  have hnames : ∀ name ∈ path, IsFieldName name := by decide
  have hother : ¬Restarts "areas" := by decide
  refine ⟨hnames, hother, String.toList_inj.1 ?_, (sets_variableFor hnames).1 hother⟩
  simp only [path, toList_variableFor, String.toUpper, String.toList_map, List.map_cons,
    List.map_nil]
  rfl

/-- The variable for the most comments on a page sets something that nobody reads. -/
theorem settingOf?_maxPageSize : (∀ name ∈ ["comments", "max_page_size"], IsFieldName name) ∧
    variableFor ["comments", "max_page_size"] = "COMMENTS_COMMENTS__MAX_PAGE_SIZE" ∧
      settingOf? (variableFor ["comments", "max_page_size"]) = some "_max_page_size" ∧
        "_max_page_size" ≠ ".".intercalate ["comments", "max_page_size"] := by
  have hnames : ∀ name ∈ ["comments", "max_page_size"], IsFieldName name := by decide
  obtain ⟨hfirst, hlater⟩ := List.forall_mem_cons.1 hnames
  obtain ⟨hsecond, hrest⟩ := List.forall_mem_cons.1 hlater
  have hheard : heard "comments" "max_page_size" [] = ["_max_page_size"] := by
    rw [heard, if_pos]
    · rfl
    · rw [String.toUpper, String.toList_map]
      rfl
  refine ⟨hnames, String.toList_inj.1 ?_, ?_, fun htext => ?_⟩
  · simp only [toList_variableFor, String.toUpper, String.toList_map, List.map_cons, List.map_nil]
    rfl
  · rw [settingOf?_variableFor hfirst hsecond hrest, hheard]
    rfl
  · have hchars := congrArg String.toList htext
    rw [String.toList_intercalate] at hchars
    exact absurd hchars (by decide)

end Names

end Environment

end Discussion
