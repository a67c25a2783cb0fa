import Discussion.Json.Writer
import Discussion.Json.Token
import Discussion.Proofs.Numeral

namespace Discussion.Json

open Text (isDigit unitOf)

theorem unitOf_hexDigit : ∀ n < 0x20,
    unitOf '0' '0' (hexDigit (n / 16)) (hexDigit (n % 16)) = some n := by
  decide

theorem readText_plain {c : Char} (hquote : c ≠ '"') (hslash : c ≠ '\\') (hplain : 0x20 ≤ c.toNat)
    (rest : List Char) : readText (c :: rest) = (readText rest).map fun r => (c :: r.1, r.2) := by
  rw [readText, if_neg]
  · rw [Bool.or_eq_true, decide_eq_true_eq, beq_iff_eq, not_or]
    exact ⟨Nat.not_lt.2 hplain, hslash⟩
  · exact hquote
  · exact fun _ _ _ _ _ h => absurd h hslash
  · exact fun _ _ h => absurd h hslash

theorem readText_escapeChar (c : Char) (rest : List Char) :
    readText (escapeChar c ++ rest) = (readText rest).map fun r => (c :: r.1, r.2) := by
  fun_cases escapeChar c with
  | case8 c _ _ _ _ _ _ _ hcontrol =>
    have hhigh : isHighSurrogate c.toNat = false := by
      rw [isHighSurrogate, Bool.and_eq_false_iff]
      exact .inl (decide_eq_false (by omega))
    have hlow : isLowSurrogate c.toNat = false := by
      rw [isLowSurrogate, Bool.and_eq_false_iff]
      exact .inl (decide_eq_false (by omega))
    simp only [List.cons_append, List.nil_append, readText, unitOf_hexDigit c.toNat hcontrol, hhigh,
      hlow, Char.ofNat_toNat]
    rfl
  | case9 c hquote hslash _ _ _ _ _ hplain =>
    exact readText_plain hquote hslash (Nat.not_lt.1 hplain) rest
  | _ => rfl

theorem readText_escaped (cs rest : List Char) :
    readText (cs.flatMap escapeChar ++ '"' :: rest) = some (cs, rest) := by
  induction cs with
  | nil => rfl
  | cons c cs ih =>
    rw [List.flatMap_cons, List.append_assoc, readText_escapeChar, ih]
    rfl

/-- The tokens that are one character each. -/
inductive Mark : Char → Token → Prop
  | listOpen : Mark '[' .listOpen
  | listClose : Mark ']' .listClose
  | objectOpen : Mark '\x7b' .objectOpen
  | objectClose : Mark '\x7d' .objectClose
  | comma : Mark ',' .comma
  | colon : Mark ':' .colon

theorem tokens_mark {c : Char} {t : Token} (h : Mark c t) (rest : List Char) :
    tokens (c :: rest) = (tokens rest).map (t :: ·) := by
  rw [tokens.eq_def]
  cases h <;> rfl

theorem tokens_null (rest : List Char) :
    tokens ('n' :: 'u' :: 'l' :: 'l' :: rest) = (tokens rest).map (.scalar .null :: ·) := by
  rw [tokens.eq_def]
  rfl

theorem tokens_true (rest : List Char) :
    tokens ('t' :: 'r' :: 'u' :: 'e' :: rest) = (tokens rest).map (.scalar (.bool true) :: ·) := by
  rw [tokens.eq_def]
  rfl

theorem tokens_false (rest : List Char) : tokens ('f' :: 'a' :: 'l' :: 's' :: 'e' :: rest) =
    (tokens rest).map (.scalar (.bool false) :: ·) := by
  rw [tokens.eq_def]
  rfl

theorem tokens_renderText (s : String) (rest : List Char) :
    tokens (renderText s ++ rest) = (tokens rest).map (.scalar (.text s) :: ·) := by
  have hread : readText (s.toList.flatMap escapeChar ++ ['"'] ++ rest) = some (s.toList, rest) := by
    rw [List.append_assoc]
    exact readText_escaped s.toList rest
  rw [renderText, List.cons_append, List.cons_append, tokens.eq_def]
  simp only [show isSpace '"' = false from rfl, Bool.false_eq_true, ↓reduceIte, Char.reduceEq]
  split
  next hnone => cases hnone.symm.trans hread
  next chars after hsome =>
    obtain ⟨rfl, rfl⟩ := Prod.mk.inj (Option.some.inj (hsome.symm.trans hread))
    rw [String.ofList_toList]

/-- A number ends before what is no part of a number. -/
def EndsNumber (rest : List Char) : Prop :=
  ∀ c ∈ rest.head?, isNumberChar c = false

theorem EndsNumber.nil : EndsNumber [] := fun _ h => nomatch h

theorem EndsNumber.cons {c : Char} (h : isNumberChar c = false) (rest : List Char) :
    EndsNumber (c :: rest) := by
  rintro _ ⟨⟩
  exact h

theorem EndsNumber.span {rest : List Char} (h : EndsNumber rest) :
    rest.takeWhile isNumberChar = [] ∧ rest.dropWhile isNumberChar = rest := by
  cases rest with
  | nil => exact ⟨rfl, rfl⟩
  | cons c rest =>
    have hc : ¬isNumberChar c = true := by rw [h c rfl]; exact Bool.false_ne_true
    exact ⟨List.takeWhile_cons_of_neg hc, List.dropWhile_cons_of_neg hc⟩

theorem tokens_number {cs rest : List Char} (hne : cs ≠ []) (hcs : ∀ c ∈ cs, isNumberChar c)
    (hrest : EndsNumber rest) : tokens (cs ++ rest) =
      (ofNumberChars cs).bind fun value => (tokens rest).map (.scalar value :: ·) := by
  obtain ⟨c, cs, rfl⟩ := List.exists_cons_of_ne_nil hne
  obtain ⟨hc, hcs⟩ := List.forall_mem_cons.1 hcs
  have hother {d : Char} (hd : isNumberChar d = false) : c ≠ d := by
    rintro rfl
    cases hc.symm.trans hd
  have hspace : isSpace c = false := by
    simp only [isSpace, Bool.or_eq_false_iff, beq_eq_false_iff_ne]
    exact ⟨⟨⟨hother rfl, hother rfl⟩, hother rfl⟩, hother rfl⟩
  have htake : (cs ++ rest).takeWhile isNumberChar = cs := by
    rw [List.takeWhile_append_of_pos hcs, hrest.span.1, List.append_nil]
  have hdrop : (cs ++ rest).dropWhile isNumberChar = rest := by
    rw [List.dropWhile_append_of_pos hcs, hrest.span.2]
  rw [List.cons_append, tokens.eq_def]
  simp only [hspace, Bool.false_eq_true, ↓reduceIte, hc, htake, hdrop,
    hother (d := '[') rfl, hother (d := ']') rfl, hother (d := '\x7b') rfl,
    hother (d := '\x7d') rfl, hother (d := ',') rfl, hother (d := ':') rfl, hother (d := '"') rfl]
  cases ofNumberChars (c :: cs) <;> rfl

end Discussion.Json
