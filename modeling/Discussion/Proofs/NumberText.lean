import Discussion.Json.Token
import Discussion.Proofs.Numeral

namespace Discussion.Json

open Text (isDigit naturalOf naturalDigits integerDigits)

namespace NumberText

variable {t : NumberText}

/-- The sign before a number. -/
def signOf : List Char → Bool × List Char
  | '-' :: rest => (true, rest)
  | cs => (false, cs)

/-- The digits after the point, where there is one. -/
def fractionOf : List Char → Option (List Char) × List Char
  | '.' :: rest => (some (rest.takeWhile isDigit), rest.dropWhile isDigit)
  | cs => (none, cs)

/-- The sign and the digits of an exponent. -/
def exponentSignOf : List Char → Bool × List Char
  | '+' :: rest => (false, rest)
  | '-' :: rest => (true, rest)
  | cs => (false, cs)

/-- The parts of a number's text, if it is one. -/
def partsOf (cs : List Char) : Option NumberText :=
  let (negative, cs) := signOf cs
  let whole := cs.takeWhile isDigit
  if whole.isEmpty || (whole.length > 1 && whole.head? == some '0') then none
  else
    let (fraction, rest) := fractionOf (cs.dropWhile isDigit)
    if fraction == some [] then none
    else match rest with
      | [] => some ⟨negative, whole, fraction, none⟩
      | c :: rest =>
        if c = 'e' ∨ c = 'E' then
          if (exponentSignOf rest).2.isEmpty || !(exponentSignOf rest).2.all isDigit then none
          else some ⟨negative, whole, fraction, some (exponentSignOf rest)⟩
        else none

theorem ofChars_eq (cs : List Char) : ofChars cs = partsOf cs := rfl

theorem span_digits {digits rest : List Char} (hdigits : ∀ c ∈ digits, isDigit c)
    (hrest : ∀ c ∈ rest.head?, isDigit c = false) :
    (digits ++ rest).takeWhile isDigit = digits ∧ (digits ++ rest).dropWhile isDigit = rest := by
  rw [List.takeWhile_append_of_pos hdigits, List.dropWhile_append_of_pos hdigits]
  cases rest with
  | nil => exact ⟨List.append_nil digits, rfl⟩
  | cons c rest =>
    have hc : ¬isDigit c = true := by rw [hrest c rfl]; exact Bool.false_ne_true
    rw [List.takeWhile_cons_of_neg hc, List.dropWhile_cons_of_neg hc]
    exact ⟨List.append_nil digits, rfl⟩

def fractionChars : Option (List Char) → List Char
  | none => []
  | some digits => '.' :: digits

def exponentChars : Option (Bool × List Char) → List Char
  | none => []
  | some (minus, digits) => 'e' :: (if minus then '-' else '+') :: digits

theorem signOf_digits {c : Char} (hc : isDigit c) (cs : List Char) :
    signOf (c :: cs) = (false, c :: cs) := by
  unfold signOf
  split
  next h =>
    obtain ⟨rfl, -⟩ := List.cons.inj h
    cases hc
  · rfl

theorem fractionOf_chars {fraction : Option (List Char)}
    (hfraction : ∀ digits ∈ fraction, ∀ c ∈ digits, isDigit c)
    (exponent : Option (Bool × List Char)) :
    fractionOf (fractionChars fraction ++ exponentChars exponent) =
      (fraction, exponentChars exponent) := by
  have hend : ∀ c ∈ (exponentChars exponent).head?, isDigit c = false := by
    cases exponent with
    | none => exact fun _ h => nomatch h
    | some e => rintro _ ⟨⟩; rfl
  cases fraction with
  | none => cases exponent <;> rfl
  | some digits =>
    have hspan := span_digits (hfraction digits rfl) hend
    exact congrArg₂ (fun a b => (some a, b)) hspan.1 hspan.2

theorem exponentSignOf_chars (minus : Bool) (digits : List Char) :
    exponentSignOf ((if minus then '-' else '+') :: digits) = (minus, digits) := by
  cases minus <;> rfl

/-- A number's text from its parts. -/
def toChars (t : NumberText) : List Char :=
  (if t.negative then ['-'] else []) ++
    (t.whole ++ (fractionChars t.fraction ++ exponentChars t.exponent))

/-- The parts of a number's text as they have to be. -/
structure Valid (t : NumberText) : Prop where
  whole : t.whole ≠ [] ∧ ∀ c ∈ t.whole, isDigit c
  leading : 1 < t.whole.length → t.whole.head? ≠ some '0'
  fraction : ∀ digits ∈ t.fraction, digits ≠ [] ∧ ∀ c ∈ digits, isDigit c
  exponent : ∀ e ∈ t.exponent, e.2 ≠ [] ∧ ∀ c ∈ e.2, isDigit c

theorem Valid.signOf_toChars (h : t.Valid) : signOf t.toChars =
    (t.negative, t.whole ++ (fractionChars t.fraction ++ exponentChars t.exponent)) := by
  unfold toChars
  cases t.negative with
  | true => rfl
  | false =>
    obtain ⟨d, ds, hd⟩ := List.exists_cons_of_ne_nil h.whole.1
    have hdigit := h.whole.2 d (hd ▸ List.mem_cons_self)
    rw [hd]
    exact signOf_digits hdigit _

theorem Valid.ofChars_toChars (h : t.Valid) : ofChars t.toChars = some t := by
  have hend : ∀ c ∈ (fractionChars t.fraction ++ exponentChars t.exponent).head?,
      isDigit c = false := by
    cases t.fraction with
    | some digits => rintro _ ⟨⟩; rfl
    | none =>
      cases t.exponent with
      | some e => rintro _ ⟨⟩; rfl
      | none => exact fun _ hc => nomatch hc
  have hspan := span_digits h.whole.2 hend
  have hfraction := fractionOf_chars (fun digits hd => (h.fraction digits hd).2) t.exponent
  have hleading :
      (t.whole.isEmpty || (t.whole.length > 1 && t.whole.head? == some '0')) = false := by
    rw [Bool.or_eq_false_iff, List.isEmpty_eq_false_iff, Bool.and_eq_false_imp,
      decide_eq_true_eq, beq_eq_false_iff_ne]
    exact ⟨h.whole.1, h.leading⟩
  have hsome : (t.fraction == some []) = false :=
    beq_eq_false_iff_ne.2 fun hnil => (h.fraction [] hnil).1 rfl
  simp only [ofChars_eq, partsOf, h.signOf_toChars, hspan, hfraction, hleading, hsome,
    Bool.false_eq_true, ↓reduceIte]
  obtain ⟨negative, whole, fraction, exponent⟩ := t
  cases exponent with
  | none => rfl
  | some e =>
    obtain ⟨hne, hdigits⟩ := h.exponent e rfl
    have hall : (e.2.isEmpty || !e.2.all isDigit) = false := by
      rw [Bool.or_eq_false_iff, List.isEmpty_eq_false_iff, Bool.not_eq_false', List.all_eq_true]
      exact ⟨hne, hdigits⟩
    simp only [exponentChars, exponentSignOf_chars, true_or, ↓reduceIte, hall, Bool.false_eq_true]

theorem isNumberChar_of_isDigit {c : Char} (h : isDigit c) : isNumberChar c := by
  simp only [isNumberChar, h, Bool.true_or]

theorem Valid.isNumberChar (h : t.Valid) {c : Char} (hc : c ∈ t.toChars) : isNumberChar c := by
  obtain ⟨negative, whole, fraction, exponent⟩ := t
  simp only [toChars, List.mem_append] at hc
  rcases hc with hsign | hwhole | hfraction | hexponent
  · split at hsign
    · rw [List.mem_singleton.1 hsign]
      rfl
    · cases hsign
  · exact isNumberChar_of_isDigit (h.whole.2 c hwhole)
  · cases fraction with
    | none => cases hfraction
    | some digits =>
      rcases List.mem_cons.1 hfraction with rfl | hmem
      · rfl
      · exact isNumberChar_of_isDigit ((h.fraction digits rfl).2 c hmem)
  · cases exponent with
    | none => cases hexponent
    | some e =>
      rcases List.mem_cons.1 hexponent with rfl | hmem
      · rfl
      · rcases List.mem_cons.1 hmem with rfl | hmem
        · split <;> rfl
        · exact isNumberChar_of_isDigit ((h.exponent e rfl).2 c hmem)

theorem Valid.toChars_ne_nil (h : t.Valid) : t.toChars ≠ [] := by
  intro hnil
  have hwhole := (List.append_eq_nil_iff.1 (List.append_eq_nil_iff.1 hnil).2).1
  exact h.whole.1 hwhole

/-- The parts of an integer's text. -/
def ofInt (n : Int) : NumberText :=
  ⟨n < 0, naturalDigits n.natAbs, none, none⟩

theorem toChars_ofInt (n : Int) : (ofInt n).toChars = integerDigits n := by
  simp only [toChars, ofInt, integerDigits, fractionChars, exponentChars, List.append_nil,
    decide_eq_true_eq]
  split
  · rfl
  · rfl

theorem valid_ofInt (n : Int) : (ofInt n).Valid where
  whole := ⟨Text.naturalDigits_ne_nil _, fun _ => Text.isDigit_of_mem_naturalDigits⟩
  leading := by
    intro hlength
    apply Text.head_naturalDigits
    intro hzero
    rw [ofInt, hzero] at hlength
    exact absurd hlength (by decide : ¬1 < (naturalDigits 0).length)
  fraction := fun _ h => nomatch h
  exponent := fun _ h => nomatch h

end NumberText

theorem ofNumberChars_integerDigits {n : Int} (hmin : minInteger ≤ n) (hmax : n ≤ maxInteger) :
    ofNumberChars (integerDigits n) = some (.int n) := by
  have hvalue : (if (NumberText.ofInt n).negative then
      -(naturalOf (NumberText.ofInt n).whole : Int) else naturalOf (NumberText.ofInt n).whole) =
        n := by
    simp only [NumberText.ofInt, Text.naturalOf_naturalDigits, decide_eq_true_eq]
    split <;> omega
  rw [ofNumberChars, ← NumberText.toChars_ofInt, (NumberText.valid_ofInt n).ofChars_toChars,
    Option.bind_some]
  dsimp only
  rw [hvalue, if_pos]
  have hsign : 0 ≤ n ∨ n ≠ 0 := by omega
  simpa [NumberText.ofInt, hmin, hmax, Text.naturalOf_naturalDigits] using hsign

end Discussion.Json
