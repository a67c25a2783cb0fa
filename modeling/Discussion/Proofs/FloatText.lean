import Discussion.Json.Writer
import Discussion.Proofs.NumberReading
import Discussion.Proofs.Shortest

namespace Discussion.Json

open Text (isDigit naturalOf naturalDigits integerDigits)
open Decimal (Numeral Binary zeros digitCount)
open Rounding (ceiling)

namespace NumberText

/-- The parts of a text that is written positionally. -/
def positional (negative : Bool) (d : Numeral) : NumberText :=
  if 0 ≤ d.exponent then
    ⟨negative, naturalDigits d.digits ++ (if d.digits = 0 then [] else zeros d.exponent.toNat),
      some ['0'], none⟩
  else
    let places := (-d.exponent).toNat
    let padded := zeros (places + 1 - (naturalDigits d.digits).length) ++ naturalDigits d.digits
    ⟨negative, padded.take (padded.length - places), some (padded.drop (padded.length - places)),
      none⟩

/-- The parts of a text that is written with an exponent. -/
def scientific (negative : Bool) (d : Numeral) (top : Int) : NumberText :=
  let digits := naturalDigits d.digits
  ⟨negative, digits.take 1, if (digits.drop 1).isEmpty then none else some (digits.drop 1),
    some (top < 0, naturalDigits top.natAbs)⟩

theorem toChars_positional (negative : Bool) (d : Numeral) :
    (positional negative d).toChars =
      (if negative then ['-'] else []) ++ numberLayout.positional d := by
  unfold positional Decimal.Layout.positional
  split
  · simp only [toChars, fractionChars, exponentChars, List.append_nil, List.append_assoc,
      numberLayout, ↓reduceIte]
  · simp only [toChars, fractionChars, exponentChars, List.append_nil, List.append_assoc,
      List.cons_append, List.nil_append]

theorem toChars_scientific (negative : Bool) (d : Numeral) (top : Int) :
    (scientific negative d top).toChars =
      (if negative then ['-'] else []) ++ numberLayout.scientific d top := by
  have hexponent : exponentChars (some (decide (top < 0), naturalDigits top.natAbs)) =
      ['e'] ++ ((if numberLayout.expPlus && 0 ≤ top then ['+'] else []) ++ integerDigits top) := by
    unfold integerDigits
    rcases Int.lt_or_le top 0 with hneg | hpos
    · simp [exponentChars, hneg, Int.not_le.2 hneg]
    · simp [exponentChars, hpos, Int.not_lt.2 hpos, numberLayout]
  have hfraction (digits : List Char) : fractionChars (if digits.isEmpty then none else some digits)
      = if digits.isEmpty then [] else '.' :: digits := by
    split <;> rfl
  simp only [toChars, scientific, Decimal.Layout.scientific, hexponent, hfraction,
    List.append_assoc]
  rfl

theorem isDigit_of_mem_zeros {n : Nat} {c : Char} (h : c ∈ zeros n) : isDigit c := by
  rw [(List.mem_replicate.1 h).2]
  rfl

variable (negative : Bool) {d : Numeral}

theorem valid_integral (hexp : 0 ≤ d.exponent) : (positional negative d).Valid := by
  unfold positional
  rw [if_pos hexp]
  constructor
  · constructor
    · exact List.append_ne_nil_of_left_ne_nil (Text.naturalDigits_ne_nil _) _
    · intro c hc
      rcases List.mem_append.1 hc with hdigit | hzero
      · exact Text.isDigit_of_mem_naturalDigits hdigit
      · split at hzero
        · cases hzero
        · exact isDigit_of_mem_zeros hzero
  · intro hlength
    dsimp only at hlength ⊢
    rw [List.head?_append_of_ne_nil _ (Text.naturalDigits_ne_nil _)]
    apply Text.head_naturalDigits
    intro hzero
    rw [hzero] at hlength
    exact absurd hlength (by decide : ¬1 < (naturalDigits 0 ++ []).length)
  · rintro _ ⟨⟩
    refine ⟨List.cons_ne_nil _ _, fun c hc => ?_⟩
    rw [List.mem_singleton.1 hc]
    rfl
  · exact fun _ h => nomatch h

theorem length_naturalDigits_zero : (naturalDigits 0).length = 1 := by
  decide

theorem naturalOf_integral (hexp : 0 ≤ d.exponent) :
    naturalOf (positional negative d).whole = d.digits * 10 ^ d.exponent.toNat := by
  unfold positional
  rw [if_pos hexp, Text.naturalOf_eq, Nat.ofDigitChars_append, ← Text.naturalOf_eq,
    Text.naturalOf_naturalDigits]
  split
  next hzero => rw [hzero, Nat.zero_mul]; rfl
  · rw [zeros, Nat.ofDigitChars_replicate_zero, Nat.mul_comm]

theorem read_integral (hexp : 0 ≤ d.exponent)
    (hplain : d.digits = 0 ∨ d.exponent + (naturalDigits d.digits).length ≤ 16)
    (hd : d.AtMost ceiling) : (positional negative d).toFloat.isSome := by
  have hvalue := naturalOf_integral negative hexp
  have hparts : (positional negative d).fraction = some ['0'] ∧
      (positional negative d).exponent = none := by
    unfold positional
    rw [if_pos hexp]
    exact ⟨rfl, rfl⟩
  apply toFloat_isSome
  · refine (Text.naturalOf_lt (valid_integral negative hexp).whole.2).trans_le ?_
    have hshort : (positional negative d).whole.length ≤ 16 := by
      unfold positional
      rw [if_pos hexp, List.length_append]
      split
      next hzero => rw [hzero, length_naturalDigits_zero]; decide
      next hne => rw [zeros, List.length_replicate]; omega
    exact (Nat.pow_le_pow_right (by decide) hshort).trans (by decide)
  · rw [scale, hparts.2]
    decide
  · rw [digits, scale, hparts.1, hparts.2, Text.naturalOf_eq, Option.getD_some,
      Nat.ofDigitChars_append, ← Text.naturalOf_eq, hvalue, ofDigitChars_cons,
      Nat.ofDigitChars_nil, List.length_singleton, Nat.pow_one, Nat.pow_zero,
      show Text.digitValue '0' = 0 from rfl]
    unfold Numeral.AtMost at hd
    rw [Int.toNat_of_nonpos (by omega : -d.exponent ≤ 0), Nat.pow_zero, Nat.mul_one] at hd
    omega

/-- The digits of a number below one, with the zeros that stand before them. -/
def padded (d : Numeral) : List Char :=
  zeros ((-d.exponent).toNat + 1 - (naturalDigits d.digits).length) ++ naturalDigits d.digits

theorem length_padded : (padded d).length =
    max ((-d.exponent).toNat + 1) (naturalDigits d.digits).length := by
  rw [padded, List.length_append, zeros, List.length_replicate]
  omega

theorem isDigit_of_mem_padded {c : Char} (h : c ∈ padded d) : isDigit c := by
  rcases List.mem_append.1 h with hzero | hdigit
  · exact isDigit_of_mem_zeros hzero
  · exact Text.isDigit_of_mem_naturalDigits hdigit

theorem naturalOf_padded : naturalOf (padded d) = d.digits := by
  rw [Text.naturalOf_eq, padded, Nat.ofDigitChars_append, zeros, Nat.ofDigitChars_replicate_zero,
    Nat.mul_zero, ← Text.naturalOf_eq, Text.naturalOf_naturalDigits]

theorem positional_fractional (hexp : d.exponent < 0) : positional negative d =
    ⟨negative, (padded d).take ((padded d).length - (-d.exponent).toNat),
      some ((padded d).drop ((padded d).length - (-d.exponent).toNat)), none⟩ := by
  unfold positional
  rw [if_neg (Int.not_le.2 hexp)]
  rfl

theorem valid_fractional (hexp : d.exponent < 0) : (positional negative d).Valid := by
  have hlength := length_padded (d := d)
  rw [positional_fractional negative hexp]
  constructor
  · refine ⟨List.ne_nil_of_length_pos ?_, fun c hc => ?_⟩
    · rw [List.length_take]
      omega
    · exact isDigit_of_mem_padded (List.mem_of_mem_take hc)
  · intro hmore
    dsimp only at hmore ⊢
    rw [List.length_take] at hmore
    -- There is more than one digit before the point only where no zeros were put before them.
    have hnone : (-d.exponent).toNat + 1 - (naturalDigits d.digits).length = 0 := by omega
    rw [List.head?_take, if_neg (by omega), padded, hnone]
    apply Text.head_naturalDigits
    intro hzero
    rw [hzero, length_naturalDigits_zero] at hlength
    omega
  · rintro _ ⟨⟩
    refine ⟨List.ne_nil_of_length_pos ?_, fun c hc => ?_⟩
    · rw [List.length_drop]
      omega
    · exact isDigit_of_mem_padded (List.mem_of_mem_drop hc)
  · exact fun _ h => nomatch h

theorem read_fractional (hexp : d.exponent < 0)
    (hplain : d.digits = 0 ∨ d.exponent + (naturalDigits d.digits).length ≤ 16)
    (hd : d.AtMost ceiling) : (positional negative d).toFloat.isSome := by
  have hvalid := valid_fractional negative hexp
  have hlength := length_padded (d := d)
  rw [positional_fractional negative hexp] at hvalid ⊢
  apply toFloat_isSome
  · refine (Text.naturalOf_lt hvalid.whole.2).trans_le ?_
    have hshort : ((padded d).take ((padded d).length - (-d.exponent).toNat)).length ≤ 16 := by
      rw [List.length_take]
      rcases hplain with hzero | hplain
      · rw [hzero, length_naturalDigits_zero] at hlength
        omega
      · omega
    exact (Nat.pow_le_pow_right (by decide) hshort).trans (by decide)
  · exact (by decide : 0 < 309)
  · dsimp only [digits, scale, Option.getD_some]
    rw [Nat.pow_zero, List.take_append_drop, naturalOf_padded, List.length_drop,
      Nat.sub_sub_self (by omega), Nat.mul_one]
    unfold Numeral.AtMost at hd
    rwa [Int.toNat_of_nonpos (Int.le_of_lt hexp), Nat.pow_zero, Nat.mul_one] at hd

variable (d) (top : Int)

theorem fraction_scientific : (scientific negative d top).fraction.getD [] =
    (naturalDigits d.digits).drop 1 := by
  unfold scientific
  dsimp only
  split
  next hempty => exact (List.isEmpty_iff.1 hempty).symm
  · rfl

theorem digits_scientific : (scientific negative d top).digits = naturalDigits d.digits := by
  rw [digits, fraction_scientific negative d top]
  exact List.take_append_drop 1 _

theorem valid_scientific : (scientific negative d top).Valid := by
  have hdigit {c : Char} (hc : c ∈ naturalDigits d.digits) : isDigit c :=
    Text.isDigit_of_mem_naturalDigits hc
  have hlength := Text.length_naturalDigits_pos d.digits
  constructor
  · refine ⟨List.ne_nil_of_length_pos ?_, fun c hc => hdigit (List.mem_of_mem_take hc)⟩
    rw [scientific, List.length_take]
    omega
  · intro hmore
    rw [scientific, List.length_take] at hmore
    omega
  · intro digits hdigits
    dsimp only [scientific] at hdigits
    split at hdigits
    · cases hdigits
    next hne =>
      cases hdigits
      exact ⟨mt List.isEmpty_iff.2 hne, fun c hc => hdigit (List.mem_of_mem_drop hc)⟩
  · rintro _ ⟨⟩
    exact ⟨Text.naturalDigits_ne_nil _, fun c hc => Text.isDigit_of_mem_naturalDigits hc⟩

theorem scale_scientific : (scientific negative d top).scale = top.toNat := by
  unfold scale scientific
  dsimp only
  rcases Int.lt_or_le top 0 with hneg | hpos
  · rw [decide_eq_true hneg, Int.toNat_of_nonpos (Int.le_of_lt hneg)]
  · rw [decide_eq_false (Int.not_lt.2 hpos)]
    dsimp only
    rw [Text.naturalOf_naturalDigits]
    omega

variable {d} {top}

theorem scaled_scientific {n : Nat} (htop : top = d.exponent + n)
    (hlength : (naturalDigits d.digits).length = n + 1) (hd : d.AtMost ceiling) :
    d.digits * 10 ^ top.toNat ≤ ceiling * 10 ^ n := by
  unfold Numeral.AtMost at hd
  rcases Int.lt_or_le top 0 with hneg | hpos
  · have hdigits := Text.lt_pow_length_naturalDigits d.digits
    rw [hlength, Nat.pow_succ, Nat.mul_comm] at hdigits
    rw [Int.toNat_of_nonpos (Int.le_of_lt hneg), Nat.pow_zero, Nat.mul_one]
    have hten : 10 ≤ ceiling := Nat.le_trans (by decide) (Nat.le_of_lt two_pow_lt_ceiling)
    exact (Nat.le_of_lt hdigits).trans (Nat.mul_le_mul_right _ hten)
  · have hpow : top.toNat + (-d.exponent).toNat = d.exponent.toNat + n := by omega
    refine Nat.le_of_mul_le_mul_right ?_ (Nat.pow_pos (by decide) : 0 < 10 ^ (-d.exponent).toNat)
    calc d.digits * 10 ^ top.toNat * 10 ^ (-d.exponent).toNat
        = d.digits * 10 ^ d.exponent.toNat * 10 ^ n := by
          rw [Nat.mul_assoc, ← Nat.pow_add, hpow, Nat.pow_add, Nat.mul_assoc]
      _ ≤ ceiling * 10 ^ (-d.exponent).toNat * 10 ^ n := Nat.mul_le_mul_right _ hd
      _ = ceiling * 10 ^ n * 10 ^ (-d.exponent).toNat := Nat.mul_right_comm _ _ _

theorem read_scientific (hne : d.digits ≠ 0)
    (htop : top = d.exponent + (naturalDigits d.digits).length - 1) (hd : d.AtMost ceiling) :
    (scientific negative d top).toFloat.isSome := by
  have hpos := Text.length_naturalDigits_pos d.digits
  obtain ⟨n, hn⟩ : ∃ n, (naturalDigits d.digits).length = n + 1 :=
    ⟨(naturalDigits d.digits).length - 1, by omega⟩
  have htop : top = d.exponent + n := by omega
  have hscaled := scaled_scientific htop hn hd
  apply toFloat_isSome
  · have hlt := Text.naturalOf_lt (valid_scientific negative d top).whole.2
    refine hlt.trans_le ((Nat.pow_le_pow_right (by decide) ?_).trans (by decide : 10 ^ 1 ≤ 2 ^ 64))
    rw [scientific, List.length_take]
    omega
  · rw [scale_scientific]
    have hlow := Text.pow_length_naturalDigits_le hne
    rw [hn, Nat.add_sub_cancel] at hlow
    have hle : 10 ^ n * 10 ^ top.toNat ≤ 10 ^ n * ceiling :=
      (Nat.mul_le_mul_right _ hlow).trans (hscaled.trans_eq (Nat.mul_comm _ _))
    exact lt_of_pow_le_ceiling (Nat.le_of_mul_le_mul_left hle (Nat.pow_pos (by decide)))
  · rw [digits_scientific, scale_scientific, fraction_scientific, Text.naturalOf_naturalDigits,
      List.length_drop, hn]
    exact hscaled

theorem decimal_parts (d : Numeral) : ∃ t : NumberText, t.Valid ∧
    t.toChars = (if negative then ['-'] else []) ++ numberLayout.decimal d ∧
    (t.fraction.isSome ∨ t.exponent.isSome) ∧ (d.AtMost ceiling → t.toFloat.isSome) := by
  have hcount (hne : d.digits ≠ 0) : digitCount d.digits = (naturalDigits d.digits).length :=
    if_neg hne
  obtain ⟨top, htop⟩ : ∃ top, top = d.exponent + (digitCount d.digits : Int) - 1 := ⟨_, rfl⟩
  have hdecimal : numberLayout.decimal d = if d.digits = 0 || numberLayout.isPlain top then
      numberLayout.positional d else numberLayout.scientific d top := by
    rw [htop]
    rfl
  rw [hdecimal]
  by_cases hplain : (d.digits = 0 || numberLayout.isPlain top) = true
  · rw [if_pos hplain]
    have hshort : d.digits = 0 ∨ d.exponent + (naturalDigits d.digits).length ≤ 16 := by
      rw [Bool.or_eq_true, decide_eq_true_eq] at hplain
      by_cases hzero : d.digits = 0
      · exact .inl hzero
      · have hbelow := hplain.resolve_left hzero
        simp only [Decimal.Layout.isPlain, numberLayout, Bool.and_eq_true,
          decide_eq_true_eq] at hbelow
        rw [hcount hzero] at htop
        exact .inr (by omega)
    rcases Int.lt_or_le d.exponent 0 with hneg | hpos
    · refine ⟨_, valid_fractional negative hneg, toChars_positional negative d, ?_,
        read_fractional negative hneg hshort⟩
      rw [positional_fractional negative hneg]
      exact .inl rfl
    · refine ⟨_, valid_integral negative hpos, toChars_positional negative d, ?_,
        read_integral negative hpos hshort⟩
      unfold positional
      rw [if_pos hpos]
      exact .inl rfl
  · rw [if_neg hplain]
    have hne : d.digits ≠ 0 := fun hzero => hplain (by rw [hzero]; rfl)
    rw [hcount hne] at htop
    exact ⟨_, valid_scientific negative d top, toChars_scientific negative d top, .inr rfl,
      read_scientific negative hne htop⟩

end NumberText

theorem atMost_of_exponent {b : Binary} (hm : b.mantissa < 2 ^ 53) (he : b.exponent ≤ 970) :
    b.AtMost ceiling := by
  obtain ⟨k, hk, hceiling⟩ : ∃ k, k = 968 ∧ 2 ^ 55 * 2 ^ k ≤ ceiling := ⟨_, rfl, by decide +kernel⟩
  calc (4 * b.mantissa + 2) * 2 ^ (b.exponent - 2).toNat ≤ 2 ^ 55 * 2 ^ k :=
        Nat.mul_le_mul (by omega) (Nat.pow_le_pow_right (by decide) (by omega))
    _ ≤ ceiling := hceiling
    _ ≤ ceiling * 2 ^ (-(b.exponent - 2)).toNat := Nat.le_mul_of_pos_right _ (Nat.two_pow_pos _)

theorem ofBits_atMost {bits : Nat} (h : bits % 2 ^ 63 < 0x7FEFFFFFFFFFFFFF) :
    (Binary.ofBits bits).AtMost ceiling := by
  have hparts : bits % 2 ^ 63 = bits / 2 ^ 52 % 2 ^ 11 * 2 ^ 52 + bits % 2 ^ 52 := by omega
  unfold Binary.ofBits
  dsimp only
  generalize bits / 2 ^ 52 % 2 ^ 11 = biased at hparts
  generalize hfraction : bits % 2 ^ 52 = fraction at hparts
  split
  · apply atMost_of_exponent
    · dsimp only
      omega
    · exact (by decide : (-1074 : Int) ≤ 970)
  · rcases Nat.lt_or_ge biased 2046 with hlt | hge
    · apply atMost_of_exponent
      · dsimp only
        omega
      · dsimp only
        omega
    · -- At the greatest exponent only the largest number goes beyond the ceiling.
      obtain rfl : biased = 2046 := by omega
      obtain ⟨k, hk, hceiling⟩ : ∃ k : Nat, (k : Int) = 969 ∧ (2 ^ 55 - 6) * 2 ^ k ≤ ceiling * 1 :=
        ⟨969, rfl, by decide +kernel⟩
      have hmantissa : 4 * (2 ^ 52 + fraction) + 2 ≤ 2 ^ 55 - 6 := by omega
      change _ * 2 ^ (((2046 : Nat) : Int) - 1075 - 2).toNat ≤ ceiling * 2 ^ _
      rw [show (((2046 : Nat) : Int) - 1075 - 2).toNat = k by omega]
      exact (Nat.mul_le_mul_right _ hmantissa).trans hceiling

theorem NumberText.Valid.ofNumberChars_toChars {t : NumberText} (h : t.Valid)
    (hfloat : t.fraction.isSome ∨ t.exponent.isSome) :
    ofNumberChars t.toChars = t.toFloat.map .float := by
  rw [ofNumberChars, h.ofChars_toChars, Option.bind_some]
  dsimp only
  rw [if_neg]
  intro hinteger
  simp only [Bool.and_eq_true, Option.isNone_iff_eq_none] at hinteger
  rcases hfloat with hsome | hsome
  · rw [hinteger.1.1.1.1] at hsome
    cases hsome
  · rw [hinteger.1.1.1.2] at hsome
    cases hsome

/-- The largest float and its negative are read, though they are too large for the ceiling. -/
theorem read_largest {x : Float} (hnan : x.isNaN = false) (hinf : x.isInf = false)
    (h : x.toBits.toNat % 2 ^ 63 = 0x7FEFFFFFFFFFFFFF) :
    (ofNumberChars (numberLayout.float x)).isSome := by
  have hbits : x.toBits.toNat = 0x7FEFFFFFFFFFFFFF ∨ x.toBits.toNat = 0xFFEFFFFFFFFFFFFF := by
    have hlt := x.toBits.toNat_lt
    omega
  unfold Decimal.Layout.float
  rcases hbits with hbits | hbits
  · rw [hbits, hnan, hinf]
    decide +kernel
  · rw [hbits, hnan, hinf]
    decide +kernel

/-- The text of a finite float is a number that is read as a float. -/
theorem float_parts {x : Float} (hnan : x.isNaN = false) (hinf : x.isInf = false) :
    ∃ t : NumberText, t.Valid ∧ t.toChars = numberLayout.float x ∧
      ∃ y, ofNumberChars t.toChars = some (.float y) := by
  have hexponent := Rounding.exponent_lt_of_finite hnan hinf
  obtain ⟨t, hvalid, hchars, hfloat, hread⟩ := NumberText.decimal_parts
    (x.toBits.toNat / 2 ^ 63 = 1) (Decimal.shortest numberLayout.tie (Binary.ofBits x.toBits.toNat))
  have hchars : t.toChars = numberLayout.float x := by
    rw [hchars, Decimal.Layout.float]
    simp only [hnan, hinf, Bool.false_eq_true, ↓reduceIte, decide_eq_true_eq]
  have hnumber := hvalid.ofNumberChars_toChars hfloat
  have hsome : t.toFloat.isSome := by
    rcases Nat.lt_or_ge (x.toBits.toNat % 2 ^ 63) 0x7FEFFFFFFFFFFFFF with hlt | hge
    · exact hread (Decimal.shortest_atMost (ofBits_atMost hlt) _)
    · have hlargest := read_largest hnan hinf (by omega)
      rwa [← hchars, hnumber, Option.isSome_map] at hlargest
  obtain ⟨y, hy⟩ := Option.isSome_iff_exists.1 hsome
  exact ⟨t, hvalid, hchars, y, by rw [hnumber, hy]; rfl⟩

end Discussion.Json
