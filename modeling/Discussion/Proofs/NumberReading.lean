import Discussion.Proofs.NumberText
import Discussion.Proofs.Rounding

namespace Discussion.Json

open Text (isDigit digitValue naturalOf naturalDigits)
open Rounding (ceiling)

theorem lt_of_pow_le_ceiling {n : Nat} (h : 10 ^ n ≤ ceiling) : n < 309 := by
  have hceiling : ∀ k, k = 309 → ceiling < 10 ^ k := by
    rintro k rfl
    decide +kernel
  obtain ⟨k, hk⟩ : ∃ k, k = 309 := ⟨_, rfl⟩
  by_contra hn
  have htens := Nat.pow_le_pow_right (n := 10) (by decide) (by omega : k ≤ n)
  exact Nat.lt_irrefl _ ((htens.trans h).trans_lt (hceiling k hk))

theorem two_pow_lt_ceiling : 2 ^ 64 < ceiling := by
  decide +kernel

theorem scaleTen_down {x : Float} {e : Int} (he : e < 0) (fuel : Nat) :
    (scaleTen x e fuel).isSome := by
  induction fuel generalizing x e with
  | zero => rfl
  | succ fuel ih =>
    unfold scaleTen
    dsimp only
    split
    · rw [if_neg (Int.not_le.2 he)]
      rfl
    next hlarge =>
      split
      · rfl
      · rw [if_neg (Int.not_le.2 he)]
        exact ih (by omega)

theorem scaleTen_isSome {digits : Nat} {e : Int} (hdigits : digits < 2 ^ 64) (he : e < 309)
    (h : 0 ≤ e → digits * 10 ^ e.toNat ≤ ceiling) (fuel : Nat) :
    (scaleTen digits.toUInt64.toFloat e (fuel + 1)).isSome := by
  rcases Int.lt_or_le e 0 with hneg | hpos
  · exact scaleTen_down hneg _
  · obtain ⟨n, rfl⟩ := Int.eq_ofNat_of_zero_le hpos
    have hfinite := Rounding.isInf_scaled (d := digits.toUInt64) (e := n) (by omega) (by
      rw [Nat.toUInt64, UInt64.toNat_ofNat_of_lt' hdigits]
      exact h hpos)
    unfold scaleTen
    simp only [Int.natAbs_natCast, hpos, ↓reduceIte, hfinite, Bool.false_eq_true]
    rw [if_pos (by omega)]
    rfl

theorem ofDigitChars_cons (c : Char) (cs : List Char) (n : Nat) :
    Nat.ofDigitChars 10 (c :: cs) n = Nat.ofDigitChars 10 cs (10 * n + digitValue c) :=
  Nat.ofDigitChars_cons

theorem significand_le (n : Nat) (cs : List Char) (hn : n < 2 ^ 64) :
    (significand n cs).1 * 10 ^ (significand n cs).2 ≤ Nat.ofDigitChars 10 cs n ∧
      (significand n cs).2 ≤ cs.length ∧ (significand n cs).1 < 2 ^ 64 := by
  induction cs generalizing n with
  | nil => exact ⟨Nat.le_of_eq (Nat.mul_one n), Nat.le_refl 0, hn⟩
  | cons c cs ih =>
    rw [ofDigitChars_cons]
    unfold significand
    split
    next hfits =>
      obtain ⟨hle, hleft, hlt⟩ := ih _ hfits
      exact ⟨hle, hleft.trans (Nat.le_succ _), hlt⟩
    · refine ⟨?_, Nat.le_refl _, hn⟩
      rw [Nat.ofDigitChars_eq_ofDigitChars_zero, Nat.pow_succ, Nat.mul_left_comm n, Nat.mul_comm n]
      have := Nat.mul_le_mul_left (10 ^ cs.length) (Nat.le_add_right (10 * n) (digitValue c))
      omega

theorem significand_all {n : Nat} {cs : List Char} (h : Nat.ofDigitChars 10 cs n < 2 ^ 64) :
    significand n cs = (Nat.ofDigitChars 10 cs n, 0) := by
  induction cs generalizing n with
  | nil => rfl
  | cons c cs ih =>
    rw [ofDigitChars_cons] at h ⊢
    have hle : 10 * n + digitValue c ≤
        Nat.ofDigitChars 10 cs (10 * n + digitValue c) := by
      rw [Nat.ofDigitChars_eq_ofDigitChars_zero]
      exact (Nat.le_mul_of_pos_left _ (Nat.pow_pos (by decide))).trans (Nat.le_add_right _ _)
    unfold significand
    rw [if_pos (hle.trans_lt h)]
    exact ih h

namespace NumberText

variable {t : NumberText}

/-- All digits of a number. -/
def digits (t : NumberText) : List Char :=
  t.whole ++ t.fraction.getD []

/-- The power of ten by which the exponent makes a number larger. -/
def scale (t : NumberText) : Nat :=
  match t.exponent with
  | some (false, es) => naturalOf es
  | _ => 0

/-- A number that is small enough before it is rounded is read. -/
theorem toFloat_isSome (hwhole : naturalOf t.whole < 2 ^ 64) (hscale : t.scale < 309)
    (hvalue : naturalOf t.digits * 10 ^ t.scale ≤ ceiling * 10 ^ (t.fraction.getD []).length) :
    t.toFloat.isSome := by
  rw [Text.naturalOf_eq] at hwhole
  obtain ⟨hle, hleft, hlt⟩ := significand_le _ (t.fraction.getD []) hwhole
  rw [digits, Text.naturalOf_eq, Nat.ofDigitChars_append] at hvalue
  unfold toFloat
  rw [significand_all hwhole]
  dsimp only
  generalize significand (Nat.ofDigitChars 10 t.whole 0) (t.fraction.getD []) = taken at *
  generalize (t.fraction.getD []).length = places at *
  obtain ⟨digits, left⟩ := taken
  dsimp only at hle hleft hlt ⊢
  have hbelow (e : Int) (he : 0 ≤ e) (hscaled : e = t.scale + left - places) :
      digits * 10 ^ e.toNat ≤ ceiling := by
    have hpow : t.scale + left = e.toNat + places := by omega
    have hmore : digits * 10 ^ e.toNat * 10 ^ places ≤ ceiling * 10 ^ places :=
      calc digits * 10 ^ e.toNat * 10 ^ places = digits * 10 ^ left * 10 ^ t.scale := by
            rw [Nat.mul_assoc, ← Nat.pow_add, ← hpow, Nat.add_comm, Nat.pow_add, Nat.mul_assoc]
        _ ≤ _ * 10 ^ t.scale := Nat.mul_le_mul_right _ hle
        _ ≤ ceiling * 10 ^ places := hvalue
    exact Nat.le_of_mul_le_mul_right hmore (Nat.pow_pos (by decide))
  split
  next hnone =>
    have hscale : t.scale = 0 := by rw [scale, hnone]
    rw [Option.isSome_map]
    exact scaleTen_isSome hlt (by omega) (fun he => hbelow _ he (by omega)) 3
  next minus es hsome =>
    cases minus with
    | true =>
      have hscale : t.scale = 0 := by rw [scale, hsome]
      split
      · rw [Bool.not_true, Bool.and_false, if_neg Bool.false_ne_true]
        rfl
      · simp only [Option.isSome_map, ↓reduceIte]
        exact scaleTen_isSome hlt (by omega) (fun he => hbelow _ he (by omega)) 3
    | false =>
      have hexponent : t.scale = naturalOf es := by rw [scale, hsome]
      rw [if_neg (by rw [← hexponent, maxExponent]; omega)]
      simp only [Option.isSome_map, Bool.false_eq_true, ↓reduceIte]
      exact scaleTen_isSome hlt (by omega) (fun he => hbelow _ he (by omega)) 3

end NumberText

end Discussion.Json
