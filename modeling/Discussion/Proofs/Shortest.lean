import Discussion.Decimal.Shortest
import Mathlib.Algebra.Order.Ring.Nat
import Mathlib.Tactic.Ring

namespace Discussion.Decimal

theorem power_eq (base : Nat) (e : Int) : power base e = (base ^ e.toNat, base ^ (-e).toNat) := by
  unfold power
  split
  next h => rw [Int.toNat_of_nonpos (Int.neg_nonpos_of_nonneg h), Nat.pow_zero]
  next h => rw [Int.toNat_of_nonpos (Int.le_of_lt (Int.not_le.1 h)), Nat.pow_zero]

/-- The number is no larger than a natural number. -/
def Numeral.AtMost (d : Numeral) (bound : Nat) : Prop :=
  d.digits * 10 ^ d.exponent.toNat ≤ bound * 10 ^ (-d.exponent).toNat

/-- No number that is rounded to this one is larger than a natural number. -/
def Binary.AtMost (b : Binary) (bound : Nat) : Prop :=
  (4 * b.mantissa + 2) * 2 ^ (b.exponent - 2).toNat ≤ bound * 2 ^ (-(b.exponent - 2)).toNat

variable {bound : Nat}

theorem Numeral.AtMost.trimZeros {d : Numeral} (h : d.AtMost bound) (fuel : Nat) :
    (d.trimZeros fuel).AtMost bound := by
  induction fuel generalizing d with
  | zero => exact h
  | succ fuel ih =>
    unfold Numeral.trimZeros
    split
    next htrim =>
      apply ih
      unfold AtMost at h ⊢
      dsimp only
      rcases Int.lt_or_le d.exponent 0 with hneg | hpos
      · rw [Int.toNat_of_nonpos (by omega), Nat.pow_zero, Nat.mul_one] at h ⊢
        have hplaces : (-d.exponent).toNat = (-(d.exponent + 1)).toNat + 1 := by omega
        rw [hplaces, Nat.pow_succ, ← Nat.mul_assoc] at h
        omega
      · have hzeros : (d.exponent + 1).toNat = d.exponent.toNat + 1 := by omega
        rw [Int.toNat_of_nonpos (by omega : -d.exponent ≤ 0), Nat.pow_zero, Nat.mul_one] at h
        rw [Int.toNat_of_nonpos (by omega : -(d.exponent + 1) ≤ 0), Nat.pow_zero, Nat.mul_one]
        calc d.digits / 10 * 10 ^ (d.exponent + 1).toNat
            = d.digits / 10 * 10 * 10 ^ d.exponent.toNat := by rw [hzeros]; ring
          _ = d.digits * 10 ^ d.exponent.toNat := by
            rw [Nat.div_mul_cancel (Nat.dvd_of_mod_eq_zero htrim.2)]
          _ ≤ bound := h
    · exact h

theorem candidate_atMost {tie : Tie} {b : Binary} {e : Int} {d : Numeral} (hb : b.AtMost bound)
    (h : candidate tie b e = some d) : d.AtMost bound := by
  have hfits (k : Nat) (hk : k * (10 ^ e.toNat * 2 ^ (-(b.exponent - 2)).toNat) ≤
      (4 * b.mantissa + 2) * (2 ^ (b.exponent - 2).toNat * 10 ^ (-e).toNat)) :
      (Numeral.mk k e).AtMost bound := by
    have hhalf : 0 < 2 ^ (-(b.exponent - 2)).toNat := Nat.two_pow_pos _
    refine Nat.le_of_mul_le_mul_right (c := 2 ^ (-(b.exponent - 2)).toNat) ?_ hhalf
    calc k * 10 ^ e.toNat * 2 ^ (-(b.exponent - 2)).toNat
        = k * (10 ^ e.toNat * 2 ^ (-(b.exponent - 2)).toNat) := Nat.mul_assoc _ _ _
      _ ≤ (4 * b.mantissa + 2) * (2 ^ (b.exponent - 2).toNat * 10 ^ (-e).toNat) := hk
      _ = (4 * b.mantissa + 2) * 2 ^ (b.exponent - 2).toNat * 10 ^ (-e).toNat :=
        (Nat.mul_assoc _ _ _).symm
      _ ≤ bound * 2 ^ (-(b.exponent - 2)).toNat * 10 ^ (-e).toNat := Nat.mul_le_mul_right _ hb
      _ = bound * 10 ^ (-e).toNat * 2 ^ (-(b.exponent - 2)).toNat := by ring
  unfold candidate at h
  rw [power_eq, power_eq] at h
  dsimp only at h
  generalize 10 ^ e.toNat * 2 ^ (-(b.exponent - 2)).toNat = scale at h hfits
  generalize hunit : 2 ^ (b.exponent - 2).toNat * 10 ^ (-e).toNat = unit at h hfits
  generalize hbelow : 4 * b.mantissa * unit / scale = below at h
  have hvalue : 4 * b.mantissa * unit ≤ (4 * b.mantissa + 2) * unit :=
    Nat.mul_le_mul_right unit (Nat.le_add_right _ 2)
  have hbelow' : below * scale ≤ (4 * b.mantissa + 2) * unit := by
    rw [← hbelow]
    exact (Nat.div_mul_le_self _ _).trans hvalue
  have habove (hfit : (decide ((below + 1) * scale < (4 * b.mantissa + 2) * unit) ||
      (decide (b.mantissa % 2 = 0) && (4 * b.mantissa + 2) * unit == (below + 1) * scale)) = true) :
      (below + 1) * scale ≤ (4 * b.mantissa + 2) * unit := by
    rw [Bool.or_eq_true, decide_eq_true_eq, Bool.and_eq_true, beq_iff_eq] at hfit
    rcases hfit with hlt | ⟨-, heq⟩
    · exact Nat.le_of_lt hlt
    · exact Nat.le_of_eq heq.symm
  split at h
  · cases h
  · obtain rfl := Option.some.inj h
    exact hfits below hbelow'
  next hfit =>
    obtain rfl := Option.some.inj h
    exact hfits (below + 1) (habove hfit)
  next hfit =>
    split at h
    · obtain rfl := Option.some.inj h
      exact hfits below hbelow'
    · obtain rfl := Option.some.inj h
      exact hfits (below + 1) (habove hfit)

theorem Binary.AtMost.whole {b : Binary} (hb : b.AtMost bound) :
    b.mantissa * 2 ^ b.exponent.toNat ≤ bound * 2 ^ (-b.exponent).toNat := by
  have hquarter : 2 ^ b.exponent.toNat * 2 ^ (-(b.exponent - 2)).toNat =
      4 * 2 ^ (b.exponent - 2).toNat * 2 ^ (-b.exponent).toNat := by
    rw [show 4 = 2 ^ 2 from rfl, ← Nat.pow_add, ← Nat.pow_add, ← Nat.pow_add]
    congr 1
    omega
  have hpos : 0 < 2 ^ (-(b.exponent - 2)).toNat := Nat.two_pow_pos _
  refine Nat.le_of_mul_le_mul_right (c := 2 ^ (-(b.exponent - 2)).toNat) ?_ hpos
  calc b.mantissa * 2 ^ b.exponent.toNat * 2 ^ (-(b.exponent - 2)).toNat
      = 4 * b.mantissa * 2 ^ (b.exponent - 2).toNat * 2 ^ (-b.exponent).toNat := by
        rw [Nat.mul_assoc, hquarter]
        ring
    _ ≤ (4 * b.mantissa + 2) * 2 ^ (b.exponent - 2).toNat * 2 ^ (-b.exponent).toNat := by
        gcongr
        omega
    _ ≤ bound * 2 ^ (-(b.exponent - 2)).toNat * 2 ^ (-b.exponent).toNat :=
        Nat.mul_le_mul_right _ hb
    _ = bound * 2 ^ (-b.exponent).toNat * 2 ^ (-(b.exponent - 2)).toNat := by ring

theorem shortest_atMost {b : Binary} (hb : b.AtMost bound) (tie : Tie) :
    (shortest tie b).AtMost bound := by
  unfold shortest
  rw [power_eq]
  dsimp only
  split
  · exact (Nat.zero_mul _).trans_le (Nat.zero_le _)
  · split
    next d hfound =>
      obtain ⟨e, -, hcandidate⟩ := List.exists_of_findSome?_eq_some hfound
      exact (candidate_atMost hb hcandidate).trimZeros 20
    · change _ / _ * 1 ≤ bound * 1
      rw [Nat.mul_one, Nat.mul_one]
      exact Nat.div_le_of_le_mul (hb.whole.trans_eq (Nat.mul_comm _ _))

end Discussion.Decimal
