import Mathlib

namespace Discussion.Rounding

open Float.Model Float.Model.UnpackedFloat

/-- A number without its last `n` binary digits, rounded to the nearest one, of two to the even
one. -/
def rounded (m n : Nat) : Nat :=
  if 2 ^ n < 2 * (m % 2 ^ n) ∨ (2 ^ n = 2 * (m % 2 ^ n) ∧ m / 2 ^ n % 2 = 1) then m / 2 ^ n + 1
  else m / 2 ^ n

theorem le_rounded (m n : Nat) : m / 2 ^ n ≤ rounded m n := by
  unfold rounded
  split <;> omega

theorem rounded_le (m n : Nat) : rounded m n ≤ m / 2 ^ n + 1 := by
  unfold rounded
  split <;> omega

theorem rounded_zero (m : Nat) : rounded m 0 = m := by
  simp [rounded, Nat.mod_one]

theorem rounded_mono {l m : Nat} (h : l ≤ m) (n : Nat) : rounded l n ≤ rounded m n := by
  rcases Nat.lt_or_eq_of_le (Nat.div_le_div_right (c := 2 ^ n) h) with hlt | heq
  · exact (rounded_le l n).trans (hlt.trans_le (le_rounded m n))
  · have hl := Nat.div_add_mod l (2 ^ n)
    have hm := Nat.div_add_mod m (2 ^ n)
    rw [heq] at hl
    unfold rounded
    rw [heq]
    split <;> split <;> omega

theorem rounded_lt {m n c : Nat} (h : 2 * m + 2 ^ n < 2 * c * 2 ^ n) : rounded m n < c := by
  have hm := Nat.div_add_mod m (2 ^ n)
  have hlt : 2 ^ n * (2 * (m / 2 ^ n) + 1) < 2 ^ n * (2 * c) := by lia
  have hc : m / 2 ^ n < c := by
    have := Nat.lt_of_mul_lt_mul_left hlt
    omega
  unfold rounded
  split
  next hup =>
    have hnext : 2 ^ n * (2 * (m / 2 ^ n) + 2) < 2 ^ n * (2 * c) := by lia
    have := Nat.lt_of_mul_lt_mul_left hnext
    omega
  · exact hc

theorem mod_two_pow_succ (m n : Nat) :
    m % 2 ^ (n + 1) = 2 ^ n * (m / 2 ^ n % 2) + m % 2 ^ n := by
  rw [Nat.pow_succ, Nat.mod_mul, Nat.add_comm]

/-- The last digit that is shifted out, and whether there was anything behind it. -/
theorem shift_exact (m n : Nat) :
    (ExtendedMantissa.mk m false false) >>> (n + 1) =
      ⟨m / 2 ^ (n + 1), m / 2 ^ n % 2 != 0, m % 2 ^ n != 0⟩ := by
  induction n with
  | zero => simp [HShiftRight.hShiftRight, Nat.repeat, ExtendedMantissa.shiftRightOne, Nat.mod_one]
  | succ n ih =>
    change ExtendedMantissa.shiftRightOne (ExtendedMantissa.mk m false false >>> (n + 1)) = _
    rw [ih, ExtendedMantissa.shiftRightOne, Nat.div_div_eq_div_mul, ← Nat.pow_succ,
      mod_two_pow_succ]
    rcases Nat.mod_two_eq_zero_or_one (m / 2 ^ n) with hbit | hbit
    · simp [hbit]
    · simp [hbit]

theorem roundedMantissa_shift (m n : Nat) :
    ((ExtendedMantissa.mk m false false) >>> n).roundedMantissa = rounded m n := by
  cases n with
  | zero => exact (rounded_zero m).symm
  | succ n =>
    have hmod := Nat.mod_lt m (Nat.two_pow_pos n)
    rw [shift_exact, rounded, mod_two_pow_succ, Nat.pow_succ]
    rcases Nat.mod_two_eq_zero_or_one (m / 2 ^ n) with hbit | hbit
    · rw [hbit, if_neg (by omega)]
      cases m % 2 ^ n != 0 <;> rfl
    · rw [hbit]
      rcases Nat.eq_zero_or_pos (m % 2 ^ n) with hrest | hrest
      · rw [hrest]
        change m / (2 ^ n * 2) + m / (2 ^ n * 2) % 2 = _
        rcases Nat.mod_two_eq_zero_or_one (m / (2 ^ n * 2)) with heven | hodd
        · rw [heven, if_neg (by omega), Nat.add_zero]
        · rw [hodd, if_pos (by omega)]
      · rw [bne_iff_ne.2 (Nat.ne_of_gt hrest), if_pos (by omega)]
        rfl

theorem targetExponent_eq (m : Nat) (e : Int) :
    Format.binary64.targetExponent (totalExponent m e) = max (m.log2 + e - 52) (-1074) := by
  simp only [Format.targetExponent, totalExponent, Format.mantissaBits, Format.minExponent]
  norm_num
  omega

theorem roundWithAccuracy_eq (s : Sign) (m : Nat) (e : Int) :
    roundWithAccuracy .binary64 s m e .exact =
      let first := (max ((m.log2 : Int) + e - 52) (-1074) - e).toNat
      let r := rounded m first
      let second := (max ((r.log2 : Int) + (e + first) - 52) (-1074) - (e + first)).toNat
      if h : r / 2 ^ second = 0 then .zero s
      else .finite s (r / 2 ^ second) (e + first + second) (Nat.pos_of_ne_zero h) := by
  have hshift (m n : Nat) : ((ExtendedMantissa.mk m false false) >>> n).mantissa = m / 2 ^ n := by
    cases n with
    | zero => exact (Nat.div_one m).symm
    | succ n => rw [shift_exact]
  simp only [roundWithAccuracy, shiftToTargetExponent, targetExponent_eq, shiftToExponent,
    ExtendedMantissa.ofMantissaAndAccuracy, roundedMantissa_shift, hshift]

/-- A result that is packed without becoming infinite. -/
def InRange : UnpackedFloat → Prop
  | .zero _ => True
  | .finite _ _ e _ => e ≤ 971
  | _ => False

theorem unpackExponent_of_isInf {b : BitVec Format.binary64.numBits}
    (h : (UnpackedFloat.unpack .binary64 b).isInf) : unpackExponent b = -1#11 := by
  dsimp only [UnpackedFloat.unpack] at h
  split at h
  next hones => exact hones
  · split at h
    · split at h <;> cases h
    · cases h

/-- All ones in the exponent stand for what is no finite number. -/
theorem exponent_lt_of_finite {x : Float} (hnan : x.isNaN = false) (hinf : x.isInf = false) :
    x.toBits.toNat / 2 ^ 52 % 2 ^ 11 < 2047 := by
  obtain ⟨bits, hbits⟩ : ∃ bits : BitVec Format.binary64.numBits, bits = x.toBits.toBitVec :=
    ⟨_, rfl⟩
  have hvalue : x.toBits.toNat / 2 ^ 52 % 2 ^ 11 = (unpackExponent bits).toNat := by
    rw [unpackExponent, BitVec.toNat_cast, BitVec.extractLsb_toNat, Nat.shiftRight_eq_div_pow,
      hbits]
    rfl
  have hones : (unpackExponent bits).toNat ≠ 2047 := by
    intro hones
    have hunpack : (UnpackedFloat.unpack .binary64 bits).isNaN ∨
        (UnpackedFloat.unpack .binary64 bits).isInf := by
      dsimp only [UnpackedFloat.unpack]
      rw [if_pos (BitVec.eq_of_toNat_eq hones)]
      split
      · exact .inr rfl
      · exact .inl rfl
    rw [hbits] at hunpack
    rcases hunpack with h | h
    · cases hnan.symm.trans h
    · cases hinf.symm.trans h
  have hlt : (unpackExponent bits).toNat < 2 ^ 11 := (unpackExponent bits).isLt
  omega

theorem InRange.isInf_pack {u : UnpackedFloat} (h : InRange u) :
    (Float.ofModel (.pack u)).isInf = false := by
  rw [Bool.eq_false_iff]
  intro hinf
  have hones := unpackExponent_of_isInf (b := UnpackedFloat.pack .binary64 u) hinf
  cases u with
  | zero s =>
    rw [UnpackedFloat.pack, packedZero, unpackExponent_packComponents] at hones
    cases hones
  | finite s m e hm =>
    have he : e ≤ 971 := h
    have hbias : (e + Format.binary64.exponentBias + (52 : Nat)).toNat ≤ 2046 := by
      change (e + 1023 + 52).toNat ≤ 2046
      omega
    rw [UnpackedFloat.pack] at hones
    dsimp only at hones
    generalize (e + Format.binary64.exponentBias + (52 : Nat)).toNat = bias at hbias hones
    rw [if_neg (by omega)] at hones
    split at hones
    · rw [unpackExponent_packComponents] at hones
      have := congrArg BitVec.toNat hones
      rw [BitVec.toNat_ofNat] at this
      change _ % 2048 = 2047 at this
      omega
    · rw [unpackExponent_packComponents] at hones
      cases hones
  | infinity | notANumber => exact h

/-- The least number that is rounded to infinity. It is half a step above the largest finite
number. -/
def overflow : Nat := (2 ^ 54 - 1) * 2 ^ 970

theorem cast_overflow : (overflow : ℚ) = (2 ^ 54 - 1) * 2 ^ (970 : ℤ) := by
  have hdigits : ((2 ^ 54 - 1 : Nat) : ℚ) = 2 ^ 54 - 1 := by norm_num
  rw [overflow, Nat.cast_mul, hdigits, Nat.cast_pow, Nat.cast_ofNat, ← zpow_natCast]
  rfl

theorem inRange_round {m : Nat} {e : Int} (hm : 2 ^ 52 ≤ m) (h : (m : ℚ) * 2 ^ e < overflow)
    (s : Sign) : InRange (roundWithAccuracy .binary64 s m e .exact) := by
  have hne : m ≠ 0 := by omega
  have hdigits : 52 ≤ m.log2 := (Nat.le_log2 hne).2 hm
  obtain ⟨half, hhalf⟩ : ∃ half : ℚ, half = 2 ^ (970 : ℤ) := ⟨_, rfl⟩
  have hpos : 0 < half := by rw [hhalf]; positivity
  have hbelow : (m : ℚ) * 2 ^ e < (2 ^ 54 - 1) * half := by
    rwa [hhalf, ← cast_overflow]
  have hlog : (m.log2 : Int) + e < 1024 := by
    have hself : (2 : ℚ) ^ m.log2 ≤ m := by exact_mod_cast Nat.log2_self_le hne
    rw [show (1024 : Int) = 54 + 970 by rfl, ← zpow_lt_zpow_iff_right₀ (one_lt_two : (1 : ℚ) < 2),
      zpow_add₀ two_ne_zero, zpow_add₀ two_ne_zero, zpow_natCast, ← hhalf]
    calc (2 : ℚ) ^ m.log2 * 2 ^ e ≤ m * 2 ^ e := by gcongr
      _ < 2 ^ (54 : ℤ) * half := by linarith only [hbelow, hpos]
  rw [roundWithAccuracy_eq]
  dsimp only
  obtain ⟨first, hfirst⟩ : ∃ n, n = (max ((m.log2 : Int) + e - 52) (-1074) - e).toNat := ⟨_, rfl⟩
  rw [← hfirst]
  obtain ⟨k, hk⟩ : ∃ k : Nat, (k : Int) = 1024 - (e + first) :=
    ⟨(1024 - (e + first)).toNat, by omega⟩
  have hr : rounded m first < 2 ^ k := by
    apply rounded_lt
    have hstep : (2 : ℚ) ^ first * 2 ^ e ≤ 2 * half := by
      rw [hhalf, ← zpow_natCast, ← zpow_add₀ two_ne_zero, ← zpow_one_add₀ two_ne_zero]
      exact zpow_le_zpow_right₀ one_le_two (by omega)
    have htop : (2 : ℚ) ^ k * 2 ^ first * 2 ^ e = 2 ^ 54 * half := by
      rw [hhalf, ← zpow_natCast, ← zpow_natCast, ← zpow_natCast, ← zpow_add₀ two_ne_zero,
        ← zpow_add₀ two_ne_zero, ← zpow_add₀ two_ne_zero]
      congr 1
      omega
    have hscaled : ((2 * m + 2 ^ first : Nat) : ℚ) * 2 ^ e <
        ((2 * 2 ^ k * 2 ^ first : Nat) : ℚ) * 2 ^ e := by
      push_cast
      linarith
    exact_mod_cast lt_of_mul_lt_mul_right hscaled (by positivity)
  have hlog' : (rounded m first).log2 < k ∨ rounded m first = 0 := by
    by_cases hzero : rounded m first = 0
    · exact .inr hzero
    · exact .inl ((Nat.log2_lt hzero).2 hr)
  split
  · trivial
  next hne =>
    have hnonzero : rounded m first ≠ 0 := by
      intro hzero
      rw [hzero, Nat.zero_div] at hne
      exact hne rfl
    change e + first + _ ≤ (971 : Int)
    omega

theorem unpack_pack_normal {s : Sign} {m : Nat} {e : Int} (hpos : 0 < m) (hlow : 2 ^ 52 ≤ m)
    (hhigh : m < 2 ^ 53) (hmin : -1074 ≤ e) (hmax : e ≤ 971) :
    ∃ s', (Float.Model.pack (.finite s m e hpos)).unpack = .finite s' m e hpos := by
  have hlog : m.log2 = 52 := (Nat.log2_eq_iff (Nat.ne_of_gt hpos)).2 ⟨hlow, hhigh⟩
  obtain ⟨bias, hbias⟩ : ∃ bias : Nat, (bias : Int) = e + 1075 := ⟨(e + 1075).toNat, by omega⟩
  have hbiased : (e + Format.binary64.exponentBias + (52 : Nat)).toNat = bias := by
    change (e + 1023 + 52).toNat = bias
    omega
  have hexponent : (BitVec.ofNat 11 bias).toNat = bias := by
    rw [BitVec.toNat_ofNat]
    omega
  have hones : BitVec.ofNat 11 bias ≠ -1#11 := by
    intro h
    have := congrArg BitVec.toNat h
    rw [hexponent] at this
    change bias = 2047 at this
    omega
  have hzero : BitVec.ofNat 11 bias ≠ 0#11 := by
    intro h
    have := congrArg BitVec.toNat h
    rw [hexponent] at this
    change bias = 0 at this
    omega
  have hmantissa : (1#1 ++ BitVec.ofNat 52 m).toNat = m := by
    rw [BitVec.toNat_append, ← Nat.shiftLeft_add_eq_or_of_lt (BitVec.ofNat 52 m).isLt,
      BitVec.toNat_ofNat, Nat.shiftLeft_eq]
    change 1 * 2 ^ 52 + m % 2 ^ 52 = m
    omega
  refine ⟨Sign.ofBitVec (unpackSign (UnpackedFloat.pack .binary64 (.finite s m e hpos))), ?_⟩
  change UnpackedFloat.unpack .binary64 (UnpackedFloat.pack .binary64 (.finite s m e hpos)) = _
  rw [UnpackedFloat.pack]
  dsimp only
  rw [hbiased, if_neg (by omega), if_pos (by rw [hlog]; rfl)]
  dsimp only [UnpackedFloat.unpack]
  simp only [unpackExponent_packComponents, unpackMantissa_packComponents]
  rw [if_neg hones, if_neg hzero]
  congr 1
  rw [hexponent]
  change (bias : Int) - (1023 + 52) = e
  omega

theorem log2_mul_two_pow {m : Nat} (hm : m ≠ 0) (k : Nat) : (m * 2 ^ k).log2 = m.log2 + k := by
  induction k with
  | zero => rw [Nat.pow_zero, Nat.mul_one, Nat.add_zero]
  | succ k ih =>
    have hne : m * 2 ^ k ≠ 0 := Nat.mul_ne_zero hm (Nat.two_pow_pos k).ne'
    rw [Nat.pow_succ, ← Nat.mul_assoc, Nat.mul_comm, Nat.log2_two_mul hne, ih, Nat.add_assoc]

theorem round_normal (s : Sign) {m : Nat} {e : Int} (hm : 52 ≤ m.log2) (he : -1074 ≤ e) :
    ∃ (d : Nat) (top : Int) (hd : 0 < d),
      roundWithAccuracy .binary64 s m e .exact = .finite s d top hd ∧
      2 ^ 52 ≤ d ∧ d < 2 ^ 53 ∧ e ≤ top ∧ top ≤ e + m.log2 - 51 ∧
      (d : ℚ) * 2 ^ top = rounded m (m.log2 - 52) * 2 ^ (e + (m.log2 - 52 : Nat)) := by
  have hne : m ≠ 0 := by
    rintro rfl
    exact absurd hm (by decide)
  obtain ⟨n, hn⟩ : ∃ n, m.log2 = n + 52 := ⟨m.log2 - 52, by omega⟩
  have hfirst : (max ((m.log2 : Int) + e - 52) (-1074) - e).toNat = n := by omega
  obtain ⟨hlow, hhigh⟩ : 2 ^ 52 ≤ rounded m n ∧ rounded m n ≤ 2 ^ 53 := by
    obtain ⟨hle, hlt⟩ := (Nat.log2_eq_iff hne).1 hn
    have hdiv : 2 ^ 52 ≤ m / 2 ^ n ∧ m / 2 ^ n < 2 ^ 53 := by
      rw [Nat.le_div_iff_mul_le (Nat.two_pow_pos n), Nat.div_lt_iff_lt_mul (Nat.two_pow_pos n),
        ← Nat.pow_add, ← Nat.pow_add, Nat.add_comm 52, Nat.add_comm 53]
      exact ⟨hle, hlt⟩
    exact ⟨hdiv.1.trans (le_rounded m n), (rounded_le m n).trans hdiv.2⟩
  rw [hn] at hfirst
  rw [roundWithAccuracy_eq, hn, Nat.add_sub_cancel]
  dsimp only
  rw [hfirst]
  generalize rounded m n = r at hlow hhigh
  rcases Nat.lt_or_eq_of_le hhigh with hlt | rfl
  · have hlog : r.log2 = 52 := (Nat.log2_eq_iff (by omega)).2 ⟨hlow, hlt⟩
    have hsecond : (max ((r.log2 : Int) + (e + n) - 52) (-1074) - (e + n)).toNat = 0 := by omega
    refine ⟨r, e + n, by omega, ?_, hlow, hlt, by omega, by omega, rfl⟩
    simp only [hsecond, Nat.pow_zero, Nat.div_one, Int.natCast_zero, Int.add_zero]
    rw [dif_neg (by omega)]
  · have hsecond : (max (((2 ^ 53 : Nat).log2 : Int) + (e + n) - 52) (-1074) - (e + n)).toNat =
        1 := by
      rw [Nat.log2_two_pow]
      omega
    refine ⟨2 ^ 52, e + n + 1, by decide, ?_, Nat.le_refl _, by decide, by omega, by omega, ?_⟩
    · rw [hsecond]
      rfl
    · rw [zpow_add₀ two_ne_zero, zpow_one]
      push_cast
      linarith

/-- The number that stands for a natural number, when it has less than 65 binary digits. -/
def roundNat (n : Nat) : Nat :=
  rounded n (n.log2 - 52) * 2 ^ (n.log2 - 52)

theorem round_nat {n : Nat} (hn : n ≠ 0) (hlt : n < 2 ^ 64) :
    ∃ (d : Nat) (top : Int) (hd : 0 < d),
      round .binary64 .positive n 0 = .finite .positive d top hd ∧
      2 ^ 52 ≤ d ∧ d < 2 ^ 53 ∧ -1074 ≤ top ∧ top ≤ 971 ∧ (d : ℚ) * 2 ^ top = roundNat n := by
  have hlog := (Nat.log2_lt hn).2 hlt
  have hshift : (0 - max ((n.log2 : Int) + 0 - 52) (-1074)).toNat = 52 - n.log2 := by omega
  have hlog' := log2_mul_two_pow hn (52 - n.log2)
  obtain ⟨d, top, hd, hround, hlow, hhigh, hmin, hmax, hvalue⟩ := round_normal .positive
    (m := n * 2 ^ (52 - n.log2)) (e := 0 - (52 - n.log2 : Nat)) (by omega) (by omega)
  refine ⟨d, top, hd, ?_, hlow, hhigh, by omega, by omega, ?_⟩
  · rw [UnpackedFloat.round, targetExponent_eq, decreaseExponent, hshift, Nat.shiftLeft_eq]
    exact hround
  · rw [hvalue, hlog', roundNat]
    rcases Nat.le_total n.log2 52 with hsmall | hlarge
    · rw [Nat.sub_eq_zero_of_le hsmall, Nat.add_sub_cancel' hsmall, Nat.sub_self, rounded_zero,
        rounded_zero, Nat.pow_zero, Nat.mul_one, Nat.cast_mul, Nat.cast_pow, Int.natCast_zero,
        Int.add_zero, Int.zero_sub, zpow_neg, zpow_natCast]
      exact mul_inv_cancel_right₀ (by positivity) _
    · rw [Nat.sub_eq_zero_of_le hlarge, Nat.pow_zero, Nat.mul_one, Nat.add_zero, Int.natCast_zero,
        Int.sub_zero, Int.zero_add, zpow_natCast, Nat.cast_mul, Nat.cast_pow]
      rfl

theorem roundNat_mono {l m : Nat} (h : l ≤ m) : roundNat l ≤ roundNat m := by
  rcases Nat.eq_zero_or_pos l with rfl | hl
  · exact Nat.zero_le _
  have hlog : l.log2 ≤ m.log2 := (Nat.le_log2 (by omega)).2 ((Nat.log2_self_le hl.ne').trans h)
  unfold roundNat
  rcases Nat.lt_or_eq_of_le (Nat.sub_le_sub_right hlog 52) with hlt | heq
  · -- Between numbers of different lengths there is a power of two, which is not rounded.
    have hl : rounded l (l.log2 - 52) ≤ 2 ^ 53 := by
      refine (rounded_le l _).trans ?_
      rw [Nat.succ_le_iff, Nat.div_lt_iff_lt_mul (Nat.two_pow_pos _), ← Nat.pow_add]
      exact Nat.lt_log2_self.trans_le (Nat.pow_le_pow_right (by decide) (by omega))
    have hm : 2 ^ 52 ≤ rounded m (m.log2 - 52) := by
      refine le_trans ?_ (le_rounded m _)
      rw [Nat.le_div_iff_mul_le (Nat.two_pow_pos _), ← Nat.pow_add,
        Nat.add_sub_cancel' (by omega)]
      exact Nat.log2_self_le (by omega)
    calc rounded l (l.log2 - 52) * 2 ^ (l.log2 - 52) ≤ 2 ^ 53 * 2 ^ (l.log2 - 52) :=
          Nat.mul_le_mul_right _ hl
      _ = 2 ^ 52 * 2 ^ (l.log2 - 52 + 1) := by rw [Nat.pow_succ 2 (l.log2 - 52)]; omega
      _ ≤ 2 ^ 52 * 2 ^ (m.log2 - 52) :=
          Nat.mul_le_mul_left _ (Nat.pow_le_pow_right (by decide) hlt)
      _ ≤ rounded m (m.log2 - 52) * 2 ^ (m.log2 - 52) := Nat.mul_le_mul_right _ hm
  · rw [heq]
    exact Nat.mul_le_mul_right _ (rounded_mono h _)

theorem unpack_toFloat {d : UInt64} (hd : d.toNat ≠ 0) :
    ∃ (s : Sign) (m : Nat) (e : Int) (hm : 0 < m),
      d.toFloat.toModel.unpack = .finite s m e hm ∧ (m : ℚ) * 2 ^ e = roundNat d.toNat := by
  obtain ⟨m, e, hm, hround, hlow, hhigh, hmin, hmax, hvalue⟩ := round_nat hd d.toNat_lt
  have hnormal : UnpackedFloat.ofUInt64 .binary64 d = .finite .positive m e hm := by
    rw [← hround]
    have hgt : compare (d.toNat : Int) 0 = .gt := Int.compare_eq_gt.2 (by omega)
    simp only [UnpackedFloat.ofUInt64, UnpackedFloat.ofNat, UnpackedFloat.ofInt,
      UnpackedFloat.normalize, hgt, Int.toNat_natCast]
  obtain ⟨s, hunpack⟩ := unpack_pack_normal (s := .positive) hm hlow hhigh hmin hmax
  refine ⟨s, m, e, hm, ?_, hvalue⟩
  change (Float.Model.pack (UnpackedFloat.ofUInt64 .binary64 d)).unpack = _
  rw [hnormal, hunpack]

/-- The most that numbers other than the largest one can be rounded from. -/
def ceiling : Nat := (2 ^ 54 - 3) * 2 ^ 970

/-- Of the significands that stay below the ceiling together with a power of ten, the largest one
gives a finite product. -/
def scales (e : Nat) : Bool :=
  match (Float.ofScientific 1 false e).toModel.unpack with
  | .finite .positive m k _ => 2 ^ 52 ≤ m &&
    roundNat (min (ceiling / 10 ^ e) (2 ^ 64 - 1)) * m * 2 ^ k.toNat < overflow * 2 ^ (-k).toNat
  | _ => false

attribute [irreducible] overflow ceiling

theorem scales_of_lt : ∀ e < 309, scales e := by
  decide +kernel

theorem product_lt {l m value most bound : Nat} {j k : Int} (hl : (l : ℚ) * 2 ^ j = value)
    (hle : value ≤ most) (h : most * m * 2 ^ k.toNat < bound * 2 ^ (-k).toNat) :
    ((l * m : Nat) : ℚ) * 2 ^ (j + k) < bound := by
  have hk : (2 : ℚ) ^ k * 2 ^ (-k).toNat = 2 ^ k.toNat := by
    rw [← zpow_natCast, ← zpow_natCast, ← zpow_add₀ two_ne_zero]
    congr 1
    omega
  have hpos : (0 : ℚ) < 2 ^ (-k).toNat := by positivity
  refine lt_of_mul_lt_mul_right (a := 2 ^ (-k).toNat) ?_ hpos.le
  calc ((l * m : Nat) : ℚ) * 2 ^ (j + k) * 2 ^ (-k).toNat
      = (l * 2 ^ j) * m * (2 ^ k * 2 ^ (-k).toNat) := by
        rw [zpow_add₀ two_ne_zero, Nat.cast_mul]
        ring
    _ = value * m * 2 ^ k.toNat := by rw [hl, hk]
    _ ≤ most * m * 2 ^ k.toNat := by gcongr
    _ < bound * 2 ^ (-k).toNat := by exact_mod_cast h

theorem isInf_scaled {d : UInt64} {e : Nat} (he : e < 309) (h : d.toNat * 10 ^ e ≤ ceiling) :
    (d.toFloat * Float.ofScientific 1 false e).isInf = false := by
  have hscales := scales_of_lt e he
  unfold scales at hscales
  split at hscales
  next m k hm hten =>
    rw [Bool.and_eq_true, decide_eq_true_eq, decide_eq_true_eq] at hscales
    obtain ⟨hlow, hscale⟩ := hscales
    apply InRange.isInf_pack (u := UnpackedFloat.mul .binary64 d.toFloat.toModel.unpack
      (Float.ofScientific 1 false e).toModel.unpack)
    rw [hten]
    by_cases hd : d.toNat = 0
    · obtain rfl : d = 0 := UInt64.toNat_inj.1 hd
      trivial
    · obtain ⟨s, l, j, hl, hunpack, hvalue⟩ := unpack_toFloat hd
      rw [hunpack]
      apply inRange_round
      · exact hlow.trans (Nat.le_mul_of_pos_left m hl)
      · have hle : roundNat d.toNat ≤ roundNat (min (ceiling / 10 ^ e) (2 ^ 64 - 1)) := by
          have hlt := d.toNat_lt
          have hdiv := (Nat.le_div_iff_mul_le (Nat.pow_pos (by decide))).2 h
          exact roundNat_mono (Nat.le_min.2 ⟨hdiv, by omega⟩)
        exact product_lt hvalue hle hscale
  · cases hscales

end Discussion.Rounding
