import Discussion.SectionKey
import Mathlib.Data.List.Basic

namespace Discussion

-- Powers are those of the core library, whatever else is in scope.
attribute [local instance (high)] instPowNat

namespace Text

theorem isDigit_eq (c : Char) : isDigit c = c.isDigit := rfl

theorem naturalOf_eq (digits : List Char) : naturalOf digits = Nat.ofDigitChars 10 digits 0 := by
  rw [Nat.ofDigitChars_eq_foldl]
  rfl

theorem naturalOf_naturalDigits (n : Nat) : naturalOf (naturalDigits n) = n := by
  rw [naturalOf_eq]
  exact Nat.ofDigitChars_ten_toDigits

theorem digitValue_lt {c : Char} (h : isDigit c) : digitValue c < 10 := by
  unfold isDigit at h
  rw [Bool.and_eq_true, decide_eq_true_eq, decide_eq_true_eq] at h
  have hle : c.toNat ≤ '9'.toNat := h.2
  unfold digitValue
  exact Nat.sub_lt_left_of_lt_add h.1 (Nat.lt_succ_of_le hle)

theorem ofDigitChars_lt {digits : List Char} (h : ∀ c ∈ digits, isDigit c) (n : Nat) :
    Nat.ofDigitChars 10 digits n < (n + 1) * 10 ^ digits.length := by
  induction digits generalizing n with
  | nil => exact Nat.lt_of_lt_of_eq (Nat.lt_succ_self n) (Nat.mul_one _).symm
  | cons c digits ih =>
    obtain ⟨hc, hdigits⟩ := List.forall_mem_cons.1 h
    have hvalue := digitValue_lt hc
    rw [Nat.ofDigitChars_cons]
    refine Nat.lt_of_lt_of_le (ih hdigits _) ?_
    rw [List.length_cons, Nat.pow_succ, Nat.mul_comm _ 10, ← Nat.mul_assoc]
    refine Nat.mul_le_mul_right _ ?_
    change 10 * n + digitValue c + 1 ≤ (n + 1) * 10
    omega

theorem naturalOf_lt {digits : List Char} (h : ∀ c ∈ digits, isDigit c) :
    naturalOf digits < 10 ^ digits.length := by
  have hlt := ofDigitChars_lt h 0
  rwa [Nat.zero_add, Nat.one_mul, ← naturalOf_eq] at hlt

theorem naturalDigits_injective : Function.Injective naturalDigits :=
  Function.LeftInverse.injective naturalOf_naturalDigits

theorem isDigit_of_mem_naturalDigits {n : Nat} {c : Char} (h : c ∈ naturalDigits n) :
    isDigit c := by
  rw [isDigit_eq]
  exact Nat.isDigit_of_mem_toDigits (by decide : 0 < 10) (by decide) h

theorem naturalDigits_ne_nil (n : Nat) : naturalDigits n ≠ [] :=
  Nat.toDigits_ne_nil

theorem length_naturalDigits_pos (n : Nat) : 0 < (naturalDigits n).length :=
  Nat.length_toDigits_pos

theorem lt_pow_length_naturalDigits (n : Nat) : n < 10 ^ (naturalDigits n).length :=
  (Nat.length_toDigits_le_iff (by decide) (length_naturalDigits_pos n)).1 (Nat.le_refl _)

theorem head_naturalDigits {n : Nat} (hn : n ≠ 0) : (naturalDigits n).head? ≠ some '0' := by
  have hdigit : ∀ d < 10, d ≠ 0 → Nat.digitChar d ≠ '0' := by decide
  induction n using Nat.strongRecOn with
  | ind n ih =>
    unfold naturalDigits
    by_cases hlt : n < 10
    · rw [Nat.toDigits_of_lt_base hlt, List.head?_cons, ne_eq, Option.some.injEq]
      exact hdigit n hlt hn
    · rw [Nat.not_lt] at hlt
      rw [Nat.toDigits_of_base_le (by decide) hlt,
        List.head?_append_of_ne_nil _ Nat.toDigits_ne_nil]
      exact ih (n / 10) (by omega) (by omega)

theorem pow_length_naturalDigits_le {n : Nat} (hn : n ≠ 0) :
    10 ^ ((naturalDigits n).length - 1) ≤ n := by
  cases hk : (naturalDigits n).length - 1 with
  | zero => exact Nat.pos_of_ne_zero hn
  | succ k =>
    by_contra hlt
    have hlength :=
      (Nat.length_toDigits_le_iff (b := 10) (by decide) k.succ_pos).2 (Nat.not_le.1 hlt)
    change (naturalDigits n).length ≤ k + 1 at hlength
    omega

theorem integerDigits_injective : Function.Injective integerDigits := by
  have hsign (n : Nat) (rest : List Char) : naturalDigits n ≠ '-' :: rest := by
    intro h
    have hdigit := isDigit_of_mem_naturalDigits (h ▸ List.mem_cons_self)
    cases hdigit
  intro m n h
  unfold integerDigits at h
  split at h
  · split at h
    · have habs := naturalDigits_injective (List.cons.inj h).2
      lia
    · exact (hsign _ _ h.symm).elim
  · split at h
    · exact (hsign _ _ h).elim
    · have habs := naturalDigits_injective h
      lia

theorem underscore_not_mem_integerDigits (n : Int) : '_' ∉ integerDigits n := by
  have hnatural (n : Nat) : '_' ∉ naturalDigits n := by
    intro h
    cases isDigit_of_mem_naturalDigits h
  unfold integerDigits
  split
  · exact fun h => (List.mem_cons.1 h).elim (by decide) (hnatural _)
  · exact hnatural _

end Text

/-- In one area the text of a key tells the section. -/
theorem SectionKey.unique_inj {j k : SectionKey} (hcomponent : j.component = k.component)
    (harea : j.area = k.area) (h : j.unique = k.unique) : j = k := by
  have hchars := congrArg String.toList h
  simp only [unique, hcomponent, harea, String.toList_append, Text.integerText,
    String.toList_ofList, List.append_assoc, List.append_cancel_left_eq] at hchars
  have hsplit := (List.append_cons_inj_of_notMem (Text.underscore_not_mem_integerDigits _)
    (Text.underscore_not_mem_integerDigits _)).1 hchars
  obtain ⟨hcontext, -, hitem⟩ := hsplit
  cases j
  cases k
  simp only [SectionKey.mk.injEq]
  exact ⟨hcomponent, harea, Text.integerDigits_injective hcontext,
    Text.integerDigits_injective hitem⟩

end Discussion
