/-
  ScriptDebugger/Proofs/Decimal/Range.lean
  ========================================
  **Which decimals are in the range of a product.**

  Rounding to 53 bits adds at most one part in 2 ^ 53 (`nearestDouble_le`), and leaving out
  digits only lowers a number.  So a decimal of double precision is in range as a product
  of two doubles, however it is written, unless it is so near to the bound that the two
  roundings can reach it: the last three doubles (`Fraction.productInRange_of_value_le`).
-/
import Mathlib.Tactic.Linarith
import ScriptDebugger.Decimal.Range
import ScriptDebugger.Proofs.Decimal.Plain

namespace ScriptDebugger.Decimal

/-- Rounding to 53 bits adds at most one part in `2 ^ 53`. -/
theorem nearestDouble_le (n : Nat) : nearestDouble n * 2 ^ 53 ≤ n * (2 ^ 53 + 1) := by
  unfold nearestDouble
  by_cases hsmall : Nat.log2 n ≤ 52
  · -- the number has 53 bits itself
    have hunit : Nat.pow 2 (Nat.log2 n - 52) = 1 := by rw [Nat.sub_eq_zero_of_le hsmall]
    rw [hunit]
    simp only [Nat.mod_one, Nat.div_one, Nat.mul_one, Nat.mul_zero, Nat.zero_lt_one, true_or, if_true]
    omega
  · have hunit : Nat.pow 2 (Nat.log2 n - 52) * 2 ^ 52 ≤ n := by
      have hn : n ≠ 0 := by
        rintro rfl
        exact hsmall (by decide)
      have hpow : Nat.pow 2 (Nat.log2 n - 52) * 2 ^ 52 = 2 ^ Nat.log2 n := by
        rw [← Nat.pow_sub_mul_pow 2 (Nat.le_of_not_le hsmall)]
        rfl
      rw [hpow]
      exact Nat.log2_self_le hn
    generalize Nat.pow 2 (Nat.log2 n - 52) = unit at hunit
    have hsplit := Nat.div_add_mod' n unit
    simp only
    split
    · linarith [Nat.zero_le (n % unit)]
    · have hover : unit ≤ 2 * (n % unit) := by omega
      linarith

/-- Leaving out digits at the end does not raise a number. -/
theorem leadingDigits_le (n : Nat) : (leadingDigits n).1 * 10 ^ (leadingDigits n).2 ≤ n := by
  induction n using Nat.strong_induction_on with
  | _ n ih =>
    rw [leadingDigits]
    split
    · simp
    · have hrest := ih (n / 10) (by omega)
      simp only
      rw [pow_succ, ← Nat.mul_assoc]
      omega

/-- The fourth largest double; the largest is `2 ^ 1024 - 2 ^ 971`. -/
def productBound : Nat := Nat.pow 2 1024 - Nat.pow 2 973

/-- The product of two rounded numbers stays in range when the exact product is this low. -/
theorem nearestDouble_mul_lt {m n : Nat} (h : m * n ≤ productBound) :
    nearestDouble m * nearestDouble n < rangeBound := by
  have hproduct : nearestDouble m * nearestDouble n * (2 ^ 53 * 2 ^ 53) ≤
      m * n * ((2 ^ 53 + 1) * (2 ^ 53 + 1)) := by
    calc nearestDouble m * nearestDouble n * (2 ^ 53 * 2 ^ 53)
        = nearestDouble m * 2 ^ 53 * (nearestDouble n * 2 ^ 53) := Nat.mul_mul_mul_comm ..
      _ ≤ m * (2 ^ 53 + 1) * (n * (2 ^ 53 + 1)) :=
          Nat.mul_le_mul (nearestDouble_le m) (nearestDouble_le n)
      _ = m * n * ((2 ^ 53 + 1) * (2 ^ 53 + 1)) := Nat.mul_mul_mul_comm ..
  have hroom : productBound * ((2 ^ 53 + 1) * (2 ^ 53 + 1)) < rangeBound * (2 ^ 53 * 2 ^ 53) := by
    decide +kernel
  refine Nat.lt_of_mul_lt_mul_right (a := 2 ^ 53 * 2 ^ 53) ?_
  exact hproduct.trans_lt ((Nat.mul_le_mul_right _ h).trans_lt hroom)

/-- **A decimal up to the fourth largest double is in range.** -/
theorem Fraction.productInRange_of_value_le {f : Fraction} (h : f.value ≤ productBound) :
    f.productInRange = true := by
  obtain ⟨n, e⟩ := f
  have hlead := leadingDigits_le n
  unfold productInRange
  generalize leadingDigits n = split at hlead ⊢
  obtain ⟨lead, dropped⟩ := split
  simp only at hlead ⊢
  by_cases hsmall : lead = 0 ∨ e + dropped < 0
  · rw [if_pos hsmall]
  · rw [if_neg hsmall]
    obtain ⟨hpositive, hexponent⟩ := not_or.mp hsmall
    obtain ⟨k, hk⟩ : ∃ k : Nat, e + dropped = k := Int.eq_ofNat_of_zero_le (Int.not_lt.mp hexponent)
    have hproduct : lead * 10 ^ k ≤ productBound := by
      rw [← @Nat.cast_le ℚ]
      push_cast
      calc (lead : ℚ) * 10 ^ k = lead * 10 ^ dropped * (10 : ℚ) ^ e := by
            rw [← zpow_natCast, ← zpow_natCast, ← hk, zpow_add₀ (by norm_num)]
            ring
        _ ≤ n * (10 : ℚ) ^ e := by
            refine mul_le_mul_of_nonneg_right ?_ (by positivity)
            exact_mod_cast hlead
        _ ≤ productBound := h
    have hk308 : k < 309 := by
      refine (Nat.pow_lt_pow_iff_right (a := 10) (by decide)).mp ?_
      calc 10 ^ k ≤ lead * 10 ^ k := Nat.le_mul_of_pos_left _ (Nat.pos_of_ne_zero hpositive)
        _ ≤ productBound := hproduct
        _ < 10 ^ 309 := by decide +kernel
    rw [hk, if_neg (by omega), decide_eq_true_eq]
    exact nearestDouble_mul_lt hproduct

end ScriptDebugger.Decimal
