/-
  ScriptDebugger/Proofs/Decimal/Plain.lean
  ========================================
  **Positional notation.**

  A plain decimal is what positional notation writes: digits, then possibly a point
  and further digits, without an exponent, without a zero that leads other digits
  before the point, and without a zero at the end of the fraction.  Such a text denotes
  a rational number, and it determines its digits (`Plain.eq_of_chars`).  The notation
  of a decimal fraction that is not zero is plain and denotes it
  (`Fraction.exists_plain`).
-/
import Mathlib.Algebra.Order.Field.Power
import Mathlib.Data.List.TakeWhile
import Mathlib.Data.Rat.Lemmas
import Mathlib.Tactic.FieldSimp
import Mathlib.Tactic.Positivity
import Mathlib.Tactic.Ring
import ScriptDebugger.Decimal.Numeral

namespace ScriptDebugger.Decimal

/-! ### Plain decimals -/

/-- A plain decimal without sign: the digits before the point and those after it. -/
structure Plain where
  whole : List Char
  fraction : List Char
  isDigit : ∀ c ∈ whole ++ fraction, c.isDigit = true
  whole_ne_nil : whole ≠ []
  leading : whole.head? = some '0' → whole = ['0']
  trailing : fraction.getLast? ≠ some '0'

namespace Plain

/-- The text of a plain decimal; a point stands only before further digits. -/
def chars (d : Plain) : List Char :=
  match d.fraction with
  | [] => d.whole
  | kept => d.whole ++ '.' :: kept

/-- The rational number that a plain decimal denotes. -/
def value (d : Plain) : ℚ :=
  (Nat.ofDigitChars 10 (d.whole ++ d.fraction) 0 : ℚ) / 10 ^ d.fraction.length

theorem takeWhile_chars (d : Plain) : d.chars.takeWhile Char.isDigit = d.whole := by
  have hwhole : ∀ c ∈ d.whole, c.isDigit = true := fun c hc =>
    d.isDigit c (List.mem_append_left _ hc)
  unfold chars
  split
  · exact List.takeWhile_eq_self_iff.mpr hwhole
  · rw [List.takeWhile_append_of_pos hwhole, List.takeWhile_cons_of_neg (by decide),
      List.append_nil]

theorem dropWhile_chars (d : Plain) : (d.chars.dropWhile Char.isDigit).drop 1 = d.fraction := by
  have hwhole : ∀ c ∈ d.whole, c.isDigit = true := fun c hc =>
    d.isDigit c (List.mem_append_left _ hc)
  unfold chars
  split
  · rename_i hfraction
    rw [hfraction, List.dropWhile_eq_nil_iff.mpr hwhole]
    rfl
  · rw [List.dropWhile_append_of_pos hwhole, List.dropWhile_cons_of_neg (by decide)]
    rfl

/-- The text determines the digits. -/
theorem eq_of_chars {d d' : Plain} (h : d.chars = d'.chars) : d = d' := by
  have hwhole : d.whole = d'.whole := by rw [← takeWhile_chars, h, takeWhile_chars]
  have hfraction : d.fraction = d'.fraction := by rw [← dropWhile_chars, h, dropWhile_chars]
  cases d
  cases d'
  simp only at hwhole hfraction
  subst hwhole
  subst hfraction
  rfl

/-- A plain decimal begins with a digit. -/
theorem exists_chars_eq_cons (d : Plain) : ∃ c cs, d.chars = c :: cs ∧ c.isDigit = true := by
  obtain ⟨c, cs, hwhole⟩ := List.exists_cons_of_ne_nil d.whole_ne_nil
  have hc : c.isDigit = true := d.isDigit c (by simp [hwhole])
  unfold chars
  split
  · exact ⟨c, cs, hwhole, hc⟩
  · rw [hwhole]
    exact ⟨c, _, rfl, hc⟩

end Plain

/-! ### Digits -/

theorem digits_ne_nil (n : Nat) : digits n ≠ [] := Nat.toDigits_ne_nil

theorem digitChar_ne_zero : ∀ n < 10, n ≠ 0 → Nat.digitChar n ≠ '0' := by decide

theorem head?_digits {n : Nat} (hn : n ≠ 0) : (digits n).head? ≠ some '0' := by
  unfold digits
  induction n using Nat.strong_induction_on with
  | _ n ih =>
    by_cases hlt : n < 10
    · rw [Nat.toDigits_of_lt_base hlt]
      exact fun h => digitChar_ne_zero n hlt hn (Option.some.inj h)
    · have hquotient : n / 10 ≠ 0 := by omega
      rw [Nat.toDigits_of_base_le (by decide) (Nat.le_of_not_lt hlt),
        List.head?_append_of_ne_nil _ Nat.toDigits_ne_nil]
      exact ih (n / 10) (by omega) hquotient

theorem isDigit_of_mem_digits {n : Nat} {c : Char} (hc : c ∈ digits n) : c.isDigit = true :=
  Nat.isDigit_of_mem_toDigits (by decide) (by decide) hc

theorem ofDigitChars_digits (n : Nat) : Nat.ofDigitChars 10 (digits n) 0 = n :=
  Nat.ofDigitChars_ten_toDigits

/-- The digits of an integer that is not zero. -/
def Plain.ofNat (n : Nat) (hn : n ≠ 0) : Plain where
  whole := digits n
  fraction := []
  isDigit c hc := isDigit_of_mem_digits (by simpa using hc)
  whole_ne_nil := digits_ne_nil n
  leading h := absurd h (head?_digits hn)
  trailing := by simp

@[simp] theorem Plain.chars_ofNat (n : Nat) (hn : n ≠ 0) : (ofNat n hn).chars = digits n := rfl

@[simp] theorem Plain.value_ofNat (n : Nat) (hn : n ≠ 0) : (ofNat n hn).value = n := by
  simp [value, ofNat, ofDigitChars_digits]

/-! ### The parts of the notation -/

theorem splitPoint_append (n : Nat) (ds : List Char) :
    (splitPoint n ds).1 ++ (splitPoint n ds).2 = List.replicate (n + 1 - ds.length) '0' ++ ds :=
  List.take_append_drop _ _

theorem length_splitPoint_snd (n : Nat) (ds : List Char) : (splitPoint n ds).2.length = n := by
  simp only [splitPoint, List.length_drop, List.length_append, List.length_replicate]
  omega

theorem isDigit_of_mem_splitPoint {n : Nat} {ds : List Char} (hds : ∀ c ∈ ds, c.isDigit = true)
    {c : Char} (hc : c ∈ (splitPoint n ds).1 ++ (splitPoint n ds).2) : c.isDigit = true := by
  rw [splitPoint_append] at hc
  rcases List.mem_append.mp hc with hc | hc
  · rw [List.eq_of_mem_replicate hc]
    rfl
  · exact hds c hc

/-- Before the point stand the leading digits, or a zero if there are none. -/
theorem splitPoint_fst (n : Nat) (ds : List Char) :
    (splitPoint n ds).1 =
      if n < ds.length then ds.take (ds.length - n) else ['0'] := by
  simp only [splitPoint, List.length_append, List.length_replicate]
  split
  · rename_i hlt
    rw [show n + 1 - ds.length = 0 by omega, List.replicate_zero, List.nil_append, Nat.zero_add]
  · rename_i hle
    rw [show n + 1 - ds.length + ds.length - n = 1 by omega,
      show n + 1 - ds.length = n - ds.length + 1 by omega, List.replicate_succ]
    rfl

theorem splitPoint_fst_ne_nil (n : Nat) (ds : List Char) : (splitPoint n ds).1 ≠ [] := by
  rw [splitPoint_fst]
  split
  · rename_i hlt
    apply List.ne_nil_of_length_pos
    rw [List.length_take]
    omega
  · exact List.cons_ne_nil _ _

theorem splitPoint_fst_leading {n : Nat} {ds : List Char} (hds : ds.head? ≠ some '0')
    (h : (splitPoint n ds).1.head? = some '0') : (splitPoint n ds).1 = ['0'] := by
  rw [splitPoint_fst] at h ⊢
  split at h
  · rename_i hlt
    rw [List.head?_take, if_neg (by omega)] at h
    exact absurd h hds
  · rename_i hle
    rw [if_neg hle]

/-- What is dropped from the end are zeros, and what remains does not end in one. -/
theorem dropTrailingZeros_spec (ds : List Char) :
    (∃ j, ds = dropTrailingZeros ds ++ List.replicate j '0') ∧
      (dropTrailingZeros ds).getLast? ≠ some '0' := by
  constructor
  · refine ⟨(ds.reverse.takeWhile (· == '0')).length, ?_⟩
    have hzeros : ds.reverse.takeWhile (· == '0') =
        List.replicate (ds.reverse.takeWhile (· == '0')).length '0' := by
      refine List.eq_replicate_of_mem fun c hc => ?_
      simpa using List.mem_takeWhile_imp hc
    have hsplit := List.takeWhile_append_dropWhile (p := (· == '0')) (l := ds.reverse)
    rw [hzeros] at hsplit
    have hds := congrArg List.reverse hsplit
    rw [List.reverse_append, List.reverse_reverse, List.reverse_replicate] at hds
    exact hds.symm
  · unfold dropTrailingZeros
    rw [List.getLast?_reverse]
    intro hhead
    have hno := List.head?_dropWhile_not (· == '0') ds.reverse
    rw [hhead] at hno
    simp at hno

/-! ### The notation of a decimal fraction -/

/-- The rational number that a decimal fraction is. -/
def Fraction.value (f : Fraction) : ℚ := f.coefficient * (10 : ℚ) ^ f.exponent

namespace Fraction

variable {f : Fraction}

/-- An integer is written by its digits and further zeros. -/
theorem exists_plain_of_nonneg (hf : f.coefficient ≠ 0) (he : 0 ≤ f.exponent) :
    ∃ d : Plain, d.chars = f.positional ∧ d.value = f.value := by
  obtain ⟨k, hk⟩ := Int.eq_ofNat_of_zero_le he
  have hdigits : ∀ c ∈ digits f.coefficient ++ List.replicate k '0', c.isDigit = true := by
    intro c hc
    rcases List.mem_append.mp hc with hc | hc
    · exact isDigit_of_mem_digits hc
    · rw [List.eq_of_mem_replicate hc]
      rfl
  have hhead : (digits f.coefficient ++ List.replicate k '0').head? ≠ some '0' := by
    rw [List.head?_append_of_ne_nil _ (digits_ne_nil _)]
    exact head?_digits hf
  refine ⟨⟨digits f.coefficient ++ List.replicate k '0', [], by simpa using hdigits,
    List.append_ne_nil_of_left_ne_nil (digits_ne_nil _) _, fun h => absurd h hhead, by simp⟩, ?_, ?_⟩
  · rw [Plain.chars, positional, if_pos he, hk, Int.toNat_natCast]
  · simp only [Plain.value, List.append_nil, List.length_nil, pow_zero, div_one,
      Nat.ofDigitChars_append, ofDigitChars_digits, Nat.ofDigitChars_replicate_zero, value, hk,
      zpow_natCast]
    push_cast
    ring

/-- A fraction is written with its last digit that is not zero at the end. -/
theorem exists_plain_of_neg (hf : f.coefficient ≠ 0) (he : f.exponent < 0) :
    ∃ d : Plain, d.chars = f.positional ∧ d.value = f.value := by
  obtain ⟨k, hk⟩ : ∃ k : Nat, f.exponent = -(k : ℤ) := ⟨(-f.exponent).toNat, by omega⟩
  let parts := splitPoint k (digits f.coefficient)
  obtain ⟨⟨j, hkept⟩, htrailing⟩ := dropTrailingZeros_spec parts.2
  have hdigits : ∀ c ∈ parts.1 ++ dropTrailingZeros parts.2, c.isDigit = true := by
    intro c hc
    apply isDigit_of_mem_splitPoint fun c => isDigit_of_mem_digits
    rw [show (splitPoint k (digits f.coefficient)).2 = _ from hkept, ← List.append_assoc]
    exact List.mem_append_left _ hc
  refine ⟨⟨parts.1, dropTrailingZeros parts.2, hdigits, splitPoint_fst_ne_nil _ _,
    splitPoint_fst_leading (head?_digits hf), htrailing⟩, ?_, ?_⟩
  · rw [positional, if_neg (by omega), hk, neg_neg, Int.toNat_natCast]
    rfl
  · -- the coefficient counts units of the last place, and each zero that was dropped makes
    -- them ten times coarser
    have hcoefficient :
        f.coefficient = 10 ^ j * Nat.ofDigitChars 10 (parts.1 ++ dropTrailingZeros parts.2) 0 := by
      have hvalue := congrArg (fun ds => Nat.ofDigitChars 10 ds 0)
        (splitPoint_append k (digits f.coefficient))
      simp only [show (splitPoint k (digits f.coefficient)).2 = _ from hkept,
        ← List.append_assoc] at hvalue
      simpa [Nat.ofDigitChars_append, Nat.ofDigitChars_replicate_zero, ofDigitChars_digits]
        using hvalue.symm
    have hplaces : (dropTrailingZeros parts.2).length + j = k := by
      have hlength := length_splitPoint_snd k (digits f.coefficient)
      rw [show (splitPoint k (digits f.coefficient)).2 = _ from hkept, List.length_append,
        List.length_replicate] at hlength
      exact hlength
    have hcoefficient' := congrArg (Nat.cast (R := ℚ)) hcoefficient
    push_cast at hcoefficient'
    have hvalue : f.value = (Nat.ofDigitChars 10 (parts.1 ++ dropTrailingZeros parts.2) 0 : ℚ) /
        10 ^ (dropTrailingZeros parts.2).length := by
      rw [Fraction.value, hk, hcoefficient', ← hplaces, zpow_neg, zpow_natCast, pow_add]
      field_simp
    exact hvalue.symm

/-- **Positional notation is plain and denotes the number.** -/
theorem exists_plain (hf : f.coefficient ≠ 0) :
    ∃ d : Plain, d.chars = f.positional ∧ d.value = f.value := by
  by_cases he : 0 ≤ f.exponent
  · exact exists_plain_of_nonneg hf he
  · exact exists_plain_of_neg hf (not_le.mp he)

end Fraction

end ScriptDebugger.Decimal
