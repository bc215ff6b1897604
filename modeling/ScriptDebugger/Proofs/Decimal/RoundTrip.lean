/-
  ScriptDebugger/Proofs/Decimal/RoundTrip.lean
  ============================================
  **The text of a number gives back the number.**

  A text that is not one of the three names is an optional sign and a plain decimal, and
  the decimal rounds to the number that it is the text of.  The search for the shortest
  decimal stops only at a decimal between the midpoints of the number (`Covers`), and
  where it finds none the exact value is written, which lies there too.  An integer below
  the bound is written by its own digits.  A text of either kind determines its sign and
  its decimal, so numbers that share a text are the same, unless they are the zeros or
  no numbers at all.
-/
import ScriptDebugger.Proofs.Decimal.Plain
import ScriptDebugger.Proofs.Decimal.Rounding

namespace ScriptDebugger.Decimal

/-! ### Ratios -/

namespace Ratio

variable {r : Ratio} {base : Nat}

/-- The rational number that a ratio is. -/
def value (r : Ratio) : ℚ := r.num / r.den

theorem den_scale_pos (hr : 0 < r.den) (hbase : 0 < base) (e : Int) :
    0 < (r.scale base e).den := by
  unfold scale
  split
  · exact hr
  · exact Nat.mul_pos hr (Nat.pow_pos hbase)

theorem value_scale (hbase : 0 < base) (e : Int) :
    (r.scale base e).value = r.value * (base : ℚ) ^ e := by
  have hbase' : (base : ℚ) ≠ 0 := by positivity
  unfold scale
  split
  · rename_i he
    obtain ⟨k, rfl⟩ := Int.eq_ofNat_of_zero_le he
    simp only [value, Int.toNat_natCast, Nat.pow_eq, Nat.cast_mul, Nat.cast_pow, zpow_natCast]
    ring
  · rename_i he
    obtain ⟨k, hk⟩ : ∃ k : Nat, e = -(k : ℤ) := ⟨(-e).toNat, by omega⟩
    subst hk
    simp only [value, neg_neg, Int.toNat_natCast, Nat.pow_eq, Nat.cast_mul, Nat.cast_pow, zpow_neg,
      zpow_natCast]
    rw [div_mul_eq_div_div, div_eq_mul_inv _ ((base : ℚ) ^ k)]

end Ratio

/-! ### The interval of a number -/

namespace Magnitude

variable {v : Magnitude} {q : ℚ}

/-- A quarter of the step at which the number stands. -/
def quarterValue (v : Magnitude) : ℚ := (2 : ℚ) ^ (v.exponent - 2)

/-- Whether a number lies in the interval of a magnitude, whose ends belong to it exactly
    when the significand is even. -/
structure Covers (v : Magnitude) (q : ℚ) : Prop where
  low : v.lowerEnd * v.quarterValue ≤ q
  high : q ≤ v.upperEnd * v.quarterValue
  strict : v.significand % 2 = 1 → v.lowerEnd * v.quarterValue < q ∧
    q < v.upperEnd * v.quarterValue

theorem quarterValue_pos (v : Magnitude) : 0 < v.quarterValue := by
  unfold quarterValue
  positivity

theorem value_eq_quarters (v : Magnitude) : v.value = v.inQuarters * v.quarterValue := by
  rw [value, inQuarters, quarterValue, zpow_sub₀ (by norm_num)]
  push_cast
  ring

theorem lowerEnd_lt (hv : v.significand ≠ 0) : v.lowerEnd < v.inQuarters := by
  unfold lowerEnd inQuarters
  split <;> omega

theorem lowerEnd_pos (hv : v.significand ≠ 0) : 0 < v.lowerEnd := by
  unfold lowerEnd inQuarters
  split <;> omega

theorem lt_upperEnd (v : Magnitude) : v.inQuarters < v.upperEnd := by
  unfold upperEnd
  omega

theorem covers_value (hv : v.significand ≠ 0) : v.Covers v.value := by
  have hlow : (v.lowerEnd : ℚ) * v.quarterValue < v.value := by
    rw [value_eq_quarters]
    exact mul_lt_mul_of_pos_right (by exact_mod_cast lowerEnd_lt hv) v.quarterValue_pos
  have hhigh : v.value < (v.upperEnd : ℚ) * v.quarterValue := by
    rw [value_eq_quarters]
    exact mul_lt_mul_of_pos_right (by exact_mod_cast lt_upperEnd v) v.quarterValue_pos
  exact ⟨hlow.le, hhigh.le, fun _ => ⟨hlow, hhigh⟩⟩

/-- A number in the interval is positive. -/
theorem Covers.pos (h : v.Covers q) (hv : v.significand ≠ 0) : 0 < q :=
  (mul_pos (by exact_mod_cast lowerEnd_pos hv) v.quarterValue_pos).trans_le h.low

/-! ### Grids of decimals -/

/-- The quarter as a multiple of the grid's unit. -/
theorem value_grid (v : Magnitude) (e : Int) :
    (v.quarter.scale 10 (-e)).value = v.quarterValue / (10 : ℚ) ^ e := by
  rw [Ratio.value_scale (by decide), quarter, Ratio.value_scale (by decide), Ratio.value,
    quarterValue, zpow_neg, div_eq_mul_inv _ ((10 : ℚ) ^ e)]
  simp

theorem den_grid_pos (v : Magnitude) (e : Int) : 0 < (v.quarter.scale 10 (-e)).den :=
  Ratio.den_scale_pos (Ratio.den_scale_pos Nat.one_pos (by decide) _) (by decide) _

theorem mul_le_grid_iff (v : Magnitude) (e : Int) (m n : Nat) :
    m * (v.quarter.scale 10 (-e)).num ≤ n * (v.quarter.scale 10 (-e)).den ↔
      m * v.quarterValue ≤ n * (10 : ℚ) ^ e := by
  have hden : (0 : ℚ) < (v.quarter.scale 10 (-e)).den := by exact_mod_cast den_grid_pos v e
  have hpow : (0 : ℚ) < 10 ^ e := by positivity
  rw [← div_le_iff₀ hpow, mul_div_assoc, ← value_grid, Ratio.value, ← mul_div_assoc,
    div_le_iff₀ hden]
  exact_mod_cast Iff.rfl

theorem grid_le_mul_iff (v : Magnitude) (e : Int) (m n : Nat) :
    n * (v.quarter.scale 10 (-e)).den ≤ m * (v.quarter.scale 10 (-e)).num ↔
      n * (10 : ℚ) ^ e ≤ m * v.quarterValue := by
  have hden : (0 : ℚ) < (v.quarter.scale 10 (-e)).den := by exact_mod_cast den_grid_pos v e
  have hpow : (0 : ℚ) < 10 ^ e := by positivity
  rw [← le_div_iff₀ hpow, mul_div_assoc, ← value_grid, Ratio.value, ← mul_div_assoc,
    le_div_iff₀ hden]
  exact_mod_cast Iff.rfl

/-- A multiple of the grid's unit that passes the check lies in the interval. -/
theorem covers_of_contains {e : Int} {n : Nat}
    (h : v.contains (v.quarter.scale 10 (-e)) n = true) :
    v.Covers (⟨n, e⟩ : Fraction).value := by
  unfold contains at h
  split at h
  · rename_i heven
    simp only [Bool.and_eq_true, decide_eq_true_eq, mul_le_grid_iff, grid_le_mul_iff] at h
    exact ⟨h.1, h.2, fun hodd => by omega⟩
  · simp only [Bool.and_eq_true, decide_eq_true_eq, ← not_le, mul_le_grid_iff,
      grid_le_mul_iff] at h
    rw [not_le, not_le] at h
    exact ⟨h.1.le, h.2.le, fun _ => h⟩

theorem covers_of_onGrid {e : Int} {f : Fraction} (h : v.onGrid e = some f) :
    v.Covers f.value := by
  unfold onGrid at h
  simp only at h
  split at h
  · rename_i hbelow habove
    split at h
    · cases h
      exact covers_of_contains hbelow
    · cases h
      exact covers_of_contains habove
  · rename_i hbelow _
    cases h
    exact covers_of_contains hbelow
  · rename_i _ habove
    cases h
    exact covers_of_contains habove
  · cases h

theorem covers_of_search {count : Nat} {e : Int} {f : Fraction}
    (h : v.search count e = some f) : v.Covers f.value := by
  induction count generalizing e with
  | zero => cases h
  | succ count ih =>
    rw [search] at h
    split at h
    · rename_i g hg
      cases h
      exact covers_of_onGrid hg
    · exact ih h

/-- All digits of a number denote it. -/
theorem value_exactly (v : Magnitude) : v.exactly.value = v.value := by
  unfold exactly
  split
  · rename_i he
    obtain ⟨k, hk⟩ := Int.eq_ofNat_of_zero_le he
    simp [Fraction.value, value, hk]
  · rename_i he
    obtain ⟨k, hk⟩ : ∃ k : Nat, v.exponent = -(k : ℤ) := ⟨(-v.exponent).toNat, by omega⟩
    have hten : (10 : ℚ) ^ k = 2 ^ k * 5 ^ k := by rw [← mul_pow]; norm_num
    simp only [Fraction.value, value, hk, neg_neg, Int.toNat_natCast, Nat.pow_eq, Nat.cast_mul,
      Nat.cast_pow, Nat.cast_ofNat, zpow_neg, zpow_natCast, hten]
    field_simp

/-- **The shortest decimal lies in the interval.** -/
theorem covers_shortest (hv : v.significand ≠ 0) : v.Covers v.shortest.value := by
  unfold shortest
  cases hfound : v.search 17 v.ratio.decade with
  | some f => exact covers_of_search hfound
  | none =>
    rw [Option.getD_none, value_exactly]
    exact covers_value hv

/-! ### Integers -/

theorem integer?_eq_some_iff (v : Magnitude) (n : Nat) :
    v.integer? = some n ↔ v.value = n := by
  unfold integer? value
  split
  · rename_i he
    obtain ⟨k, hk⟩ := Int.eq_ofNat_of_zero_le he
    rw [hk, Int.toNat_natCast, Option.some.injEq, zpow_natCast, Nat.pow_eq]
    exact_mod_cast Iff.rfl
  · rename_i he
    obtain ⟨k, hk⟩ : ∃ k : Nat, v.exponent = -(k : ℤ) := ⟨(-v.exponent).toNat, by omega⟩
    have hpow : 0 < 2 ^ k := Nat.two_pow_pos k
    have hpow' : (2 : ℚ) ^ k ≠ 0 := by positivity
    have hvalue : (v.significand : ℚ) * 2 ^ (-(k : ℤ)) = n ↔ v.significand = n * 2 ^ k := by
      rw [zpow_neg, zpow_natCast, ← div_eq_mul_inv, div_eq_iff hpow']
      exact_mod_cast Iff.rfl
    rw [hk, neg_neg, Int.toNat_natCast, hvalue, Nat.pow_eq]
    split
    · rename_i hmod
      rw [Option.some.injEq]
      constructor
      · rintro rfl
        exact (Nat.div_mul_cancel (Nat.dvd_of_mod_eq_zero hmod)).symm
      · intro heq
        rw [heq, Nat.mul_div_cancel _ hpow]
    · rename_i hmod
      simp only [reduceCtorEq, false_iff]
      intro heq
      exact hmod (by rw [heq, Nat.mul_mod_left])

/-- The digits of a magnitude are a plain decimal in its interval, and those of an integer
    below the bound are its own. -/
theorem exists_plain (hv : v.significand ≠ 0) :
    ∃ d : Plain, d.chars = v.numeral ∧ v.Covers d.value ∧
      ∀ n : Nat, v.value = n → n < integerBound → v.numeral = digits n ∧ d.fraction = [] := by
  by_cases hsmall : ∃ n : Nat, v.value = n ∧ n < integerBound
  · obtain ⟨n, hvalue, hbound⟩ := hsmall
    have hnumeral : v.numeral = digits n := by
      rw [numeral, (integer?_eq_some_iff v n).mpr hvalue]
      exact if_pos hbound
    have hn : n ≠ 0 := by
      rintro rfl
      have hpos := (covers_value hv).pos hv
      rw [hvalue] at hpos
      exact lt_irrefl _ hpos
    refine ⟨.ofNat n hn, by rw [Plain.chars_ofNat, hnumeral], ?_, fun m hm _ => ?_⟩
    · rw [Plain.value_ofNat, ← hvalue]
      exact covers_value hv
    · have heq : m = n := by exact_mod_cast hm.symm.trans hvalue
      exact ⟨by rw [hnumeral, heq], rfl⟩
  · have hnumeral : v.numeral = v.shortest.positional := by
      unfold numeral
      split
      · rename_i n hn
        exact if_neg fun hbound => hsmall ⟨n, (integer?_eq_some_iff v n).mp hn, hbound⟩
      · rfl
    have hshortest := covers_shortest hv
    have hcoefficient : v.shortest.coefficient ≠ 0 := by
      intro hzero
      have hpos := hshortest.pos hv
      rw [Fraction.value, hzero, Nat.cast_zero, zero_mul] at hpos
      exact lt_irrefl _ hpos
    obtain ⟨d, hchars, hvalue⟩ := Fraction.exists_plain hcoefficient
    exact ⟨d, hchars.trans hnumeral.symm, hvalue ▸ hshortest,
      fun n hn hbound => absurd ⟨n, hn, hbound⟩ hsmall⟩

end Magnitude

/-! ### The interval lies between the midpoints -/

theorem significand_succ_ne_zero (n : Nat) : (magnitudeAt (n + 1)).significand ≠ 0 := by
  intro hzero
  have hpos := (valueAt_nonneg n).trans_lt (strictMono_valueAt (Nat.lt_succ_self n))
  rw [valueAt, Magnitude.value, hzero, Nat.cast_zero, zero_mul] at hpos
  exact lt_irrefl _ hpos

theorem upperEnd_eq_midpoint (n : Nat) :
    (magnitudeAt n).upperEnd * (magnitudeAt n).quarterValue = midpoint n := by
  rw [midpoint, valueAt_succ, valueAt, Magnitude.value_eq_quarters, unitAt, Magnitude.upperEnd,
    Magnitude.quarterValue, zpow_sub₀ (by norm_num)]
  push_cast
  ring

theorem lowerEnd_eq_midpoint (n : Nat) :
    (magnitudeAt (n + 1)).lowerEnd * (magnitudeAt (n + 1)).quarterValue = midpoint n := by
  have hstep : valueAt n = valueAt (n + 1) - unitAt n := by rw [valueAt_succ, add_sub_cancel_right]
  have hquarters : 2 ≤ (magnitudeAt (n + 1)).inQuarters := by
    have hpos := significand_succ_ne_zero n
    unfold Magnitude.inQuarters
    omega
  rw [midpoint, hstep, valueAt, Magnitude.value_eq_quarters, unitAt, exponent_of_succ,
    Magnitude.lowerEnd, Magnitude.quarterValue, zpow_sub₀ (by norm_num)]
  cases (magnitudeAt (n + 1)).tightBelow with
  | true =>
    rw [if_pos rfl, if_pos rfl, zpow_sub₀ (by norm_num), Nat.cast_sub (by omega)]
    push_cast
    ring
  | false =>
    rw [if_neg Bool.false_ne_true, if_neg Bool.false_ne_true, Nat.cast_sub (by omega), sub_zero]
    push_cast
    ring

namespace Binary64

variable {x y : Binary64}

theorem rank_eq_zero_iff (x : Binary64) : x.rank = 0 ↔ x.IsZero := by
  rw [IsZero, ← rank_div_hiddenBit, ← rank_mod_hiddenBit]
  unfold hiddenBit
  omega

/-- The numbers in the interval of a pattern round to it. -/
theorem roundsTo_of_covers (hx : x.IsFinite) (hzero : ¬ x.IsZero) {q : ℚ}
    (hq : x.magnitude.Covers q) : RoundsTo (withSign x.negative q) x := by
  obtain ⟨n, hn⟩ := Nat.exists_eq_succ_of_ne_zero (mt (rank_eq_zero_iff x).mp hzero)
  rw [magnitude_eq, hn] at hq
  obtain ⟨hlow, hhigh, hstrict⟩ := hq
  rw [lowerEnd_eq_midpoint] at hlow hstrict
  rw [upperEnd_eq_midpoint] at hhigh hstrict
  rw [significand_mod_two] at hstrict
  exact roundsTo_of_between hx hn hlow hhigh fun hodd => hstrict (hn ▸ hodd)

end Binary64

/-! ### The forms of a text -/

/-- The sign of a number's text. -/
def signChars (negative : Bool) : List Char := if negative then ['-'] else []

/-- What the text of a number can be. -/
inductive Form
  | nan
  | infinite (negative : Bool)
  | decimal (negative : Bool) (d : Plain)

namespace Form

/-- Whether a text begins with the sign. -/
def negative : Form → Bool
  | .nan => false
  | .infinite negative => negative
  | .decimal negative _ => negative

/-- A text without its sign. -/
def body : Form → List Char
  | .nan => ['N', 'a', 'N']
  | .infinite _ => ['I', 'n', 'f', 'i', 'n', 'i', 't', 'y']
  | .decimal _ d => d.chars

def chars (f : Form) : List Char := signChars f.negative ++ f.body

theorem head?_body_ne (f : Form) : f.body.head? ≠ some '-' := by
  cases f with
  | nan => decide
  | infinite negative => simp [body]
  | decimal negative d =>
    obtain ⟨c, cs, hchars, hc⟩ := d.exists_chars_eq_cons
    rw [body, hchars, List.head?_cons]
    rintro ⟨⟩
    exact absurd hc (by decide)

theorem eq_of_body {f g : Form} (hnegative : f.negative = g.negative) (hbody : f.body = g.body) :
    f = g := by
  -- the names begin with different letters, and a decimal with a digit
  have hplain (d : Plain) {c : Char} {cs : List Char} (hc : c.isDigit = false) :
      d.chars ≠ c :: cs := by
    obtain ⟨c', cs', hchars, hc'⟩ := d.exists_chars_eq_cons
    rw [hchars]
    rintro ⟨⟩
    rw [hc] at hc'
    exact Bool.false_ne_true hc'
  cases f with
  | nan =>
    cases g with
    | nan => rfl
    | infinite _ => exact absurd hbody (by simp [body])
    | decimal _ d => exact absurd hbody.symm (hplain d rfl)
  | infinite negative =>
    cases g with
    | nan => exact absurd hbody (by simp [body])
    | infinite _ => exact congrArg infinite hnegative
    | decimal _ d => exact absurd hbody.symm (hplain d rfl)
  | decimal negative d =>
    cases g with
    | nan => exact absurd hbody (hplain d rfl)
    | infinite _ => exact absurd hbody (hplain d rfl)
    | decimal negative' d' =>
      cases hnegative
      rw [Plain.eq_of_chars hbody]

/-- The text determines the form. -/
theorem eq_of_chars {f g : Form} (h : f.chars = g.chars) : f = g := by
  have hf := f.head?_body_ne
  have hg := g.head?_body_ne
  unfold chars at h
  cases hnf : f.negative <;> cases hng : g.negative <;> rw [hnf, hng] at h
  · exact eq_of_body (hnf.trans hng.symm) h
  · exact absurd (congrArg List.head? h) hf
  · exact absurd (congrArg List.head? h).symm hg
  · exact eq_of_body (hnf.trans hng.symm) (List.tail_eq_of_cons_eq h)

end Form

/-! ### The text of a number -/

theorem numeral_finite (negative : Bool) (v : Magnitude) :
    Denotation.numeral (.finite negative v) =
      if v.significand = 0 then ['0'] else if negative then '-' :: v.numeral else v.numeral := rfl

namespace Binary64

variable {x y : Binary64}

/-- Whether a pattern denotes an infinity. -/
def IsInfinite (x : Binary64) : Prop := x.exponentField = 2047 ∧ x.fractionField = 0

theorem text_of_nan (hx : x.IsNaN) : x.text = "NaN" := by
  rw [text, denotation, if_pos hx.1, if_neg hx.2]
  rfl

theorem text_of_infinite (hx : x.IsInfinite) :
    x.text = if x.negative then "-Infinity" else "Infinity" := by
  rw [text, denotation, if_pos hx.1, if_pos hx.2]
  cases x.negative <;> rfl

theorem significand_eq_zero_iff (x : Binary64) : x.magnitude.significand = 0 ↔ x.IsZero := by
  rw [magnitude_eq]
  constructor
  · intro hzero
    rw [← rank_eq_zero_iff]
    by_contra hne
    obtain ⟨n, hn⟩ := Nat.exists_eq_succ_of_ne_zero hne
    rw [hn] at hzero
    exact significand_succ_ne_zero n hzero
  · intro hzero
    rw [(rank_eq_zero_iff x).mpr hzero]
    rfl

theorem text_of_zero (hx : x.IsZero) : x.text = "0" := by
  have hfinite : x.exponentField ≠ 2047 := by
    rw [hx.1]
    decide
  rw [text, denotation, if_neg hfinite, numeral_finite,
    if_pos ((significand_eq_zero_iff x).mpr hx)]

/-- The text of a number that is not zero is a sign and a plain decimal in its interval;
    an integer below the bound shows its own digits. -/
theorem text_of_nonzero (hx : x.IsFinite) (hzero : ¬ x.IsZero) :
    ∃ d : Plain, x.text = String.ofList (signChars x.negative ++ d.chars) ∧
      x.magnitude.Covers d.value ∧
      ∀ n : Nat, x.magnitude.value = n → n < integerBound →
        d.chars = digits n ∧ d.fraction = [] := by
  have hsignificand := mt (significand_eq_zero_iff x).mp hzero
  obtain ⟨d, hchars, hcovers, hinteger⟩ := Magnitude.exists_plain hsignificand
  refine ⟨d, ?_, hcovers, fun n hn hbound => ?_⟩
  · rw [text, denotation, if_neg hx, numeral_finite, if_neg hsignificand, hchars]
    cases x.negative <;> rfl
  · obtain ⟨hdigits, hfraction⟩ := hinteger n hn hbound
    exact ⟨hchars.trans hdigits, hfraction⟩

theorem magnitude_value_of_integer {n : ℤ} (hn : x.value = n) :
    x.magnitude.value = (n.natAbs : ℕ) := by
  have hnonneg : 0 ≤ x.magnitude.value := by
    unfold Magnitude.value
    positivity
  have habs := congrArg abs hn
  rw [value, abs_withSign, abs_of_nonneg hnonneg] at habs
  rw [habs, Nat.cast_natAbs, Int.cast_abs]

/-- The usual text of an integer is its sign and its digits. -/
theorem toString_of_integer {n : ℤ} (hzero : ¬ x.IsZero) (hn : x.value = n) :
    toString n = String.ofList (signChars x.negative ++ digits n.natAbs) := by
  have hsignificand := mt (significand_eq_zero_iff x).mp hzero
  have hpos := (Magnitude.covers_value hsignificand).pos hsignificand
  rw [value] at hn
  cases hnegative : x.negative with
  | false =>
    rw [hnegative] at hn
    have hsign : 0 ≤ n := by
      have hcast : (0 : ℚ) ≤ n := hn ▸ hpos.le
      exact_mod_cast hcast
    obtain ⟨m, rfl⟩ := Int.eq_ofNat_of_zero_le hsign
    exact Nat.toString_eq_ofList_toDigits
  | true =>
    rw [hnegative] at hn
    have hsign : n < 0 := by
      have hcast : (n : ℚ) < 0 := by
        rw [← hn]
        exact neg_neg_of_pos hpos
      exact_mod_cast hcast
    obtain ⟨m, rfl⟩ := Int.eq_negSucc_of_lt_zero hsign
    have htext : toString (Int.negSucc m) = "-" ++ toString (m + 1) := rfl
    rw [htext, Nat.toString_eq_ofList_toDigits]
    exact String.ofList_append.symm

/-- What a number has to be for its text to have the given form. -/
def HasForm (x : Binary64) : Form → Prop
  | .nan => x.IsNaN
  | .infinite negative => x.IsInfinite ∧ x.negative = negative
  | .decimal negative d =>
    x.IsZero ∧ d.value = 0 ∨ d.value ≠ 0 ∧ RoundsTo (withSign negative d.value) x

theorem exists_form (x : Binary64) : ∃ f : Form, x.HasForm f ∧ x.text = String.ofList f.chars := by
  by_cases hfinite : x.IsFinite
  · by_cases hzero : x.IsZero
    · refine ⟨.decimal false ⟨['0'], [], by simp, by simp, fun _ => rfl, by simp⟩, ?_, ?_⟩
      · exact .inl ⟨hzero, by simp [Plain.value, Nat.ofDigitChars]⟩
      · rw [text_of_zero hzero]
        rfl
    · obtain ⟨d, htext, hcovers, _⟩ := text_of_nonzero hfinite hzero
      have hpos := hcovers.pos (mt (significand_eq_zero_iff x).mp hzero)
      exact ⟨.decimal x.negative d, .inr ⟨hpos.ne', roundsTo_of_covers hfinite hzero hcovers⟩,
        htext⟩
  · have hexponent : x.exponentField = 2047 := not_not.mp hfinite
    by_cases hfraction : x.fractionField = 0
    · refine ⟨.infinite x.negative, ⟨⟨hexponent, hfraction⟩, rfl⟩, ?_⟩
      rw [text_of_infinite ⟨hexponent, hfraction⟩]
      cases x.negative <;> rfl
    · exact ⟨.nan, ⟨hexponent, hfraction⟩, text_of_nan ⟨hexponent, hfraction⟩⟩

/-- Numbers of one form are the same, or no numbers, or zeros. -/
theorem eq_of_hasForm {f : Form} (hx : x.HasForm f) (hy : y.HasForm f) :
    x = y ∨ x.IsNaN ∧ y.IsNaN ∨ x.IsZero ∧ y.IsZero := by
  cases f with
  | nan => exact .inr (.inl ⟨hx, hy⟩)
  | infinite negative =>
    obtain ⟨⟨hexponent, hfraction⟩, hnegative⟩ := hx
    obtain ⟨⟨hexponent', hfraction'⟩, hnegative'⟩ := hy
    rw [← rank_div_hiddenBit] at hexponent hexponent'
    rw [← rank_mod_hiddenBit] at hfraction hfraction'
    refine .inl (eq_of_rank (hnegative.trans hnegative'.symm) ?_)
    rw [← Nat.div_add_mod x.rank hiddenBit, ← Nat.div_add_mod y.rank hiddenBit, hexponent,
      hexponent', hfraction, hfraction']
  | decimal negative d =>
    rcases hx with ⟨hx, hvalue⟩ | ⟨hvalue, hx⟩
    · rcases hy with ⟨hy, _⟩ | ⟨hvalue', _⟩
      · exact .inr (.inr ⟨hx, hy⟩)
      · exact absurd hvalue hvalue'
    · rcases hy with ⟨_, hvalue'⟩ | ⟨_, hy⟩
      · exact absurd hvalue' hvalue
      · exact .inl (hx.unique hy)

/-- **The text of a number gives back the number.**  The patterns that are no numbers have
    the text `NaN`, the infinities `Infinity` and `-Infinity`, and both zeros `0`.  The text of any
    other number is a sign, exactly when it is negative, and a plain decimal; with the sign,
    the decimal rounds to this number and to no other.  An integer below `10 ^ 21` has its
    usual text, without a point.  So two patterns have the same text only if they are
    equal, no numbers both of them, or the two zeros. -/
theorem number_text_round_trips (x : Binary64) :
    (x.IsNaN → x.text = "NaN") ∧
    (x.IsInfinite → x.text = if x.negative then "-Infinity" else "Infinity") ∧
    (x.IsZero → x.text = "0") ∧
    (x.IsFinite → ¬ x.IsZero → ∃ d : Plain,
      x.text = String.ofList ((if x.negative then ['-'] else []) ++ d.chars) ∧
      (∀ n : ℤ, x.value = n → |n| < 10 ^ 21 → x.text = toString n ∧ d.fraction = []) ∧
      ∀ y, RoundsTo (withSign x.negative d.value) y ↔ y = x) ∧
    ∀ y : Binary64, x.text = y.text ↔ x = y ∨ x.IsNaN ∧ y.IsNaN ∨ x.IsZero ∧ y.IsZero := by
  refine ⟨text_of_nan, text_of_infinite, text_of_zero, fun hfinite hzero => ?_, fun y => ?_⟩
  · obtain ⟨d, htext, hcovers, hdigits⟩ := text_of_nonzero hfinite hzero
    have hrounds := roundsTo_of_covers hfinite hzero hcovers
    refine ⟨d, htext, fun n hn hbound => ?_, fun y => ⟨fun hy => hy.unique hrounds, ?_⟩⟩
    · have hbound' : n.natAbs < integerBound := by
        rw [Int.abs_eq_natAbs] at hbound
        exact_mod_cast hbound
      obtain ⟨hchars, hfraction⟩ := hdigits n.natAbs (magnitude_value_of_integer hn) hbound'
      exact ⟨by rw [htext, hchars, toString_of_integer hzero hn], hfraction⟩
    · rintro rfl
      exact hrounds
  · constructor
    · intro htexts
      obtain ⟨f, hf, hx⟩ := exists_form x
      obtain ⟨g, hg, hy⟩ := exists_form y
      have hchars : f.chars = g.chars := String.ofList_injective (by rw [← hx, htexts, hy])
      rw [Form.eq_of_chars hchars] at hf
      exact eq_of_hasForm hf hg
    · rintro (rfl | ⟨hx, hy⟩ | ⟨hx, hy⟩)
      · rfl
      · rw [text_of_nan hx, text_of_nan hy]
      · rw [text_of_zero hx, text_of_zero hy]

example : (⟨0x3FB999999999999A⟩ : Binary64).text = "0.1" := by decide +kernel

end Binary64

end ScriptDebugger.Decimal
