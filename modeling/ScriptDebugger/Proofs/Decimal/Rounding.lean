/-
  ScriptDebugger/Proofs/Decimal/Rounding.lean
  ===========================================
  **Rounding to double precision.**

  A rational number rounds to the finite number that is nearest to it, and of two
  nearest ones to the one with the even significand (`RoundsTo`).  The magnitudes are
  taken here in ascending order, `magnitudeAt n` being that of the pattern `n`: each
  stands one unit of its last place below the next (`valueAt_succ`), so the numbers
  that round to it are those between its two midpoints (`roundsTo_of_between`), and no
  number rounds to two patterns (`RoundsTo.unique`).
-/
import Mathlib.Algebra.Order.Field.Power
import Mathlib.Data.Rat.Lemmas
import Mathlib.Order.Monotone.Basic
import Mathlib.Tactic.FieldSimp
import Mathlib.Tactic.Linarith
import Mathlib.Tactic.NormNum
import Mathlib.Tactic.Positivity
import Mathlib.Tactic.Ring
import ScriptDebugger.Decimal.Range

namespace ScriptDebugger.Decimal

/-! ### What a finite number is -/

/-- The rational number that a magnitude is. -/
def Magnitude.value (v : Magnitude) : ℚ := v.significand * (2 : ℚ) ^ v.exponent

/-- A rational number with a sign. -/
def withSign (negative : Bool) (q : ℚ) : ℚ := if negative then -q else q

namespace Binary64

/-- Whether a pattern denotes a number. -/
def IsFinite (x : Binary64) : Prop := x.exponentField ≠ 2047

/-- Whether a pattern denotes no number and no infinity. -/
def IsNaN (x : Binary64) : Prop := x.exponentField = 2047 ∧ x.fractionField ≠ 0

/-- Whether a pattern is one of the two zeros. -/
def IsZero (x : Binary64) : Prop := x.exponentField = 0 ∧ x.fractionField = 0

/-- The rational number that a finite pattern denotes. -/
def value (x : Binary64) : ℚ := withSign x.negative x.magnitude.value

end Binary64

/-- A rational number rounds to a pattern: to nearest, and to even if two are nearest. -/
structure RoundsTo (q : ℚ) (x : Binary64) : Prop where
  finite : x.IsFinite
  inRange : |q| < rangeBound
  sign : x.negative = true ↔ q < 0
  nearest : ∀ y : Binary64, y.IsFinite → |q - x.value| ≤ |q - y.value|
  even : ∀ y : Binary64, y.IsFinite → y.value ≠ x.value → |q - y.value| = |q - x.value| →
    x.fractionField % 2 = 0

/-! ### Signs -/

theorem abs_withSign (negative : Bool) (q : ℚ) : |withSign negative q| = |q| := by
  cases negative with
  | false => rfl
  | true => exact abs_neg q

theorem abs_withSign_sub (negative : Bool) (p q : ℚ) :
    |withSign negative p - withSign negative q| = |p - q| := by
  cases negative with
  | false => rfl
  | true =>
    rw [withSign, withSign, if_pos rfl, if_pos rfl, ← neg_sub', abs_neg]

theorem withSign_abs {q : ℚ} {negative : Bool} (hsign : negative = true ↔ q < 0) :
    withSign negative |q| = q := by
  cases negative with
  | false => exact abs_of_nonneg (not_lt.mp fun hq => Bool.false_ne_true (hsign.mpr hq))
  | true =>
    rw [withSign, if_pos rfl, abs_of_neg (hsign.mp rfl), neg_neg]

/-- Numbers with different signs are as far apart as they are from zero. -/
theorem abs_withSign_sub_of_ne {p q : ℚ} (hp : 0 ≤ p) (hq : 0 ≤ q) {negative negative' : Bool}
    (hne : negative ≠ negative') : |withSign negative p - withSign negative' q| = p + q := by
  cases negative with
  | false =>
    rw [Bool.eq_true_of_not_eq_false (Ne.symm hne), withSign, withSign, if_neg Bool.false_ne_true,
      if_pos rfl, sub_neg_eq_add, abs_of_nonneg (add_nonneg hp hq)]
  | true =>
    rw [Bool.eq_false_of_not_eq_true (Ne.symm hne), withSign, withSign, if_neg Bool.false_ne_true,
      if_pos rfl, ← neg_add', abs_neg, abs_of_nonneg (add_nonneg hp hq)]

/-- Signs keep two numbers apart at least as far as they are. -/
theorem abs_sub_le_withSign {p q : ℚ} (hp : 0 ≤ p) (hq : 0 ≤ q) (negative negative' : Bool) :
    |p - q| ≤ |withSign negative p - withSign negative' q| := by
  have h := abs_abs_sub_abs_le_abs_sub (withSign negative p) (withSign negative' q)
  rwa [abs_withSign, abs_withSign, abs_of_nonneg hp, abs_of_nonneg hq] at h

/-! ### The magnitudes in order -/

open Binary64 (hiddenBit signUnit)

/-- The magnitudes in ascending order, as if there was no largest exponent. -/
def magnitudeAt (n : Nat) : Magnitude :=
  if n / hiddenBit = 0 then ⟨n % hiddenBit, -1074, false⟩
  else ⟨hiddenBit + n % hiddenBit, ((n / hiddenBit : Nat) : Int) - 1075,
    n % hiddenBit == 0 && decide (1 < n / hiddenBit)⟩

/-- The value of the `n`-th magnitude. -/
def valueAt (n : Nat) : ℚ := (magnitudeAt n).value

/-- The weight of the last place of the `n`-th magnitude. -/
def unitAt (n : Nat) : ℚ := (2 : ℚ) ^ (magnitudeAt n).exponent

/-- The midpoint between the `n`-th magnitude and the next. -/
def midpoint (n : Nat) : ℚ := (valueAt n + valueAt (n + 1)) / 2

/-- The `n`-th magnitude and the next have the same exponent field, or the next one
    begins a new one. -/
theorem div_mod_succ (n : Nat) :
    (n + 1) / hiddenBit = n / hiddenBit ∧ (n + 1) % hiddenBit = n % hiddenBit + 1 ∨
      (n + 1) / hiddenBit = n / hiddenBit + 1 ∧ (n + 1) % hiddenBit = 0 ∧
        n % hiddenBit + 1 = hiddenBit := by
  unfold hiddenBit
  omega

theorem valueAt_succ (n : Nat) : valueAt (n + 1) = valueAt n + unitAt n := by
  unfold valueAt unitAt Magnitude.value magnitudeAt
  rcases div_mod_succ n with ⟨hfield, hfraction⟩ | ⟨hfield, hfraction, hlast⟩
  · rw [hfield, hfraction]
    split
    · simp only [Nat.cast_succ, add_mul, one_mul]
    · simp only [← Nat.add_assoc, Nat.cast_succ, add_mul, one_mul]
  · have hlast' : ((n % hiddenBit : Nat) : ℚ) + 1 = hiddenBit := by exact_mod_cast hlast
    rw [hfield, hfraction, if_neg (Nat.succ_ne_zero _)]
    split
    · rename_i hzero
      simp only [hzero, ← hlast', Nat.add_zero]
      rw [show ((0 + 1 : Nat) : Int) - 1075 = -1074 by rfl]
      ring
    · rename_i hpos
      simp only [Nat.cast_add, Nat.add_zero, ← hlast', Nat.cast_one]
      rw [show ((n / hiddenBit : Nat) : Int) + 1 - 1075 = ((n / hiddenBit : Nat) : Int) - 1075 + 1 by
        ring, zpow_add_one₀ (by norm_num)]
      ring

theorem unitAt_pos (n : Nat) : 0 < unitAt n := by
  unfold unitAt
  positivity

theorem strictMono_valueAt : StrictMono valueAt := by
  apply strictMono_nat_of_lt_succ
  intro n
  rw [valueAt_succ]
  linarith [unitAt_pos n]

theorem valueAt_zero : valueAt 0 = 0 := by
  simp [valueAt, Magnitude.value, magnitudeAt]

theorem valueAt_nonneg (n : Nat) : 0 ≤ valueAt n := by
  rw [← valueAt_zero]
  exact strictMono_valueAt.monotone (Nat.zero_le n)

/-- The magnitude just above a power of two has the finer one below. -/
theorem exponent_of_succ (n : Nat) :
    (magnitudeAt n).exponent =
      (magnitudeAt (n + 1)).exponent - if (magnitudeAt (n + 1)).tightBelow then 1 else 0 := by
  unfold magnitudeAt
  rcases div_mod_succ n with ⟨hfield, hfraction⟩ | ⟨hfield, hfraction, _⟩
  · rw [hfield, hfraction]
    split
    · simp
    · simp
  · rw [hfield, hfraction, if_neg (Nat.succ_ne_zero _)]
    generalize n / hiddenBit = field
    by_cases hzero : field = 0
    · simp [hzero]
    · have hpos : 1 < field + 1 := by omega
      simp only [hzero, hpos, if_false, decide_true, beq_self_eq_true, Bool.and_self, if_true]
      omega

theorem significand_mod_two (n : Nat) : (magnitudeAt n).significand % 2 = n % 2 := by
  unfold magnitudeAt hiddenBit
  split
  · simp only
    omega
  · simp only
    omega

/-! ### The patterns in order -/

namespace Binary64

/-- The place of a pattern's magnitude in ascending order. -/
def rank (x : Binary64) : Nat := x.bits.toNat % signUnit

/-- The pattern with the given sign and place. -/
def ofRank (negative : Bool) (n : Nat) : Binary64 :=
  ⟨UInt64.ofNat (n + if negative then signUnit else 0)⟩

theorem rank_div_hiddenBit (x : Binary64) : x.rank / hiddenBit = x.exponentField := by
  unfold rank exponentField hiddenBit signUnit
  omega

theorem rank_mod_hiddenBit (x : Binary64) : x.rank % hiddenBit = x.fractionField := by
  unfold rank fractionField hiddenBit signUnit
  omega

theorem magnitude_eq (x : Binary64) : x.magnitude = magnitudeAt x.rank := by
  rw [magnitude, magnitudeAt, rank_div_hiddenBit, rank_mod_hiddenBit]

theorem value_eq (x : Binary64) : x.value = withSign x.negative (valueAt x.rank) := by
  rw [value, magnitude_eq, valueAt]

theorem fractionField_mod_two (x : Binary64) : x.fractionField % 2 = x.rank % 2 := by
  rw [← rank_mod_hiddenBit]
  unfold hiddenBit
  omega

/-- The patterns that denote numbers come before all others. -/
theorem isFinite_iff (x : Binary64) : x.IsFinite ↔ x.rank < 2047 * hiddenBit := by
  have hlt : x.rank < 2048 * hiddenBit := Nat.mod_lt _ (by decide)
  rw [IsFinite, ← rank_div_hiddenBit]
  unfold hiddenBit at *
  omega

theorem rank_ofRank (negative : Bool) {n : Nat} (hn : n < signUnit) :
    (ofRank negative n).rank = n := by
  unfold ofRank rank signUnit at *
  cases negative with
  | false =>
    rw [if_neg (by decide), UInt64.toNat_ofNat']
    omega
  | true =>
    rw [if_pos rfl, UInt64.toNat_ofNat']
    omega

theorem negative_ofRank (negative : Bool) {n : Nat} (hn : n < signUnit) :
    (ofRank negative n).negative = negative := by
  unfold ofRank Binary64.negative signUnit at *
  cases negative with
  | false =>
    rw [if_neg (by decide), UInt64.toNat_ofNat', decide_eq_false_iff_not]
    omega
  | true =>
    rw [if_pos rfl, UInt64.toNat_ofNat', decide_eq_true_iff]
    omega

theorem isFinite_ofRank (negative : Bool) {n : Nat} (hn : n < 2047 * hiddenBit) :
    (ofRank negative n).IsFinite := by
  rwa [isFinite_iff, rank_ofRank]
  exact hn.trans (by decide)

/-- A pattern is its sign and its place. -/
theorem eq_of_rank {x y : Binary64} (hnegative : x.negative = y.negative)
    (hrank : x.rank = y.rank) : x = y := by
  have hx := x.bits.toNat_lt
  have hy := y.bits.toNat_lt
  have hbits : x.bits.toNat = y.bits.toNat := by
    unfold negative rank signUnit at *
    simp only [decide_eq_decide] at hnegative
    omega
  cases x
  cases y
  exact congrArg mk (UInt64.toNat_inj.mp hbits)

end Binary64

/-! ### The numbers that round to a pattern -/

section Between

variable {n : Nat} {p : ℚ}

theorem midpoint_lt (n : Nat) : midpoint n < valueAt (n + 1) := by
  have hstep := strictMono_valueAt (Nat.lt_succ_self n)
  unfold midpoint
  linarith

theorem lt_midpoint (n : Nat) : valueAt n < midpoint n := by
  have hstep := strictMono_valueAt (Nat.lt_succ_self n)
  unfold midpoint
  linarith

theorem strictMono_midpoint : StrictMono midpoint :=
  strictMono_nat_of_lt_succ fun n => (midpoint_lt n).trans (lt_midpoint (n + 1))

/-- From the midpoint on, the upper of two numbers is the nearer one. -/
theorem abs_sub_le_of_midpoint_le {a b : ℚ} (hab : a < b) (hp : (a + b) / 2 ≤ p) :
    |p - b| ≤ p - a := by
  rw [abs_le]
  constructor <;> linarith

/-- Up to the midpoint, the lower of two numbers is the nearer one. -/
theorem abs_sub_le_of_le_midpoint {a b : ℚ} (hab : a < b) (hp : p ≤ (a + b) / 2) :
    |p - a| ≤ b - p := by
  rw [abs_le]
  constructor <;> linarith

/-- Between its midpoints, a magnitude is the nearest one; another that is as near
    has the number at the midpoint. -/
theorem nearest_between (hlow : midpoint n ≤ p) (hhigh : p ≤ midpoint (n + 1)) (m : Nat) :
    |p - valueAt (n + 1)| ≤ |p - valueAt m| ∧
      (|p - valueAt m| = |p - valueAt (n + 1)| → m ≠ n + 1 →
        p = midpoint n ∨ p = midpoint (n + 1)) := by
  have hbelow := strictMono_valueAt (Nat.lt_succ_self n)
  have habove := strictMono_valueAt (Nat.lt_succ_self (n + 1))
  rcases lt_trichotomy m (n + 1) with hm | rfl | hm
  · have hle : valueAt m ≤ valueAt n := strictMono_valueAt.monotone (Nat.le_of_lt_succ hm)
    have hnear := abs_sub_le_of_midpoint_le hbelow hlow
    have hfar : p - valueAt m ≤ |p - valueAt m| := le_abs_self _
    refine ⟨by linarith, fun heq _ => .inl ?_⟩
    rcases abs_choice (p - valueAt (n + 1)) with hside | hside
    · linarith
    · unfold midpoint
      linarith
  · exact ⟨le_rfl, fun _ hne => absurd rfl hne⟩
  · have hle : valueAt (n + 2) ≤ valueAt m := strictMono_valueAt.monotone hm
    have hnear := abs_sub_le_of_le_midpoint habove hhigh
    have hfar : valueAt m - p ≤ |p - valueAt m| := by
      rw [abs_sub_comm]
      exact le_abs_self _
    refine ⟨by linarith, fun heq _ => .inr ?_⟩
    rcases abs_choice (p - valueAt (n + 1)) with hside | hside
    · unfold midpoint
      linarith
    · linarith

theorem cast_two_pow_sub {m k : Nat} (hle : k ≤ m) :
    ((Nat.pow 2 m - Nat.pow 2 k : Nat) : ℚ) = 2 ^ m - 2 ^ k := by
  have hpow : Nat.pow 2 k ≤ Nat.pow 2 m := Nat.pow_le_pow_right (by decide) hle
  rw [Nat.cast_sub hpow]
  simp

/-- Above the largest finite magnitude, the midpoint is where infinity begins. -/
theorem midpoint_last : midpoint (2047 * hiddenBit - 1) = rangeBound := by
  have hunit : unitAt (2047 * hiddenBit - 1) = 2 ^ 971 := by
    rw [unitAt, show (magnitudeAt (2047 * hiddenBit - 1)).exponent = (971 : Nat) by decide,
      zpow_natCast]
  have hnext : valueAt (2047 * hiddenBit - 1 + 1) = 2 ^ 1024 := by
    rw [valueAt, Magnitude.value,
      show (magnitudeAt (2047 * hiddenBit - 1 + 1)).significand = 2 ^ 52 by decide,
      show (magnitudeAt (2047 * hiddenBit - 1 + 1)).exponent = (972 : Nat) by decide,
      zpow_natCast, Nat.cast_pow, Nat.cast_ofNat, ← pow_add]
  have hbound : (rangeBound : ℚ) = 2 ^ 1024 - 2 ^ 970 := by
    rw [rangeBound, cast_two_pow_sub (by decide)]
  have hhalf : (2 : ℚ) ^ 971 = 2 ^ 970 * 2 := pow_succ 2 970
  have hlast := valueAt_succ (2047 * hiddenBit - 1)
  rw [hunit, hnext, hhalf] at hlast
  rw [midpoint, hbound, hnext]
  generalize (2 : ℚ) ^ 1024 = next at *
  generalize (2 : ℚ) ^ 970 = quarter at *
  linarith

end Between

open Binary64 in
/-- **Between the midpoints a number rounds to the pattern**, with the midpoints
    themselves if the pattern is even. -/
theorem roundsTo_of_between {x : Binary64} (hx : x.IsFinite) {n : Nat} (hn : x.rank = n + 1)
    {p : ℚ} (hlow : midpoint n ≤ p) (hhigh : p ≤ midpoint (n + 1))
    (hodd : x.rank % 2 = 1 → midpoint n < p ∧ p < midpoint (n + 1)) :
    RoundsTo (withSign x.negative p) x := by
  have hpos : 0 < p := (valueAt_nonneg n).trans_lt ((lt_midpoint n).trans_le hlow)
  have hvalue : |withSign x.negative p - x.value| = |p - valueAt (n + 1)| := by
    rw [value_eq, abs_withSign_sub, hn]
  have hfar (y : Binary64) : |p - valueAt y.rank| ≤ |withSign x.negative p - y.value| := by
    rw [value_eq]
    exact abs_sub_le_withSign hpos.le (valueAt_nonneg _) _ _
  refine ⟨hx, ?inRange, ?sign, ?nearest, ?even⟩
  case inRange =>
    rw [abs_withSign, abs_of_pos hpos, ← midpoint_last]
    have hle : n + 1 ≤ 2047 * hiddenBit - 1 :=
      hn ▸ Nat.le_sub_one_of_lt ((isFinite_iff x).mp hx)
    rcases hle.lt_or_eq with hlt | hlast
    · exact hhigh.trans_lt (strictMono_midpoint hlt)
    · have hmod : x.rank % 2 = 1 := by
        rw [hn, hlast]
        decide
      exact hlast ▸ (hodd hmod).2
  case sign =>
    cases x.negative with
    | false => simpa [withSign] using hpos.le
    | true => simpa [withSign] using hpos
  case nearest =>
    intro y _
    rw [hvalue]
    exact (nearest_between hlow hhigh y.rank).1.trans (hfar y)
  case even =>
    intro y _ hne heq
    rw [hvalue] at heq
    by_contra hfraction
    have hmod : x.rank % 2 = 1 := by
      rw [← fractionField_mod_two]
      omega
    obtain ⟨hstrict, hstrict'⟩ := hodd hmod
    obtain ⟨hnear, htie⟩ := nearest_between hlow hhigh y.rank
    have hsame : |p - valueAt y.rank| = |p - valueAt (n + 1)| :=
      le_antisymm ((hfar y).trans heq.le) hnear
    by_cases hrank : y.rank = n + 1
    · -- the same magnitude with the other sign is farther away
      have hsigns : x.negative ≠ y.negative := fun hsigns =>
        hne (by rw [value_eq, value_eq, hsigns, hn, hrank])
      have hnext : 0 < valueAt (n + 1) := (valueAt_nonneg n).trans_lt
        ((lt_midpoint n).trans (midpoint_lt n))
      rw [value_eq, abs_withSign_sub_of_ne hpos.le (valueAt_nonneg _) hsigns, hrank] at heq
      rcases abs_choice (p - valueAt (n + 1)) with hside | hside
      · linarith
      · linarith
    · rcases htie hsame hrank with hmid | hmid
      · linarith
      · linarith

/-- A number strictly between two others is nearer to their midpoint. -/
theorem abs_sub_lt_of_between {p a b c : ℚ} (hab : |p - a| = |p - c|) (hlow : a < b)
    (hhigh : b < c) : |p - b| < |p - a| := by
  rcases abs_eq_abs.mp hab with heq | heq
  · linarith
  · have hnonneg : 0 ≤ p - a := by linarith
    rw [abs_of_nonneg hnonneg, abs_lt]
    constructor <;> linarith

namespace RoundsTo

open Binary64

variable {q : ℚ} {x y : Binary64}

/-- The distance to the pattern it rounds to is one of magnitudes. -/
theorem abs_sub_value (h : RoundsTo q x) (hnegative : y.negative = x.negative) :
    |q - y.value| = |(|q| - valueAt y.rank)| := by
  conv_lhs => rw [← withSign_abs h.sign]
  rw [value_eq, hnegative, abs_withSign_sub]

/-- Of two patterns that a number rounds to, none has the smaller magnitude: both are
    even, and the one in between would be nearer. -/
theorem not_rank_lt (hx : RoundsTo q x) (hy : RoundsTo q y)
    (hnegative : y.negative = x.negative) : ¬ x.rank < y.rank := by
  intro hlt
  have heq : |q - x.value| = |q - y.value| :=
    le_antisymm (hx.nearest y hy.finite) (hy.nearest x hx.finite)
  have hne : x.value ≠ y.value := by
    rw [value_eq, value_eq, hnegative]
    intro hvalue
    have habs := congrArg abs hvalue
    rw [abs_withSign, abs_withSign, abs_of_nonneg (valueAt_nonneg _),
      abs_of_nonneg (valueAt_nonneg _)] at habs
    exact hlt.ne (strictMono_valueAt.injective habs)
  have hxeven := hx.even y hy.finite hne.symm heq.symm
  have hyeven := hy.even x hx.finite hne heq
  rw [fractionField_mod_two] at hxeven hyeven
  have hgap : x.rank + 1 < y.rank := by omega
  have hbound : x.rank + 1 < 2047 * hiddenBit := hgap.trans ((isFinite_iff y).mp hy.finite)
  have hfits : x.rank + 1 < signUnit := hbound.trans (by decide)
  have hnear := hx.nearest (ofRank x.negative (x.rank + 1)) (isFinite_ofRank _ hbound)
  rw [hx.abs_sub_value rfl, hx.abs_sub_value (negative_ofRank _ hfits), rank_ofRank _ hfits]
    at hnear
  rw [hx.abs_sub_value rfl, hx.abs_sub_value hnegative] at heq
  exact absurd (abs_sub_lt_of_between heq (strictMono_valueAt (Nat.lt_succ_self _))
    (strictMono_valueAt hgap)) (not_lt.mpr hnear)

/-- **A number rounds to one pattern only.** -/
theorem unique (hx : RoundsTo q x) (hy : RoundsTo q y) : x = y := by
  have hnegative : x.negative = y.negative := by
    rw [Bool.eq_iff_iff, hx.sign, hy.sign]
  rcases lt_trichotomy x.rank y.rank with hlt | heq | hgt
  · exact absurd hlt (hx.not_rank_lt hy hnegative.symm)
  · exact eq_of_rank hnegative heq
  · exact absurd hgt (hy.not_rank_lt hx hnegative)

end RoundsTo

end ScriptDebugger.Decimal
