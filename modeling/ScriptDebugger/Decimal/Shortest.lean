/-
  ScriptDebugger/Decimal/Shortest.lean
  ====================================
  **The shortest decimal that reads back as a given double.**

  The reals that round to a finite number form an interval around it, closed
  exactly when the significand is even.  On the grid of the multiples of a power
  of ten the number has two neighbours; the coarsest of seventeen grids with a
  neighbour inside the interval gives the fewest digits, and of two neighbours
  inside, the nearer one is taken.  Everything is exact arithmetic on `Nat`.
-/
import ScriptDebugger.Decimal.Binary64

namespace ScriptDebugger.Decimal

/-- The decimal fraction `coefficient · 10 ^ exponent`. -/
structure Fraction where
  coefficient : Nat
  exponent : Int
  deriving DecidableEq, Repr

/-- The rational number `num / den`. -/
structure Ratio where
  num : Nat
  den : Nat
  deriving DecidableEq, Repr

namespace Ratio

/-- The ratio multiplied by `base ^ e`. -/
def scale (r : Ratio) (base : Nat) (e : Int) : Ratio :=
  if 0 ≤ e then ⟨r.num * Nat.pow base e.toNat, r.den⟩ else ⟨r.num, r.den * Nat.pow base (-e).toNat⟩

/-- The number of decimal digits of a natural number, at least one. -/
def digitCount (n : Nat) : Nat := (Nat.toDigits 10 n).length

/-- The `e` with `10 ^ e ≤ r < 10 ^ (e + 1)`, for a positive ratio. -/
def decade (r : Ratio) : Int :=
  let e : Int := (digitCount r.num : Int) - digitCount r.den
  let lifted := (⟨r.num, r.den⟩ : Ratio).scale 10 (-e)
  if lifted.den ≤ lifted.num then e else e - 1

end Ratio

namespace Magnitude

/-- A quarter of the step at which the number stands, so that the number and both
    ends of its interval are whole multiples. -/
def quarter (v : Magnitude) : Ratio := (⟨1, 1⟩ : Ratio).scale 2 (v.exponent - 2)

/-- The number in quarters. -/
def inQuarters (v : Magnitude) : Nat := 4 * v.significand

/-- The lower end of the interval, in quarters. -/
def lowerEnd (v : Magnitude) : Nat := v.inQuarters - if v.tightBelow then 1 else 2

/-- The upper end of the interval, in quarters. -/
def upperEnd (v : Magnitude) : Nat := v.inQuarters + 2

/-- Whether `n` units lie in the interval, where `unit` is the quarter divided by
    the unit.  The ends belong to it exactly when the significand is even. -/
def contains (v : Magnitude) (unit : Ratio) (n : Nat) : Bool :=
  if v.significand % 2 = 0 then
    decide (v.lowerEnd * unit.num ≤ n * unit.den) && decide (n * unit.den ≤ v.upperEnd * unit.num)
  else
    decide (v.lowerEnd * unit.num < n * unit.den) && decide (n * unit.den < v.upperEnd * unit.num)

/-- The neighbour of the number on the grid of multiples of `10 ^ e` that reads
    back as it; of two the nearer, and at equal distance the larger. -/
def onGrid (v : Magnitude) (e : Int) : Option Fraction :=
  let unit := v.quarter.scale 10 (-e)
  let exact := v.inQuarters * unit.num
  let below := exact / unit.den
  let above := below + 1
  match v.contains unit below, v.contains unit above with
  | true, true =>
    if exact - below * unit.den < above * unit.den - exact then some ⟨below, e⟩
    else some ⟨above, e⟩
  | true, false => some ⟨below, e⟩
  | false, true => some ⟨above, e⟩
  | false, false => none

/-- Tries `count` grids, each ten times finer than the one before. -/
def search (v : Magnitude) : Nat → Int → Option Fraction
  | 0, _ => none
  | count + 1, e =>
    match v.onGrid e with
    | some f => some f
    | none => search v count (e - 1)

/-- All digits of the number: a power of two below one is `5 ^ k · 10 ^ (-k)`. -/
def exactly (v : Magnitude) : Fraction :=
  if 0 ≤ v.exponent then ⟨v.significand * Nat.pow 2 v.exponent.toNat, 0⟩
  else ⟨v.significand * Nat.pow 5 (-v.exponent).toNat, v.exponent⟩

/-- The number as a ratio. -/
def ratio (v : Magnitude) : Ratio := (⟨v.significand, 1⟩ : Ratio).scale 2 v.exponent

/-- The shortest decimal that reads back as a positive number.  Seventeen digits
    always suffice. -/
def shortest (v : Magnitude) : Fraction :=
  (v.search 17 v.ratio.decade).getD v.exactly

end Magnitude

end ScriptDebugger.Decimal
