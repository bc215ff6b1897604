/-
  ScriptDebugger/Decimal/Range.lean
  =================================
  **Decimals in the range of double precision.**

  A decimal is in range when it does not round to infinity.  `Fraction.inRange`
  rounds the exact value once.  `Fraction.productInRange` rounds as a product of
  two doubles does: the leading digits and the power of ten are rounded by
  themselves, then their product, so that near the bound the same value may be
  in range in one spelling and not in another.
-/
import ScriptDebugger.Decimal.Shortest

namespace ScriptDebugger.Decimal

/-- Magnitudes from here on round to infinity in double precision: it lies half
    a step above the largest finite number. -/
def rangeBound : Nat := Nat.pow 2 1024 - Nat.pow 2 970

/-- Whether the exact value is in range.  Comparing the number of digits first
    keeps the powers of ten small. -/
def Fraction.inRange (f : Fraction) : Bool :=
  let places := (Ratio.digitCount f.coefficient : Int) + f.exponent
  if f.coefficient = 0 then true
  else if places ≤ 308 then true
  else if 309 < places then false
  else
    let r := (⟨f.coefficient, 1⟩ : Ratio).scale 10 f.exponent
    decide (r.num < rangeBound * r.den)

/-! ### The range of a product -/

/-- The nearest natural number of at most 53 significant bits; a tie goes to the
    even significand. -/
def nearestDouble (n : Nat) : Nat :=
  let unit := Nat.pow 2 (Nat.log2 n - 52)
  let below := n / unit
  let excess := 2 * (n % unit)
  if excess < unit ∨ (excess = unit ∧ below % 2 = 0) then below * unit else (below + 1) * unit

/-- The leading digits of a natural number that fit into 64 bits, and the count of
    those left out. -/
def leadingDigits (n : Nat) : Nat × Nat :=
  if n < 18446744073709551616 then (n, 0)
  else
    let (lead, dropped) := leadingDigits (n / 10)
    (lead, dropped + 1)
termination_by n
decreasing_by omega

/-- Whether the product of the leading digits and the power of ten, as doubles, is
    in range.  A power of ten beyond the largest finite one is not, and one below
    one divides. -/
def Fraction.productInRange (f : Fraction) : Bool :=
  let (lead, dropped) := leadingDigits f.coefficient
  let e := f.exponent + dropped
  if lead = 0 ∨ e < 0 then true
  else if 308 < e then false
  else decide (nearestDouble lead * nearestDouble (Nat.pow 10 e.toNat) < rangeBound)

end ScriptDebugger.Decimal
