/-
  ScriptDebugger/Decimal/Numeral.lean
  ===================================
  **The text of a number, as scripts print it.**

  The decisions of the format: the three special values have names, both zeros
  are `0`, an integer below `10 ^ 21` shows all its digits, and any other number
  shows its shortest decimal in positional notation, filled up with zeros and
  never with an exponent.
-/
import ScriptDebugger.Decimal.Shortest

namespace ScriptDebugger.Decimal

/-- The decimal digits of a natural number, without leading zeros. -/
def digits (n : Nat) : List Char := Nat.toDigits 10 n

/-- The integer that a magnitude is, if it is one. -/
def Magnitude.integer? (v : Magnitude) : Option Nat :=
  if 0 ≤ v.exponent then some (v.significand * Nat.pow 2 v.exponent.toNat)
  else if v.significand % Nat.pow 2 (-v.exponent).toNat = 0 then
    some (v.significand / Nat.pow 2 (-v.exponent).toNat)
  else none

/-- The last `n` digits of a text, which is first filled up with zeros on the
    left so that a digit stands before them. -/
def splitPoint (n : Nat) (ds : List Char) : List Char × List Char :=
  let filled := List.replicate (n + 1 - ds.length) '0' ++ ds
  (filled.take (filled.length - n), filled.drop (filled.length - n))

/-- Drops zeros from the right end. -/
def dropTrailingZeros (ds : List Char) : List Char :=
  (ds.reverse.dropWhile (· == '0')).reverse

/-- Positional notation: zeros fill the places between the digits and the point,
    and the fraction ends in its last digit that is not zero. -/
def Fraction.positional (f : Fraction) : List Char :=
  if 0 ≤ f.exponent then digits f.coefficient ++ List.replicate f.exponent.toNat '0'
  else
    let (whole, fraction) := splitPoint (-f.exponent).toNat (digits f.coefficient)
    match dropTrailingZeros fraction with
    | [] => whole
    | kept => whole ++ '.' :: kept

/-- Below this bound integers show all their digits. -/
def integerBound : Nat := Nat.pow 10 21

/-- The digits of a magnitude. -/
def Magnitude.numeral (v : Magnitude) : List Char :=
  match v.integer? with
  | some n => if n < integerBound then digits n else v.shortest.positional
  | none => v.shortest.positional

/-- The text of what a bit pattern denotes. -/
def Denotation.numeral : Denotation → List Char
  | .nan => "NaN".toList
  | .infinite false => "Infinity".toList
  | .infinite true => "-Infinity".toList
  | .finite negative v =>
    if v.significand = 0 then ['0']
    else if negative then '-' :: v.numeral
    else v.numeral

/-- The text of a number. -/
def Binary64.text (x : Binary64) : String := String.ofList x.denotation.numeral

end ScriptDebugger.Decimal
