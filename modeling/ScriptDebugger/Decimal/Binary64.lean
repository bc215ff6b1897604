/-
  ScriptDebugger/Decimal/Binary64.lean
  ====================================
  **Double precision numbers as bit patterns.**

  A number of the script is the 64 bits it is stored in; what it denotes is read
  off the sign, exponent and fraction fields in exact arithmetic.  A finite
  pattern denotes `± significand · 2 ^ exponent` with natural `significand`.
-/

namespace ScriptDebugger.Decimal

/-- A double precision number, given by its bit pattern. -/
structure Binary64 where
  bits : UInt64
  deriving DecidableEq, Repr, Inhabited

/-- The magnitude `significand · 2 ^ exponent` of a finite number.  `tightBelow`
    says that the next smaller magnitude is only half a step away, as it is just
    above a power of two. -/
structure Magnitude where
  significand : Nat
  exponent : Int
  tightBelow : Bool
  deriving DecidableEq, Repr

/-- What a bit pattern denotes. -/
inductive Denotation
  | nan
  | infinite (negative : Bool)
  | finite (negative : Bool) (magnitude : Magnitude)
  deriving DecidableEq, Repr

namespace Binary64

/-- The weight of the sign bit, `2 ^ 63`. -/
def signUnit : Nat := 0x8000000000000000

/-- The weight of the bit above the fraction, `2 ^ 52`. -/
def hiddenBit : Nat := 0x10000000000000

/-- The sign field. -/
def negative (x : Binary64) : Bool := decide (signUnit ≤ x.bits.toNat)

/-- The eleven exponent bits. -/
def exponentField (x : Binary64) : Nat := x.bits.toNat / hiddenBit % 2048

/-- The fifty-two fraction bits. -/
def fractionField (x : Binary64) : Nat := x.bits.toNat % hiddenBit

/-- The magnitude of a finite pattern: an exponent field of zero means no hidden
    bit and the smallest exponent. -/
def magnitude (x : Binary64) : Magnitude :=
  if x.exponentField = 0 then ⟨x.fractionField, -1074, false⟩
  else ⟨hiddenBit + x.fractionField, (x.exponentField : Int) - 1075,
    x.fractionField == 0 && decide (1 < x.exponentField)⟩

/-- Reads a bit pattern. -/
def denotation (x : Binary64) : Denotation :=
  if x.exponentField = 2047 then
    if x.fractionField = 0 then .infinite x.negative else .nan
  else .finite x.negative x.magnitude

/-- The number of an integer of at most 53 bits. -/
def ofSmallNat (n : Nat) : Binary64 :=
  if n = 0 then ⟨0⟩
  else
    let e := Nat.log2 n
    ⟨UInt64.ofNat ((e + 1023) * hiddenBit + (n * hiddenBit / Nat.pow 2 e - hiddenBit))⟩

/-- The number of an integer whose absolute value has at most 53 bits. -/
def ofSmallInt (i : Int) : Binary64 :=
  if i < 0 then ⟨(ofSmallNat i.natAbs).bits + 0x8000000000000000⟩ else ofSmallNat i.natAbs

end Binary64

end ScriptDebugger.Decimal
