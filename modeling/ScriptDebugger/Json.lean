/-
  ScriptDebugger/Json.lean
  ========================
  **JSON values.**

  An object keeps its members as they are written, repeated names included; what
  a repetition means is for the reader of a particular document to say.  A
  number keeps the distinctions of its literal, because a line number must be
  written as an unsigned integer.
-/
import ScriptDebugger.Decimal.Range

namespace ScriptDebugger

/-- A number literal `± significand · 10 ^ scale`; `scale` is present when the
    literal has a fraction or an exponent. -/
structure Json.Number where
  negative : Bool
  significand : Nat
  scale : Option Int
  deriving DecidableEq, Repr

/-- A JSON value. -/
inductive Json
  | null
  | bool (b : Bool)
  | number (x : Json.Number)
  | string (s : String)
  | array (items : List Json)
  | object (members : List (String × Json))
  deriving Repr, Inhabited

namespace Json

/-- The literal of a natural number. -/
def Number.ofNat (n : Nat) : Number := ⟨false, n, none⟩

/-- The natural number of an unsigned literal without fraction and exponent. -/
def Number.natural? : Number → Option Nat
  | ⟨false, n, none⟩ => some n
  | _ => none

/-- Whether a literal is within the range of double precision, where its digits
    and its power of ten are doubles that are multiplied. -/
def Number.inRange (x : Number) : Bool :=
  (⟨x.significand, x.scale.getD 0⟩ : Decimal.Fraction).productInRange

/-- A natural number. -/
def ofNat (n : Nat) : Json := .number (.ofNat n)

/-- The natural number that a value is. -/
def natural? : Json → Option Nat
  | .number x => x.natural?
  | _ => none

/-- The text that a value is. -/
def string? : Json → Option String
  | .string s => some s
  | _ => none

/-- The truth value that a value is. -/
def bool? : Json → Option Bool
  | .bool b => some b
  | _ => none

/-- The items of an array. -/
def array? : Json → Option (List Json)
  | .array items => some items
  | _ => none

/-- The members of an object. -/
def object? : Json → Option (List (String × Json))
  | .object members => some members
  | _ => none

/-- The values of the members with the given name. -/
def named (name : String) (members : List (String × Json)) : List Json :=
  (members.filter fun m => m.1 = name).map Prod.snd

/-- The first member of an object with the given name. -/
def member? (name : String) : Json → Option Json
  | .object members => (named name members).head?
  | _ => none

end Json

end ScriptDebugger
