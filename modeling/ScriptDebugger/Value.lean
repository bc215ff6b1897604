/-
  ScriptDebugger/Value.lean
  =========================
  **Script values.**

  A value is a leaf or a handle of a shared composite; the composites themselves
  live in a heap (`ScriptDebugger.Value.Heap`), so that graphs may share parts
  and refer to themselves.
-/
import ScriptDebugger.Decimal.Binary64

namespace ScriptDebugger

/-- A function of the script: its name and its source text, as far as the
    interpreter keeps them. -/
structure Function where
  name : Option String
  source : Option String
  deriving DecidableEq, Repr

/-- The source text if it is known, else a label with the name. -/
def Function.text (f : Function) : String :=
  match f.source, f.name with
  | some source, _ => source
  | none, some name => "function " ++ name
  | none, none => "function <anonymous>"

/-- The identity of a shared composite. -/
structure Handle where
  id : Nat
  deriving DecidableEq, Repr, Inhabited

/-- A value bound to an identifier or held by a composite. -/
inductive Value
  /-- The interpreter's sign that there is no binding. -/
  | undefined
  | null
  | bool (b : Bool)
  | number (x : Decimal.Binary64)
  | string (s : String)
  | function (f : Function)
  /-- An array, an object or an object of the host. -/
  | shared (h : Handle)
  deriving DecidableEq, Repr

/-- Whether the value is the sign of a missing binding. -/
def Value.isUndefined : Value → Bool
  | .undefined => true
  | _ => false

end ScriptDebugger
