/-
  ScriptDebugger/Stack/Snapshot.lean
  ==================================
  **The variables of a paused call stack.**

  A snapshot holds texts only, one entry per frame, so it can outlive the
  suspension.  It has a plain listing and a JSON document; the document is read
  back by `Snapshot.ofJson?`.
-/
import ScriptDebugger.OrderedMap
import ScriptDebugger.Json.Printer

namespace ScriptDebugger

/-- One frame: its place, its function, its bindings in order, and the reason why
    the frame could not be read, if it could not. -/
structure ScopeFrame where
  index : Nat
  functionName : String
  bindings : OrderedMap String String
  error : Option String
  deriving DecidableEq, Repr

/-- The frames of a paused call stack; the innermost has index 0. -/
structure Snapshot where
  frames : List ScopeFrame
  deriving DecidableEq, Repr, Inhabited

/-- Stands for a name or a value that could not be read. -/
def unavailableMarker : String := "<unavailable>"

namespace Snapshot

/-- The number of frames. -/
def size (s : Snapshot) : Nat := s.frames.length

/-- The text bound to a name in a frame. -/
def binding? (s : Snapshot) (index : Nat) (name : String) : Option String :=
  s.frames[index]?.bind fun frame => frame.bindings.get? name

/-! ### The plain listing -/

/-- The lines of a frame. -/
def frameLines (frame : ScopeFrame) : List String :=
  ["Scope no: " ++ toString frame.index, "FUNCNAME " ++ frame.functionName] ++
    (match frame.error with
      | some error => [unavailableMarker ++ " " ++ error]
      | none => []) ++
    frame.bindings.entries.map fun b => b.1 ++ " " ++ b.2

/-- The listing of all frames, each line ended by a line feed. -/
def text (s : Snapshot) : String :=
  String.join (("Vars:" :: s.frames.flatMap frameLines).map (· ++ "\n"))

/-! ### The JSON document -/

/-- The document of a frame; the error is left out when there is none. -/
def frameToJson (frame : ScopeFrame) : Json :=
  .object <|
    [("index", .ofNat frame.index), ("functionName", .string frame.functionName),
      ("bindings", .object (frame.bindings.entries.map fun b => (b.1, .string b.2)))] ++
    match frame.error with
    | some error => [("error", .string error)]
    | none => []

/-- The document of a snapshot. -/
def toJson (s : Snapshot) : Json := .object [("frames", .array (s.frames.map frameToJson))]

/-- Reads a member of a bindings object. -/
def bindingOfJson? (m : String × Json) : Option (String × String) :=
  m.2.string?.map fun text => (m.1, text)

/-- Reads a bindings object, in which no name stands twice. -/
def bindingsOfJson? (v : Json) : Option (OrderedMap String String) := do
  let entries ← (← v.object?).mapM bindingOfJson?
  if h : (entries.map Prod.fst).Nodup then some ⟨entries, h⟩ else none

/-- Reads the document of a frame. -/
def frameOfJson? : Json → Option ScopeFrame
  | .object [("index", index), ("functionName", name), ("bindings", bindings)] => do
    some ⟨← index.natural?, ← name.string?, ← bindingsOfJson? bindings, none⟩
  | .object [("index", index), ("functionName", name), ("bindings", bindings), ("error", error)] => do
    some ⟨← index.natural?, ← name.string?, ← bindingsOfJson? bindings, some (← error.string?)⟩
  | _ => none

/-- Reads the document of a snapshot. -/
def ofJson? : Json → Option Snapshot
  | .object [("frames", .array frames)] => (frames.mapM frameOfJson?).map Snapshot.mk
  | _ => none

end Snapshot

end ScriptDebugger
