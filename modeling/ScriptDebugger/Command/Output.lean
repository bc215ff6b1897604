/-
  ScriptDebugger/Command/Output.lean
  ==================================
  **What a command gives back.**
-/
import ScriptDebugger.Stack.Snapshot
import ScriptDebugger.Error

namespace ScriptDebugger

/-- The output of a command that was carried out. -/
inductive CommandOutput
  | acknowledged (text : String)
  | snapshot (s : Snapshot)
  deriving DecidableEq, Repr

/-- The result of a command. -/
abbrev CommandResult := Except DebuggerError CommandOutput

namespace CommandOutput

/-- The text of an output. -/
def text : CommandOutput → String
  | .acknowledged text => text
  | .snapshot s => s.text

/-- The JSON document of an output. -/
def toJson : CommandOutput → Json
  | .acknowledged text => .object [("kind", .string "ack"), ("value", .string text)]
  | .snapshot s => .object [("kind", .string "snapshot"), ("value", s.toJson)]

/-- Reads the JSON document of an output. -/
def ofJson? : Json → Option CommandOutput
  | .object [("kind", .string "ack"), ("value", .string text)] => some (.acknowledged text)
  | .object [("kind", .string "snapshot"), ("value", v)] => (Snapshot.ofJson? v).map .snapshot
  | _ => none

end CommandOutput

end ScriptDebugger
