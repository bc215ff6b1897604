/-
  ScriptDebugger/Engine/Description.lean
  ======================================
  **An engine described for diagnostics.**
-/
import ScriptDebugger.Engine
import ScriptDebugger.Text.Quoted

namespace ScriptDebugger

/-- The name of a run state in a description. -/
def RunState.label : RunState → String
  | .running => "Running"
  | .suspended => "SuspendedAtBreakpoint"
  | .stopped => "Stopped"

/-- The source unit and the run state of an engine. -/
def Engine.description {χ : Type} (e : Engine χ) : String :=
  "DebuggerEngine \x7b source: " ++ Text.quoted e.breakpoints.source.name ++ ", run_state: " ++
    e.runState.label ++ ", .. \x7d"

end ScriptDebugger
