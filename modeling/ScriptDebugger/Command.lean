/-
  ScriptDebugger/Command.lean
  ===========================
  **The commands of a controller.**
-/

namespace ScriptDebugger

/-- Where a step ends, relative to the call it begins in. -/
inductive StepKind
  /-- At the next line. -/
  | into
  /-- At the next line that is not deeper. -/
  | over
  /-- At the next line after the return to the caller. -/
  | out
  deriving DecidableEq, Repr

/-- A command. -/
inductive Command
  | resume
  | stepInto
  | stepOver
  | stepOut
  | exit
  | setBreakpoint (line : UInt32) (enabled : Bool)
  | toggleMute (muted : Bool)
  | getVariables
  | stop
  deriving DecidableEq, Repr

namespace Command

/-- The kind of step that a command asks for. -/
def stepKind? : Command → Option StepKind
  | .stepInto => some .into
  | .stepOver => some .over
  | .stepOut => some .out
  | _ => none

/-- Whether a command only makes sense while the interpreter is suspended.  The
    edits of breakpoints and the end of the session do not. -/
def requiresSuspension : Command → Bool
  | .setBreakpoint .. | .toggleMute _ | .stop => false
  | _ => true

end Command

end ScriptDebugger
