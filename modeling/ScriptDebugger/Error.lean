/-
  ScriptDebugger/Error.lean
  =========================
  **What can go wrong, and how it is said.**
-/

namespace ScriptDebugger

/-- Why a command or a configuration was refused. -/
inductive DebuggerError
  /-- The command needs a suspended interpreter. -/
  | notSuspended
  /-- The engine was stopped, or the script has ended. -/
  | notRunning
  /-- Another command waits already. -/
  | commandContention
  /-- The line takes no breakpoint. -/
  | lineResolution (line : UInt32) (sourceName : String)
  | invalidConfig (detail : String)
  deriving DecidableEq, Repr

/-- The wording of a refusal. -/
def DebuggerError.message : DebuggerError → String
  | .notSuspended => "must be suspended at a breakpoint in order to execute this command"
  | .notRunning => "not running"
  | .commandContention => "another command is already pending"
  | .lineResolution line name =>
    "cannot assign breakpoint on line " ++ toString line.toNat ++ " of '" ++ name ++ "'"
  | .invalidConfig detail => "invalid configuration: " ++ detail

/-- Why a part of the paused call stack could not be read. -/
inductive IntrospectionError
  /-- There is no frame at this position of a live table. -/
  | frameOutOfRange (index count : Nat)
  /-- An identifier of the scope has no readable value. -/
  | unreadableBinding (name : String)
  /-- The interpreter lacks one of its own fields. -/
  | missingField (name : String)
  | other (text : String)
  deriving DecidableEq, Repr

/-- The wording of a failed reading. -/
def IntrospectionError.message : IntrospectionError → String
  | .frameOutOfRange index count =>
    "frame " ++ toString index ++ " out of range (table has " ++ toString count ++ " frames)"
  | .unreadableBinding name => "binding '" ++ name ++ "' is not readable"
  | .missingField name => "missing interpreter field '" ++ name ++ "'"
  | .other text => text

end ScriptDebugger
