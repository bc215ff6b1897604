/-
  ScriptDebugger/Command/Future.lean
  ==================================
  **The controller's end of a submitted command.**

  A result is delivered once and can be read once.  After it was read nothing
  will ever come any more, which reads like a stopped engine.
-/
import ScriptDebugger.Command.Output

namespace ScriptDebugger

/-- The state of a future. -/
inductive Future
  | waiting
  | ready (result : CommandResult)
  | spent

namespace Future

/-- Delivers a result; only the first one counts. -/
def fulfil (result : CommandResult) : Future → Future
  | .waiting => .ready result
  | future => future

/-- Reads without waiting; `none` says that there is no result yet. -/
def poll : Future → Option CommandResult × Future
  | .waiting => (none, .waiting)
  | .ready result => (some result, .spent)
  | .spent => (some (.error .notRunning), .spent)

end Future

/-- What reading a future gives. -/
inductive Reply
  | result (r : CommandResult)
  | pending
  /-- The future was used up. -/
  | gone

/-- The futures by number; one that was used up is missing. -/
abbrev Futures := List (Option Future)

namespace Futures

/-- Hands out one more future; its number is the number of those before it. -/
def handOut (fs : Futures) : Futures := fs ++ [some .waiting]

/-- Delivers a result to the future with the given number. -/
def deliver (fs : Futures) (i : Nat) (result : CommandResult) : Futures :=
  fs.modify i fun f => f.map (Future.fulfil result)

/-- Reads the future with the given number. -/
def poll (fs : Futures) (i : Nat) : Reply × Futures :=
  match fs[i]? with
  | some (some future) =>
    let (result, next) := future.poll
    (match result with
      | some r => .result r
      | none => .pending, fs.set i (some next))
  | _ => (.gone, fs)

/-- Uses up the future with the given number. -/
def discard (fs : Futures) (i : Nat) : Futures := fs.set i none

end Futures

end ScriptDebugger
