/-
  ScriptDebugger/Breakpoints.lean
  ===============================
  **The breakpoint table of a source unit.**

  Each breakable line has a flag; the last write wins and a line that was never
  written is disabled.
-/
import ScriptDebugger.Source
import ScriptDebugger.Error
import ScriptDebugger.OrderedMap

namespace ScriptDebugger

/-- The flags of the lines of a source unit. -/
structure Breakpoints where
  source : Source
  flags : OrderedMap UInt32 Bool
  deriving DecidableEq, Repr

namespace Breakpoints

/-- The table in which every line is disabled. -/
def ofSource (source : Source) : Breakpoints := ⟨source, .empty⟩

/-- Why a line takes no breakpoint. -/
def refusal (source : Source) (line : UInt32) : DebuggerError :=
  .lineResolution line source.name

/-- Sets the flag of a breakable line. -/
def set (table : Breakpoints) (line : UInt32) (enabled : Bool) : Except DebuggerError Breakpoints :=
  if table.source.isBreakable line then
    .ok { table with flags := table.flags.insert line enabled }
  else .error (refusal table.source line)

/-- The table after an attempt to set a flag: a refusal leaves it as it is. -/
def attempt (table : Breakpoints) (line : UInt32) (enabled : Bool) : Breakpoints :=
  match table.set line enabled with
  | .ok written => written
  | .error _ => table

/-- Whether execution stops at a line. -/
def isEnabled (table : Breakpoints) (line : UInt32) : Bool := (table.flags.get? line).getD false

/-- The enabled lines, in ascending order. -/
def enabledLines (table : Breakpoints) : List UInt32 :=
  ((table.flags.entries.filter Prod.snd).map Prod.fst).mergeSort fun a b => decide (a ≤ b)

end Breakpoints

end ScriptDebugger
