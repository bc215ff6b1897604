/-
  ScriptDebugger/Source.lean
  ==========================
  **The source unit that is debugged.**

  Lines are counted from one.  A line takes a breakpoint when it exists and, if
  the compiler told for which lines it emitted code, is one of those.
-/
import ScriptDebugger.Text.Lines

namespace ScriptDebugger

/-- A source unit: its name, its number of lines, and the lines with code if
    they are known. -/
structure Source where
  name : String
  lineCount : UInt32
  codeLines : Option (List UInt32)
  deriving DecidableEq, Repr

namespace Source

/-- A source unit all of whose lines take breakpoints. -/
def ofLineCount (name : String) (lineCount : UInt32) : Source := ⟨name, lineCount, none⟩

/-- Line numbers are below this bound, `2 ^ 32`. -/
def lineBound : Nat := 4294967296

/-- The source unit of a text. -/
def ofText (name text : String) : Source :=
  ofLineCount name (UInt32.ofNat (min (Text.lineCount text) (lineBound - 1)))

/-- Restricts breakpoints to the given lines. -/
def withCodeLines (source : Source) (lines : List UInt32) : Source :=
  { source with codeLines := some lines }

/-- Whether a line takes a breakpoint. -/
def isBreakable (source : Source) (line : UInt32) : Bool :=
  decide (1 ≤ line) && decide (line ≤ source.lineCount) &&
    match source.codeLines with
    | some lines => lines.contains line
    | none => true

end Source

end ScriptDebugger
