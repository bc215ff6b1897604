/-
  ScriptDebugger/Text/Lines.lean
  ==============================
  **The lines of a text.**

  A line feed ends a line and nothing else does; after a final line feed there
  is no further, empty line.
-/

namespace ScriptDebugger.Text

/-- The lines of a text, given the line read so far from its right end.  A rest
    without a line feed is a line only if it is not empty. -/
def linesFrom (current : List Char) : List Char → List (List Char)
  | [] => if current.isEmpty then [] else [current.reverse]
  | c :: rest =>
    if c = '\n' then current.reverse :: linesFrom [] rest else linesFrom (c :: current) rest

/-- The lines of a text. -/
def lines (cs : List Char) : List (List Char) := linesFrom [] cs

/-- The number of lines of a text. -/
def lineCount (s : String) : Nat := (lines s.toList).length

end ScriptDebugger.Text
