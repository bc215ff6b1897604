/-
  ScriptDebugger/Text/Blank.lean
  ==============================
  **White space in the sense of the Unicode property `White_Space`.**

  The table holds the twenty-five characters of the property.  A text is blank
  when nothing is left of it after white space is stripped from both ends.
-/

namespace ScriptDebugger.Text

/-- The code point ranges of the property `White_Space`, in ascending order. -/
def whiteSpaceRanges : List (Nat × Nat) :=
  [(0x9, 0xD), (0x20, 0x20), (0x85, 0x85), (0xA0, 0xA0), (0x1680, 0x1680), (0x2000, 0x200A),
   (0x2028, 0x2029), (0x202F, 0x202F), (0x205F, 0x205F), (0x3000, 0x3000)]

/-- Whether a character has the property `White_Space`. -/
def isWhite (c : Char) : Bool :=
  whiteSpaceRanges.any fun r => decide (r.1 ≤ c.toNat) && decide (c.toNat ≤ r.2)

/-- Removes white space from both ends of a text. -/
def strip (cs : List Char) : List Char :=
  ((cs.dropWhile isWhite).reverse.dropWhile isWhite).reverse

/-- Whether a text consists of white space alone. -/
def isBlank (s : String) : Bool := (strip s.toList).isEmpty

example : (whiteSpaceRanges.map fun r => r.2 + 1 - r.1).sum = 25 := by decide

end ScriptDebugger.Text
