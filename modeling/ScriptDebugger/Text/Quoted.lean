/-
  ScriptDebugger/Text/Quoted.lean
  ===============================
  **Texts quoted for diagnostics.**

  A quoted text shows the characters that can be told apart on a page; the
  quotation mark, the reverse solidus and the usual control characters have short
  escapes, and any other character that does not print, or that only modifies
  the character before it, is written by its code point.
-/
import ScriptDebugger.Text.Printable

namespace ScriptDebugger.Text

/-- A character as it stands in a quoted text. -/
def quoteChar (c : Char) : List Char :=
  if c = '"' then ['\\', '"']
  else if c = '\\' then ['\\', '\\']
  else if c = '\x00' then ['\\', '0']
  else if c = '\t' then ['\\', 't']
  else if c = '\n' then ['\\', 'n']
  else if c = '\r' then ['\\', 'r']
  else if isPrintable c then [c]
  else ['\\', 'u', '\x7b'] ++ Nat.toDigits 16 c.toNat ++ ['\x7d']

/-- A text between quotation marks. -/
def quoted (s : String) : String :=
  String.ofList ('"' :: (s.toList.flatMap quoteChar ++ ['"']))

end ScriptDebugger.Text
