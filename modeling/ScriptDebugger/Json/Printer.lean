/-
  ScriptDebugger/Json/Printer.lean
  ================================
  **The compact text of a JSON value.**

  A value has a sequence of tokens, and its compact text is those tokens with
  nothing between them.  In a string only the quotation mark, the reverse solidus
  and the control characters below U+0020 are escaped, each by its short escape
  if there is one.
-/
import ScriptDebugger.Json.Token
import ScriptDebugger.Decimal.Numeral

namespace ScriptDebugger.Json

/-! ### Tokens of a value -/

mutual

/-- The tokens of a value. -/
def tokens : Json → List Token
  | .null => [.null]
  | .bool b => [.bool b]
  | .number x => [.number x]
  | .string s => [.string s]
  | .array [] => [.openArray, .closeArray]
  | .array (item :: items) => .openArray :: (tokens item ++ itemTokens items)
  | .object [] => [.openObject, .closeObject]
  | .object ((name, item) :: members) =>
    .openObject :: .string name :: .colon :: (tokens item ++ memberTokens members)

/-- The tokens of the further items of an array, up to its end. -/
def itemTokens : List Json → List Token
  | [] => [.closeArray]
  | item :: items => .comma :: (tokens item ++ itemTokens items)

/-- The tokens of the further members of an object, up to its end. -/
def memberTokens : List (String × Json) → List Token
  | [] => [.closeObject]
  | (name, item) :: members =>
    .comma :: .string name :: .colon :: (tokens item ++ memberTokens members)

end

/-! ### Texts of tokens -/

/-- The two lower-case hexadecimal digits of a number below 256. -/
def hexPair (n : Nat) : List Char := [Nat.digitChar (n / 16), Nat.digitChar (n % 16)]

/-- A character as it stands in a string. -/
def escapeChar (c : Char) : List Char :=
  if c = '"' then ['\\', '"']
  else if c = '\\' then ['\\', '\\']
  else if c = '\x08' then ['\\', 'b']
  else if c = '\t' then ['\\', 't']
  else if c = '\n' then ['\\', 'n']
  else if c = '\x0c' then ['\\', 'f']
  else if c = '\r' then ['\\', 'r']
  else if c.toNat < 0x20 then '\\' :: 'u' :: '0' :: '0' :: hexPair c.toNat
  else [c]

/-- A string with its quotation marks. -/
def quote (s : String) : List Char := '"' :: (s.toList.flatMap escapeChar ++ ['"'])

/-- The digits of an integer. -/
def signed (i : Int) : List Char :=
  if i < 0 then '-' :: Decimal.digits i.natAbs else Decimal.digits i.natAbs

/-- A number literal; a power of ten is written as an exponent. -/
def Number.literal (x : Number) : List Char :=
  (if x.negative then ['-'] else []) ++ Decimal.digits x.significand ++
    match x.scale with
    | some e => 'e' :: signed e
    | none => []

/-- The text of a token. -/
def Token.chars : Token → List Char
  | .openArray => ['[']
  | .closeArray => [']']
  | .openObject => ['\x7b']
  | .closeObject => ['\x7d']
  | .comma => [',']
  | .colon => [':']
  | .null => ['n', 'u', 'l', 'l']
  | .bool true => ['t', 'r', 'u', 'e']
  | .bool false => ['f', 'a', 'l', 's', 'e']
  | .number x => x.literal
  | .string s => quote s

/-- The compact text of a value. -/
def compact (v : Json) : String := String.ofList (v.tokens.flatMap Token.chars)

end ScriptDebugger.Json
