/-
  ScriptDebugger/Json/Token.lean
  ==============================
  **The tokens of a JSON text.**

  The text is read one character at a time; the state says inside which token
  the reading stands, with the characters read so far from the right end.  A
  number or a word ends where a character follows that it cannot hold, so two
  tokens of that kind never touch in a well-formed document.
-/
import ScriptDebugger.Json
import ScriptDebugger.Text.Hex

namespace ScriptDebugger.Json

/-- A token of a JSON text. -/
inductive Token
  | openArray
  | closeArray
  | openObject
  | closeObject
  | comma
  | colon
  | null
  | bool (b : Bool)
  | number (x : Number)
  | string (s : String)
  deriving DecidableEq, Repr

/-! ### Number literals -/

/-- The value of decimal digits. -/
def digitsValue (ds : List Char) : Nat := Nat.ofDigitChars 10 ds 0

/-- Reads a nonempty run of digits off the front. -/
def readDigits (cs : List Char) : Option (List Char × List Char) :=
  match cs.takeWhile Char.isDigit with
  | [] => none
  | ds => some (ds, cs.dropWhile Char.isDigit)

/-- Reads the digits before the point: no zero stands in front of others. -/
def readWhole (cs : List Char) : Option (List Char × List Char) := do
  let (ds, rest) ← readDigits cs
  match ds with
  | '0' :: _ :: _ => none
  | _ => some (ds, rest)

/-- Reads the exponent, if there is one, at the end of a literal. -/
def readExponent : List Char → Option (Option Int)
  | [] => some none
  | e :: rest =>
    if e = 'e' ∨ e = 'E' then do
      let (sign, rest) : Int × List Char :=
        match rest with
        | '-' :: rest => (-1, rest)
        | '+' :: rest => (1, rest)
        | rest => (1, rest)
      let (ds, rest) ← readDigits rest
      if rest.isEmpty then some (some (sign * digitsValue ds)) else none
    else none

/-- Reads a literal without its sign. -/
def readUnsigned (negative : Bool) (cs : List Char) : Option Number := do
  let (whole, rest) ← readWhole cs
  match rest with
  | '.' :: rest =>
    let (fraction, rest) ← readDigits rest
    let exponent ← readExponent rest
    some ⟨negative, digitsValue (whole ++ fraction),
      some (exponent.getD 0 - (fraction.length : Int))⟩
  | rest =>
    let exponent ← readExponent rest
    some ⟨negative, digitsValue whole, exponent⟩

/-- Reads a whole number literal; numbers beyond double precision are refused. -/
def Number.ofLiteral? (cs : List Char) : Option Number := do
  let x ← match cs with
    | '-' :: rest => readUnsigned true rest
    | cs => readUnsigned false cs
  if x.inRange then some x else none

/-! ### The reading of tokens -/

/-- The characters that a number literal can hold. -/
def isNumberChar (c : Char) : Bool :=
  c.isDigit || c == '-' || c == '+' || c == '.' || c == 'e' || c == 'E'

/-- The white space between tokens. -/
def isBlankChar (c : Char) : Bool := c == ' ' || c == '\t' || c == '\n' || c == '\r'

/-- Where in a token the reading stands. -/
inductive Place
  | between
  | word (read : List Char)
  | number (read : List Char)
  | text (read : List Char)
  /-- After a reverse solidus. -/
  | escape (read : List Char)
  /-- Inside the four digits of an escaped UTF-16 unit. -/
  | unit (read : List Char) (high : Option Nat) (missing : Nat) (value : Nat)
  /-- After a high surrogate, whose low surrogate must follow as an escape. -/
  | pair (read : List Char) (high : Nat)
  | pairEscape (read : List Char) (high : Nat)
  deriving Repr

/-- A reading in progress: the tokens found, last first, and the place. -/
structure Scan where
  found : List Token
  place : Place
  deriving Repr

/-- The token of a word. -/
def wordToken (w : List Char) : Option Token :=
  if w = "null".toList then some .null
  else if w = "true".toList then some (.bool true)
  else if w = "false".toList then some (.bool false)
  else none

/-- Begins a token outside of all tokens. -/
def Scan.start (found : List Token) (c : Char) : Option Scan :=
  if isBlankChar c then some ⟨found, .between⟩
  else if c = '[' then some ⟨.openArray :: found, .between⟩
  else if c = ']' then some ⟨.closeArray :: found, .between⟩
  else if c = '\x7b' then some ⟨.openObject :: found, .between⟩
  else if c = '\x7d' then some ⟨.closeObject :: found, .between⟩
  else if c = ',' then some ⟨.comma :: found, .between⟩
  else if c = ':' then some ⟨.colon :: found, .between⟩
  else if c = '"' then some ⟨found, .text []⟩
  else if c = '-' || c.isDigit then some ⟨found, .number [c]⟩
  else if c.isAlpha then some ⟨found, .word [c]⟩
  else none

/-- The character of a short escape. -/
def shortEscape (c : Char) : Option Char :=
  if c = '"' ∨ c = '\\' ∨ c = '/' then some c
  else if c = 'b' then some '\x08'
  else if c = 't' then some '\t'
  else if c = 'n' then some '\n'
  else if c = 'f' then some '\x0c'
  else if c = 'r' then some '\r'
  else none

/-- Whether a UTF-16 unit is the first half of a pair. -/
def isHighSurrogate (u : Nat) : Bool := decide (0xD800 ≤ u) && decide (u < 0xDC00)

/-- Whether a UTF-16 unit is the second half of a pair. -/
def isLowSurrogate (u : Nat) : Bool := decide (0xDC00 ≤ u) && decide (u < 0xE000)

/-- The place after a complete UTF-16 unit; halves of a pair never stand alone. -/
def closeUnit (read : List Char) (high : Option Nat) (u : Nat) : Option Place :=
  match high with
  | none =>
    if isHighSurrogate u then some (.pair read u)
    else if isLowSurrogate u then none
    else some (.text (Char.ofNat u :: read))
  | some h =>
    if isLowSurrogate u then
      some (.text (Char.ofNat (0x10000 + (h - 0xD800) * 0x400 + (u - 0xDC00)) :: read))
    else none

/-- Reads one character. -/
def Scan.step (s : Scan) (c : Char) : Option Scan :=
  match s.place with
  | .between => Scan.start s.found c
  | .word read =>
    if c.isAlpha then some { s with place := .word (c :: read) }
    else do
      let t ← wordToken read.reverse
      Scan.start (t :: s.found) c
  | .number read =>
    if isNumberChar c then some { s with place := .number (c :: read) }
    else do
      let x ← Number.ofLiteral? read.reverse
      Scan.start (.number x :: s.found) c
  | .text read =>
    if c = '"' then some ⟨.string (String.ofList read.reverse) :: s.found, .between⟩
    else if c = '\\' then some { s with place := .escape read }
    else if c.toNat < 0x20 then none
    else some { s with place := .text (c :: read) }
  | .escape read =>
    if c = 'u' then some { s with place := .unit read none 3 0 }
    else (shortEscape c).map fun d => { s with place := .text (d :: read) }
  | .unit read high missing value => do
    let d ← Text.hexValue? c
    match missing with
    | missing + 1 => some { s with place := .unit read high missing (value * 16 + d) }
    | 0 => do
      let place ← closeUnit read high (value * 16 + d)
      some { s with place := place }
  | .pair read high => if c = '\\' then some { s with place := .pairEscape read high } else none
  | .pairEscape read high =>
    if c = 'u' then some { s with place := .unit read (some high) 3 0 } else none

/-- The tokens when the text ends: no string may be open. -/
def Scan.finish (s : Scan) : Option (List Token) :=
  match s.place with
  | .between => some s.found.reverse
  | .word read => (wordToken read.reverse).map fun t => (t :: s.found).reverse
  | .number read => (Number.ofLiteral? read.reverse).map fun x => (.number x :: s.found).reverse
  | _ => none

/-- Reads characters one after another. -/
def Scan.run : Scan → List Char → Option Scan
  | s, [] => some s
  | s, c :: cs =>
    match s.step c with
    | some t => t.run cs
    | none => none

/-- The tokens of a text. -/
def tokens? (cs : List Char) : Option (List Token) :=
  match Scan.run ⟨[], .between⟩ cs with
  | some s => s.finish
  | none => none

end ScriptDebugger.Json
