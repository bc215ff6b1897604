/-
  ScriptDebugger/Toml/Token.lean
  ==============================
  **The tokens of a TOML text.**

  The text is read one character at a time.  A run goes on to the next blank, line
  break or mark of the notation, whatever it is made of.  What it means depends
  on where it stands, as part of a key or as a value, so it stays a run here; a
  point between runs is a token of its own.  Blanks are kept because one value may
  hold some, comments are checked and dropped.
-/
import ScriptDebugger.Text.Hex

namespace ScriptDebugger.Toml

/-- A token of a TOML text. -/
inductive Token
  | newline
  | blank (c : Char)
  | dot
  | equals
  | comma
  | openBracket
  | closeBracket
  | openBrace
  | closeBrace
  | bare (run : List Char)
  /-- A string, on one line or between triple quotation marks. -/
  | string (s : String) (multiline : Bool)
  deriving DecidableEq, Repr

/-- The two kinds of quotation marks: escapes count between the first only. -/
inductive Quote
  | basic
  | literal
  deriving DecidableEq, Repr

/-- The character of a quotation mark. -/
def Quote.char : Quote → Char
  | .basic => '"'
  | .literal => '\''

/-- Where in a token the reading stands. -/
inductive Place
  | between
  /-- After a carriage return, which a line feed must follow. -/
  | afterReturn
  | comment
  | bare (run : List Char)
  /-- After one or two quotation marks that open a string. -/
  | opening (q : Quote) (second : Bool)
  | text (q : Quote) (read : List Char)
  /-- After three opening quotation marks: a line break is not part of the text. -/
  | blockStart (q : Quote)
  | blockStartReturn (q : Quote)
  /-- Inside a block, after `marks` quotation marks in a row. -/
  | block (q : Quote) (read : List Char) (marks : Nat)
  | blockReturn (q : Quote) (read : List Char)
  | escape (multiline : Bool) (read : List Char)
  | hexEscape (multiline : Bool) (read : List Char) (missing value : Nat)
  /-- After a reverse solidus and blanks at the end of a line of a block. -/
  | lineEnd (read : List Char)
  /-- Before the next character of a block that is not blank. -/
  | lineStart (read : List Char)
  | lineStartReturn (read : List Char)
  deriving Repr

/-- A reading in progress: the tokens found, last first, and the place. -/
structure Scan where
  found : List Token
  place : Place
  deriving Repr

/-- Blanks within a line. -/
def isBlankChar (c : Char) : Bool := c == ' ' || c == '\t'

/-- Characters that stand for themselves in strings and comments: the tabulator
    is the only control character among them. -/
def isPlain (c : Char) : Bool := c == '\t' || (decide (0x20 ≤ c.toNat) && c.toNat != 0x7F)

/-- The characters that end a run.  A quotation mark opens a string only where no
    run is under way. -/
def isDelimiter (c : Char) : Bool :=
  isBlankChar c || c == '\n' || c == '\r' || c == '#' || c == '.' || c == '=' || c == ',' ||
    c == '[' || c == ']' || c == '\x7b' || c == '\x7d'

/-- The character with a code point, if there is one. -/
def charOf? (n : Nat) : Option Char := if n.isValidChar then some (Char.ofNat n) else none

/-- Begins a token outside of all tokens. -/
def Scan.start (found : List Token) (c : Char) : Scan :=
  if isBlankChar c then ⟨.blank c :: found, .between⟩
  else if c = '\n' then ⟨.newline :: found, .between⟩
  else if c = '\r' then ⟨found, .afterReturn⟩
  else if c = '#' then ⟨found, .comment⟩
  else if c = '.' then ⟨.dot :: found, .between⟩
  else if c = '=' then ⟨.equals :: found, .between⟩
  else if c = ',' then ⟨.comma :: found, .between⟩
  else if c = '[' then ⟨.openBracket :: found, .between⟩
  else if c = ']' then ⟨.closeBracket :: found, .between⟩
  else if c = '\x7b' then ⟨.openBrace :: found, .between⟩
  else if c = '\x7d' then ⟨.closeBrace :: found, .between⟩
  else if c = '"' then ⟨found, .opening .basic false⟩
  else if c = '\'' then ⟨found, .opening .literal false⟩
  else ⟨found, .bare [c]⟩

/-- Reads a character of a string on one line. -/
def Scan.inText (found : List Token) (q : Quote) (read : List Char) (c : Char) : Option Scan :=
  if c = q.char then some ⟨.string (String.ofList read.reverse) false :: found, .between⟩
  else if c = '\\' ∧ q = .basic then some ⟨found, .escape false read⟩
  else if isPlain c then some ⟨found, .text q (c :: read)⟩
  else none

/-- Reads a character of a block.  Three quotation marks end it, and up to two
    more in front of them belong to the text. -/
def Scan.inBlock (found : List Token) (q : Quote) (read : List Char) (marks : Nat) (c : Char) :
    Option Scan :=
  if c = q.char then
    if marks = 4 then
      some ⟨.string (String.ofList (List.replicate 2 q.char ++ read).reverse) true :: found, .between⟩
    else some ⟨found, .block q read (marks + 1)⟩
  else if 3 ≤ marks then
    let text := List.replicate (marks - 3) q.char ++ read
    some (Scan.start (.string (String.ofList text.reverse) true :: found) c)
  else
    let read := List.replicate marks q.char ++ read
    if c = '\\' ∧ q = .basic then some ⟨found, .escape true read⟩
    else if c = '\n' then some ⟨found, .block q (c :: read) 0⟩
    else if c = '\r' then some ⟨found, .blockReturn q read⟩
    else if isPlain c then some ⟨found, .block q (c :: read) 0⟩
    else none

/-- The place in a basic string after an escape. -/
def Place.resume (multiline : Bool) (read : List Char) : Place :=
  if multiline then .block .basic read 0 else .text .basic read

/-- Reads the character after a reverse solidus. -/
def escapePlace (multiline : Bool) (read : List Char) (c : Char) : Option Place :=
  let put (d : Char) : Option Place := some (.resume multiline (d :: read))
  if c = 'b' then put '\x08'
  else if c = 't' then put '\t'
  else if c = 'n' then put '\n'
  else if c = 'f' then put '\x0c'
  else if c = 'r' then put '\r'
  else if c = 'e' then put '\x1b'
  else if c = '"' then put '"'
  else if c = '\\' then put '\\'
  else if c = 'x' then some (.hexEscape multiline read 1 0)
  else if c = 'u' then some (.hexEscape multiline read 3 0)
  else if c = 'U' then some (.hexEscape multiline read 7 0)
  else if multiline then
    if isBlankChar c then some (.lineEnd read)
    else if c = '\n' then some (.lineStart read)
    else if c = '\r' then some (.lineStartReturn read)
    else none
  else none

/-- Reads one character. -/
def Scan.step (s : Scan) (c : Char) : Option Scan :=
  match s.place with
  | .between => some (Scan.start s.found c)
  | .afterReturn => if c = '\n' then some ⟨.newline :: s.found, .between⟩ else none
  | .comment =>
    if c = '\n' then some ⟨.newline :: s.found, .between⟩
    else if c = '\r' then some ⟨s.found, .afterReturn⟩
    else if isPlain c then some s
    else none
  | .bare run =>
    if isDelimiter c then some (Scan.start (.bare run.reverse :: s.found) c)
    else some ⟨s.found, .bare (c :: run)⟩
  | .opening q second =>
    if c = q.char then
      if second then some ⟨s.found, .blockStart q⟩ else some ⟨s.found, .opening q true⟩
    else if second then some (Scan.start (.string "" false :: s.found) c)
    else Scan.inText s.found q [] c
  | .text q read => Scan.inText s.found q read c
  | .blockStart q =>
    if c = '\n' then some ⟨s.found, .block q [] 0⟩
    else if c = '\r' then some ⟨s.found, .blockStartReturn q⟩
    else Scan.inBlock s.found q [] 0 c
  | .blockStartReturn q => if c = '\n' then some ⟨s.found, .block q [] 0⟩ else none
  | .block q read marks => Scan.inBlock s.found q read marks c
  | .blockReturn q read => if c = '\n' then some ⟨s.found, .block q (c :: '\r' :: read) 0⟩ else none
  | .escape multiline read => (escapePlace multiline read c).map fun place => ⟨s.found, place⟩
  | .hexEscape multiline read missing value => do
    let d ← Text.hexValue? c
    match missing with
    | missing + 1 => some ⟨s.found, .hexEscape multiline read missing (value * 16 + d)⟩
    | 0 => do
      let e ← charOf? (value * 16 + d)
      some ⟨s.found, .resume multiline (e :: read)⟩
  | .lineEnd read =>
    if isBlankChar c then some s
    else if c = '\n' then some ⟨s.found, .lineStart read⟩
    else if c = '\r' then some ⟨s.found, .lineStartReturn read⟩
    else none
  | .lineStart read =>
    if isBlankChar c ∨ c = '\n' then some s
    else if c = '\r' then some ⟨s.found, .lineStartReturn read⟩
    else Scan.inBlock s.found .basic read 0 c
  | .lineStartReturn read => if c = '\n' then some ⟨s.found, .lineStart read⟩ else none

/-- The tokens when the text ends: no string may be open. -/
def Scan.finish (s : Scan) : Option (List Token) :=
  match s.place with
  | .between | .comment => some s.found.reverse
  | .bare run => some (.bare run.reverse :: s.found).reverse
  | .opening _ true => some (.string "" false :: s.found).reverse
  | .block q read marks =>
    if 3 ≤ marks then
      let text := List.replicate (marks - 3) q.char ++ read
      some (.string (String.ofList text.reverse) true :: s.found).reverse
    else none
  | _ => none

/-- Reads characters one after another. -/
def Scan.run : Scan → List Char → Option Scan
  | s, [] => some s
  | s, c :: cs =>
    match s.step c with
    | some t => t.run cs
    | none => none

/-- The tokens of a text.  A byte order mark at the beginning is skipped. -/
def tokens? (cs : List Char) : Option (List Token) :=
  let body := match cs with
    | c :: rest => if c = '\uFEFF' then rest else cs
    | [] => []
  match Scan.run ⟨[], .between⟩ body with
  | some s => s.finish
  | none => none

end ScriptDebugger.Toml
