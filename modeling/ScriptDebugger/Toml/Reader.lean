/-
  ScriptDebugger/Toml/Reader.lean
  ===============================
  **Reading a TOML document off its tokens.**

  A line is a header, an assignment or blank.  The arrays and inline tables that
  are open inside a value lie on a stack, on top of the key that the value is
  assigned to; within them line breaks count only inside of a dotted key.
-/
import ScriptDebugger.Toml.Scalar

namespace ScriptDebugger.Toml

/-- What is open around the value that is read. -/
inductive Frame
  /-- A line that assigns to a key. -/
  | line (key : List String)
  | array (done : List Item)
  | inlineTable (done : Table) (key : List String)

/-- What a key is read for. -/
inductive Purpose
  | header (isArray : Bool)
  | assignment
  | inlineMember (done : Table)

/-- What may come next. -/
inductive Expectation
  | lineStart
  | lineEnd
  /-- After the opening bracket of a header. -/
  | headerStart
  /-- After the first of the two brackets that close the header of an array. -/
  | headerEnd (parts : List String)
  /-- A part of a key, with the parts before it, last first. -/
  | keyPart (purpose : Purpose) (parts : List String)
  | afterKeyPart (purpose : Purpose) (parts : List String)
  /-- The sign between key and value of an inline table, after a line break. -/
  | equals (done : Table) (parts : List String)
  | value
  /-- An item of an array, or its end. -/
  | item
  /-- A member of an inline table, or its end. -/
  | member (done : Table)
  /-- Inside a value without quotation marks, with the blanks read after it so far;
      they belong to the value if it goes on. -/
  | scalar (run blanks : List Char)
  | afterValue (item : Item)

/-- A reading in progress. -/
structure Reading where
  document : Document
  stack : List Frame
  next : Expectation

/-- How many arrays and inline tables may be open at once. -/
def nestingLimit : Nat := 80

/-- How many parts a key may have. -/
def keyPartLimit : Nat := 80

namespace Reading

/-- Whether another array or inline table may be opened.  The line itself lies at
    the bottom of the stack. -/
def mayNest (r : Reading) : Bool := decide (r.stack.length ≤ nestingLimit)

/-- Reads the first token of a value. -/
def beginValue (r : Reading) : Token → Option Reading
  | .bare run => some { r with next := .scalar run [] }
  | .string s _ => some { r with next := .afterValue (.string s) }
  | .openBracket =>
    if r.mayNest then some { r with stack := .array [] :: r.stack, next := .item } else none
  | .openBrace => if r.mayNest then some { r with next := .member (.empty .inline) } else none
  | _ => none

/-- Whether a run of characters is a bare key. -/
def isBareKey (run : List Char) : Bool :=
  run.all fun c => c.isAlphanum || c == '_' || c == '-'

/-- Reads a part of a key. -/
def keyPart? : Token → Option String
  | .bare run => if isBareKey run then some (String.ofList run) else none
  | .string s false => some s
  | _ => none

/-- Reads the token that must be a part of a key. -/
def readKeyPart (r : Reading) (purpose : Purpose) (parts : List String) (t : Token) :
    Option Reading :=
  (keyPart? t).map fun part => { r with next := .afterKeyPart purpose (part :: parts) }

/-- Reads the token after a complete key, which must not have too many parts. -/
def closeKey (r : Reading) (purpose : Purpose) (parts : List String) (t : Token) :
    Option Reading :=
  if keyPartLimit < parts.length then none
  else match purpose, t with
  | .header false, .closeBracket => do
    let document ← r.document.openTable false parts.reverse
    some { r with document := document, next := .lineEnd }
  | .header true, .closeBracket => some { r with next := .headerEnd parts }
  | .assignment, .equals => some { r with stack := [.line parts.reverse], next := .value }
  | .inlineMember done, .equals =>
    some { r with stack := .inlineTable done parts.reverse :: r.stack, next := .value }
  | _, _ => none

/-- Reads the rest of a line. -/
def endLine (r : Reading) : Token → Option Reading
  | .blank _ => some { r with next := .lineEnd }
  | .newline => some { r with next := .lineStart }
  | _ => none

/-- Reads the token after a value. -/
def continueAfter (r : Reading) (item : Item) (t : Token) : Option Reading :=
  match r.stack with
  | [] => none
  | .line key :: _ => do
    let document ← r.document.assign key item
    endLine { r with document := document, stack := [] } t
  | .array done :: rest =>
    match t with
    | .blank _ | .newline => some { r with next := .afterValue item }
    | .comma => some { r with stack := .array (item :: done) :: rest, next := .item }
    | .closeBracket =>
      some { r with stack := rest, next := .afterValue (.array (item :: done).reverse) }
    | _ => none
  | .inlineTable done key :: rest =>
    match t with
    | .blank _ | .newline => some { r with next := .afterValue item }
    | .comma => do
      let done ← done.assign item true key
      some { r with stack := rest, next := .member done }
    | .closeBrace => do
      let done ← done.assign item true key
      some { r with stack := rest, next := .afterValue (.table done) }
    | _ => none

/-- Reads one token. -/
def step (r : Reading) (t : Token) : Option Reading :=
  match r.next with
  | .lineStart =>
    match t with
    | .blank _ | .newline => some r
    | .openBracket => some { r with next := .headerStart }
    | t => r.readKeyPart .assignment [] t
  | .lineEnd => r.endLine t
  | .headerStart =>
    match t with
    | .openBracket => some { r with next := .keyPart (.header true) [] }
    | .blank _ => some { r with next := .keyPart (.header false) [] }
    | t => r.readKeyPart (.header false) [] t
  | .headerEnd parts =>
    match t with
    | .closeBracket => do
      let document ← r.document.openTable true parts.reverse
      some { r with document := document, next := .lineEnd }
    | _ => none
  | .keyPart purpose parts =>
    match t with
    | .blank _ => some r
    | t => r.readKeyPart purpose parts t
  | .afterKeyPart purpose parts =>
    match t, purpose with
    | .blank _, _ => some r
    | .dot, _ => some { r with next := .keyPart purpose parts }
    | .newline, .inlineMember done => some { r with next := .equals done parts }
    | t, purpose => r.closeKey purpose parts t
  | .equals done parts =>
    match t with
    | .blank _ | .newline => some r
    | t => r.closeKey (.inlineMember done) parts t
  | .value =>
    match t, r.stack with
    | .blank _, _ | .newline, .inlineTable _ _ :: _ => some r
    | t, _ => r.beginValue t
  | .item =>
    match t, r.stack with
    | .blank _, _ | .newline, _ => some r
    | .closeBracket, .array done :: rest =>
      some { r with stack := rest, next := .afterValue (.array done.reverse) }
    | t, _ => r.beginValue t
  | .member done =>
    match t with
    | .blank _ | .newline => some r
    | .closeBrace => some { r with next := .afterValue (.table done) }
    | t => r.readKeyPart (.inlineMember done) [] t
  | .scalar run blanks =>
    match t with
    | .blank c => some { r with next := .scalar run (blanks ++ [c]) }
    | .bare more => some { r with next := .scalar (run ++ blanks ++ more) [] }
    | .dot => some { r with next := .scalar (run ++ blanks ++ ['.']) [] }
    | t => do
      let item ← scalar? run
      r.continueAfter item t
  | .afterValue item => r.continueAfter item t

/-- Reads tokens one after another. -/
def run : Reading → List Token → Option Reading
  | r, [] => some r
  | r, t :: ts =>
    match r.step t with
    | some next => next.run ts
    | none => none

/-- The document, when no line is left open. -/
def finish (r : Reading) : Option Table :=
  match r.next with
  | .lineStart | .lineEnd => some r.document.root
  | _ => none

end Reading

/-- Reads a document.  The end of the text ends its last line. -/
def parse? (s : String) : Option Table :=
  match tokens? s.toList with
  | some ts =>
    match Reading.run ⟨.empty, [], .lineStart⟩ (ts ++ [.newline]) with
    | some r => r.finish
    | none => none
  | none => none

end ScriptDebugger.Toml
