/-
  ScriptDebugger/Json/Reader.lean
  ===============================
  **Reading a JSON value off its tokens.**

  The containers that are open lie on a stack with what they hold so far, last
  first; each token either opens or closes a container, ends a value, or stands
  between two.  Nesting is limited by the height of the stack.
-/
import ScriptDebugger.Json.Token

namespace ScriptDebugger.Json

/-- A container that is open around the place of reading. -/
inductive Frame
  | items (done : List Json)
  | members (done : List (String × Json)) (name : String)
  deriving Repr

/-- What the next token has to be. -/
inductive Expectation
  | value
  /-- After the opening bracket of an array. -/
  | firstItem
  /-- After the opening brace of an object. -/
  | firstName
  /-- After a comma in an object. -/
  | name (done : List (String × Json))
  | colon (done : List (String × Json)) (name : String)
  /-- A value has just ended. -/
  | afterValue (v : Json)
  deriving Repr

/-- A reading in progress. -/
structure Reading where
  stack : List Frame
  next : Expectation
  deriving Repr

/-- Reads the first token of a value. -/
def Reading.beginValue (limit : Nat) (stack : List Frame) : Token → Option Reading
  | .null => some ⟨stack, .afterValue .null⟩
  | .bool b => some ⟨stack, .afterValue (.bool b)⟩
  | .number x => some ⟨stack, .afterValue (.number x)⟩
  | .string s => some ⟨stack, .afterValue (.string s)⟩
  | .openArray => if stack.length < limit then some ⟨stack, .firstItem⟩ else none
  | .openObject => if stack.length < limit then some ⟨stack, .firstName⟩ else none
  | _ => none

/-- Reads the token after a value. -/
def Reading.continueAfter (v : Json) : List Frame → Token → Option Reading
  | .items done :: stack, .comma => some ⟨.items (v :: done) :: stack, .value⟩
  | .items done :: stack, .closeArray =>
    some ⟨stack, .afterValue (.array (v :: done).reverse)⟩
  | .members done name :: stack, .comma => some ⟨stack, .name ((name, v) :: done)⟩
  | .members done name :: stack, .closeObject =>
    some ⟨stack, .afterValue (.object ((name, v) :: done).reverse)⟩
  | _, _ => none

/-- Reads one token; at most `limit` containers may be open at once. -/
def Reading.step (limit : Nat) (r : Reading) (t : Token) : Option Reading :=
  match r.next with
  | .value => Reading.beginValue limit r.stack t
  | .firstItem =>
    if t = .closeArray then some ⟨r.stack, .afterValue (.array [])⟩
    else Reading.beginValue limit (.items [] :: r.stack) t
  | .firstName =>
    match t with
    | .closeObject => some ⟨r.stack, .afterValue (.object [])⟩
    | .string s => some ⟨r.stack, .colon [] s⟩
    | _ => none
  | .name done =>
    match t with
    | .string s => some ⟨r.stack, .colon done s⟩
    | _ => none
  | .colon done name =>
    match t with
    | .colon => some ⟨.members done name :: r.stack, .value⟩
    | _ => none
  | .afterValue v => Reading.continueAfter v r.stack t

/-- Reads tokens one after another. -/
def Reading.run (limit : Nat) : Reading → List Token → Option Reading
  | r, [] => some r
  | r, t :: ts =>
    match r.step limit t with
    | some next => next.run limit ts
    | none => none

/-- The value, when it is complete and no container is open. -/
def Reading.finish (r : Reading) : Option Json :=
  match r.stack, r.next with
  | [], .afterValue v => some v
  | _, _ => none

/-- The value of a sequence of tokens. -/
def ofTokens? (limit : Nat) (ts : List Token) : Option Json :=
  match Reading.run limit ⟨[], .value⟩ ts with
  | some r => r.finish
  | none => none

/-- Reads a text that holds one value, nested at most `limit` containers deep. -/
def parse? (limit : Nat) (s : String) : Option Json :=
  match tokens? s.toList with
  | some ts => ofTokens? limit ts
  | none => none

/-- How many containers may be open at once in a command. -/
def nestingLimit : Nat := 127

end ScriptDebugger.Json
