/-
  ScriptDebugger/Command/Codec.lean
  =================================
  **Commands as JSON documents.**

  A command is written as an object whose member `command` names it, followed by
  the members that belong to it.  When a document is read, the members may come
  in any order and members that do not belong to the command are ignored, but
  the name and each member of the command must be there exactly once.  A
  document may also be an array of the name and the values, in order.
-/
import ScriptDebugger.Command
import ScriptDebugger.Source
import ScriptDebugger.Json.Printer
import ScriptDebugger.Json.Reader

namespace ScriptDebugger

/-! ### Kinds of steps -/

namespace StepKind

/-- The word for a kind of step. -/
def word : StepKind → String
  | .into => "into"
  | .over => "over"
  | .out => "out"

/-- The kind of step that a word stands for. -/
def ofWord? (w : String) : Option StepKind :=
  if w = "into" then some .into
  else if w = "over" then some .over
  else if w = "out" then some .out
  else none

/-- A kind of step is its word. -/
def toJson (kind : StepKind) : Json := .string kind.word

/-- Reads a kind of step: its word, or an object that maps the word to null. -/
def ofJson? : Json → Option StepKind
  | .string w => ofWord? w
  | .object [(w, .null)] => ofWord? w
  | _ => none

/-- Reads the text of a kind of step. -/
def parse? (s : String) : Option StepKind := (Json.parse? Json.nestingLimit s).bind ofJson?

end StepKind

/-! ### Commands -/

namespace Command

/-- The member that names the command. -/
def tag : String := "command"

/-- The name of a command. -/
def name : Command → String
  | .resume => "continue"
  | .stepInto => "stepInto"
  | .stepOver => "stepOver"
  | .stepOut => "stepOut"
  | .exit => "exit"
  | .setBreakpoint .. => "setBreakpoint"
  | .toggleMute _ => "toggleMuteBreakpoints"
  | .getVariables => "getVariables"
  | .stop => "stop"

/-- The members that belong to a command, in order. -/
def fields : Command → List (String × Json)
  | .setBreakpoint line enabled => [("line", .ofNat line.toNat), ("enabled", .bool enabled)]
  | .toggleMute muted => [("muted", .bool muted)]
  | _ => []

/-- The document of a command. -/
def toJson (c : Command) : Json := .object ((tag, .string c.name) :: c.fields)

/-- The text of a command. -/
def text (c : Command) : String := c.toJson.compact

/-- The names of the members that belong to the command of a name, in order. -/
def fieldNames? (name : String) : Option (List String) :=
  if name ∈ ["continue", "stepInto", "stepOver", "stepOut", "exit", "getVariables", "stop"] then
    some []
  else if name = "setBreakpoint" then some ["line", "enabled"]
  else if name = "toggleMuteBreakpoints" then some ["muted"]
  else none

/-- Reads a line number: an unsigned integer literal of at most 32 bits. -/
def line? (v : Json) : Option UInt32 :=
  match v.natural? with
  | some n => if n < Source.lineBound then some (UInt32.ofNat n) else none
  | none => none

/-- Builds the command of a name from the values of its members, in order. -/
def build? (name : String) (values : List Json) : Option Command :=
  if name = "setBreakpoint" then
    match values with
    | [line, enabled] => do some (.setBreakpoint (← line? line) (← enabled.bool?))
    | _ => none
  else if name = "toggleMuteBreakpoints" then
    match values with
    | [muted] => do some (.toggleMute (← muted.bool?))
    | _ => none
  else if values ≠ [] then none
  else if name = "continue" then some .resume
  else if name = "stepInto" then some .stepInto
  else if name = "stepOver" then some .stepOver
  else if name = "stepOut" then some .stepOut
  else if name = "exit" then some .exit
  else if name = "getVariables" then some .getVariables
  else if name = "stop" then some .stop
  else none

/-- The value of a member that stands in an object exactly once. -/
def single? (members : List (String × Json)) (name : String) : Option Json :=
  match Json.named name members with
  | [v] => some v
  | _ => none

/-- Reads the document of a command. -/
def ofJson? : Json → Option Command
  | .object members => do
    let name ← (← single? members tag).string?
    let values ← (← fieldNames? name).mapM (single? members)
    build? name values
  | .array (.string name :: values) => build? name values
  | _ => none

/-- Reads the text of a command. -/
def parse? (s : String) : Option Command := (Json.parse? Json.nestingLimit s).bind ofJson?

end Command

end ScriptDebugger
