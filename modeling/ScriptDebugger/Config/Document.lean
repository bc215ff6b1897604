/-
  ScriptDebugger/Config/Document.lean
  ===================================
  **The configuration document.**

  A document is TOML with the sections `engine`, `render` and `breakpoints`.  All
  settings are checked for their type before any is checked for its value.  Of
  keys that name no setting it only matters that their numbers are readable.
-/
import ScriptDebugger.Config
import ScriptDebugger.Source
import ScriptDebugger.Toml.Readable
import ScriptDebugger.Toml.Reader

namespace ScriptDebugger.Config

open Toml (Item Table)

/-! ### Settings by type -/

/-- Reads a text. -/
def string? : Item → Option String
  | .string s => some s
  | _ => none

/-- Reads a truth value. -/
def bool? : Item → Option Bool
  | .bool b => some b
  | _ => none

/-- Reads an integer from zero up to, but without, a bound. -/
def naturalBelow? (bound : Nat) : Item → Option Nat
  | .integer i => if 0 ≤ i ∧ i.toNat < bound then some i.toNat else none
  | _ => none

/-- Reads a size of at most 64 bits. -/
def size? : Item → Option Nat := naturalBelow? 18446744073709551616

/-- Reads a line number. -/
def line? (item : Item) : Option UInt32 := (naturalBelow? Source.lineBound item).map UInt32.ofNat

/-- Reads a list of line numbers. -/
def lines? : Item → Option (List UInt32)
  | .array items => items.mapM line?
  | _ => none

/-- Reads a setting that may be missing. -/
def optional? {α : Type} (read : Item → Option α) : Option Item → Option (Option α)
  | none => some none
  | some item => (read item).map some

/-! ### Sections -/

/-- The two settings of a section by their keys.  A section may also be an array
    that begins with its settings, in order, and whose other items are not looked
    at; a date has no settings. -/
def settings? (first second : String) : Item → Option (Option Item × Option Item)
  | .table t => if t.isReadable then some (t.get? first, t.get? second) else none
  | .array (a :: b :: _) => some (some a, some b)
  | .dateTime => some (none, none)
  | _ => none

/-- Reads the section `engine`. -/
def engine? (item : Item) : Option EngineSettings := do
  let (name, mute) ← settings? "top_level_name" "mute_breakpoints" item
  some ⟨← optional? string? name, ← optional? bool? mute⟩

/-- Reads the section `render`. -/
def render? (item : Item) : Option RenderSettings := do
  let (depth, length) ← settings? "max_depth" "max_string_len" item
  some ⟨← optional? size? depth, ← optional? size? length⟩

/-- Reads the section `breakpoints`. -/
def breakpoints? (item : Item) : Option BreakpointSettings := do
  let (lines, disabled) ← settings? "lines" "disabled" item
  some ⟨← optional? lines? lines, ← optional? lines? disabled⟩

/-- Whether a key names a section. -/
def isSection (key : String) : Bool := key == "engine" || key == "render" || key == "breakpoints"

/-- Reads the settings of a document. -/
def Settings.ofTable? (root : Table) : Option Settings := do
  let engine ← optional? engine? (root.get? "engine")
  let render ← optional? render? (root.get? "render")
  let breakpoints ← optional? breakpoints? (root.get? "breakpoints")
  if root.members.all fun m => isSection m.1 || m.2.isReadable then
    some ⟨engine, render, breakpoints⟩
  else none

/-- The configuration of a document. -/
def parse (text : String) : Except Fault Config :=
  match (Toml.parse? text).bind Settings.ofTable? with
  | some settings => settings.toConfig
  | none => .error .unreadable

/-- The configuration of a file's content, which may be missing and must be valid
    UTF-8. -/
def ofFile (content : Option ByteArray) : Except Fault Config :=
  match content.bind String.fromUTF8? with
  | some text => parse text
  | none => .error .unreadable

end ScriptDebugger.Config
