/-
  ScriptDebugger/Rendering.lean
  =============================
  **How a value is shown.**

  A value is unfolded into a tree: leaves become texts, arrays lists, objects
  maps, and an object of the host is replaced by its underlying value.  Two
  markers cut the unfolding.  An array or object that is already open on the way
  to it is a cyclic reference; where the depth is used up, a composite is not
  opened.  The first test comes before the second.
-/
import ScriptDebugger.Value.Heap
import ScriptDebugger.Decimal.Numeral
import ScriptDebugger.Text.Excerpt

namespace ScriptDebugger

/-- A value as it is shown, before it becomes a text. -/
inductive RenderedValue
  | null
  | undefined
  | text (s : String)
  | list (items : List RenderedValue)
  | map (members : List (String × RenderedValue))
  /-- A reference to an array or object that is open on the way to this place. -/
  | cyclic
  /-- A composite that is not opened because the depth is used up. -/
  | depthLimit
  deriving Repr, Inhabited

/-- How deep values are opened and how long their texts may be. -/
structure RenderOptions where
  maxDepth : Nat := 16
  maxStringLen : Option Nat := none
  deriving DecidableEq, Repr

/-- What a value is when it is looked up in the heap. -/
inductive Shape
  | leaf (shown : RenderedValue)
  | array (h : Handle) (elements : List Value)
  | object (h : Handle) (members : List (String × Value))
  | host (inner : Value)

/-- Looks a value up.  A handle without a composite shows as undefined. -/
def Heap.shape (heap : Heap) : Value → Shape
  | .undefined => .leaf .undefined
  | .null => .leaf .null
  | .bool b => .leaf (.text (if b then "true" else "false"))
  | .number x => .leaf (.text x.text)
  | .string s => .leaf (.text s)
  | .function f => .leaf (.text f.text)
  | .shared h =>
    match heap.cell? h with
    | some (.array elements) => .array h elements
    | some (.object members) => .object h members.entries
    | some (.host _ inner) => .host inner
    | none => .leaf .undefined

/-- Unfolds a value, with `room` levels left to open below the composites on
    `path`.  An object of the host uses up a level and is not on the path. -/
def Heap.unfold (heap : Heap) : (room : Nat) → (path : List Handle) → Value → RenderedValue
  | 0, path, v =>
    match heap.shape v with
    | .leaf shown => shown
    | .array h _ | .object h _ => if h ∈ path then .cyclic else .depthLimit
    | .host _ => .depthLimit
  | room + 1, path, v =>
    match heap.shape v with
    | .leaf shown => shown
    | .array h elements =>
      if h ∈ path then .cyclic
      else .list (elements.map (unfold heap room (h :: path)))
    | .object h members =>
      if h ∈ path then .cyclic
      else .map (members.map fun m => (m.1, unfold heap room (h :: path) m.2))
    | .host inner => unfold heap room path inner

/-- The tree of a value, opened at most `maxDepth` levels deep. -/
def Heap.render (heap : Heap) (maxDepth : Nat) (v : Value) : RenderedValue :=
  heap.unfold maxDepth [] v

/-! ### Texts -/

namespace RenderedValue

/-- Stands for a reference back to an open composite. -/
def cyclicMarker : String := "<cyclic reference>"

/-- Stands for a composite that is too deep. -/
def depthMarker : String := "<max depth>"

mutual

/-- The text of a rendered value. -/
def display : RenderedValue → String
  | .null => "null"
  | .undefined => "undefined"
  | .text s => s
  | .list items => "[" ++ ", ".intercalate (displayItems items) ++ "]"
  | .map members => "\x7b" ++ ", ".intercalate (displayMembers members) ++ "\x7d"
  | .cyclic => cyclicMarker
  | .depthLimit => depthMarker

/-- The texts of the items of a list. -/
def displayItems : List RenderedValue → List String
  | [] => []
  | item :: items => display item :: displayItems items

/-- The texts of the members of a map. -/
def displayMembers : List (String × RenderedValue) → List String
  | [] => []
  | (key, item) :: members => (key ++ "=" ++ display item) :: displayMembers members

end

end RenderedValue

/-- A text cut to the configured length, if there is one. -/
def RenderOptions.fit (options : RenderOptions) (s : String) : String :=
  match options.maxStringLen with
  | some limit => Text.excerpt limit s
  | none => s

/-- The text of a value. -/
def Heap.text (heap : Heap) (options : RenderOptions) (v : Value) : String :=
  options.fit (heap.render options.maxDepth v).display

end ScriptDebugger
