/-
  ScriptDebugger/Value/Heap.lean
  ==============================
  **The heap of shared composites.**

  A heap maps handles to cells.  Writing goes through a handle, so every alias
  of a composite sees it, and no write touches another cell.
-/
import ScriptDebugger.Value
import ScriptDebugger.OrderedMap

namespace ScriptDebugger

/-- A shared composite. -/
inductive Cell
  | array (elements : List Value)
  | object (members : OrderedMap String Value)
  /-- An object of the embedding host, shown as its underlying value. -/
  | host (typeName : String) (inner : Value)
  deriving DecidableEq, Repr

/-- Whether two composites of this kind can be compared by identity and are
    watched for cycles: arrays and objects are, objects of the host are not. -/
def Cell.isComposite : Cell → Bool
  | .host .. => false
  | _ => true

/-- The elements of an array. -/
def Cell.elements : Cell → List Value
  | .array elements => elements
  | _ => []

/-- The members of an object. -/
def Cell.members : Cell → OrderedMap String Value
  | .object members => members
  | _ => .empty

/-- Appends to an array; other cells stay as they are. -/
def Cell.push (v : Value) : Cell → Cell
  | .array elements => .array (elements ++ [v])
  | cell => cell

/-- Inserts a member into an object; other cells stay as they are. -/
def Cell.insert (key : String) (v : Value) : Cell → Cell
  | .object members => .object (members.insert key v)
  | cell => cell

/-- The cells of the composites, by the number of their handle. -/
structure Heap where
  cells : Array Cell
  deriving DecidableEq, Repr, Inhabited

namespace Heap

/-- The heap without composites. -/
def empty : Heap := ⟨#[]⟩

/-- The composite behind a handle. -/
def cell? (heap : Heap) (h : Handle) : Option Cell := heap.cells[h.id]?

/-- Adds a composite and gives its handle. -/
def alloc (heap : Heap) (cell : Cell) : Handle × Heap :=
  (⟨heap.cells.size⟩, ⟨heap.cells.push cell⟩)

/-- Replaces the composite behind a handle by its image under `f`. -/
def update (heap : Heap) (h : Handle) (f : Cell → Cell) : Heap :=
  ⟨heap.cells.modify h.id f⟩

/-- Appends a value to the array behind a handle. -/
def push (heap : Heap) (h : Handle) (v : Value) : Heap := heap.update h (Cell.push v)

/-- Inserts a member into the object behind a handle. -/
def insert (heap : Heap) (h : Handle) (key : String) (v : Value) : Heap :=
  heap.update h (Cell.insert key v)

/-- The elements of the array behind a handle. -/
def elements (heap : Heap) (h : Handle) : List Value :=
  ((heap.cell? h).map Cell.elements).getD []

/-- The members of the object behind a handle. -/
def members (heap : Heap) (h : Handle) : OrderedMap String Value :=
  ((heap.cell? h).map Cell.members).getD .empty

/-- The member of an object with the given key. -/
def member? (heap : Heap) (h : Handle) (key : String) : Option Value := (heap.members h).get? key

/-- Whether two values are the same array or the same object. -/
def same (heap : Heap) : Value → Value → Bool
  | .shared a, .shared b => decide (a = b) && ((heap.cell? a).map Cell.isComposite).getD false
  | _, _ => false

theorem cell?_update (heap : Heap) (h j : Handle) (f : Cell → Cell) :
    (heap.update h f).cell? j = if h = j then (heap.cell? j).map f else heap.cell? j := by
  have hid : h = j ↔ h.id = j.id := by cases h; cases j; simp
  simp only [update, cell?, Array.getElem?_modify, hid]

end Heap

end ScriptDebugger
