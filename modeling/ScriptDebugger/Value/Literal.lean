/-
  ScriptDebugger/Value/Literal.lean
  =================================
  **Values as they are written down.**

  A literal describes a value with the composites it brings along; building it
  puts each of those into the heap, innermost first.  A whole heap is written as
  a list of composites that may refer to each other by their place in the list.
-/
import ScriptDebugger.Value.Heap

namespace ScriptDebugger

mutual

/-- A written value; composites that exist already are written by handle. -/
inductive Literal
  | value (v : Value)
  | composite (c : CompositeLiteral)

/-- A written composite. -/
inductive CompositeLiteral
  | array (elements : List Literal)
  | object (members : List (String × Literal))
  | host (typeName : String) (inner : Literal)

end

mutual

/-- The value of a literal, with the composites it brings along in the heap. -/
def Literal.build : Literal → Heap → Value × Heap
  | .value v, heap => (v, heap)
  | .composite c, heap =>
    let (cell, heap) := c.buildCell heap
    let (h, heap) := heap.alloc cell
    (.shared h, heap)

/-- The cell of a composite, with the composites inside of it in the heap. -/
def CompositeLiteral.buildCell : CompositeLiteral → Heap → Cell × Heap
  | .array elements, heap =>
    let (vs, heap) := buildElements elements heap
    (.array vs, heap)
  | .object members, heap =>
    let (ms, heap) := buildMembers members heap
    (.object (.ofList ms), heap)
  | .host typeName inner, heap =>
    let (v, heap) := inner.build heap
    (.host typeName v, heap)

/-- The values of the elements of an array. -/
def buildElements : List Literal → Heap → List Value × Heap
  | [], heap => ([], heap)
  | l :: ls, heap =>
    let (v, heap) := l.build heap
    let (vs, heap) := buildElements ls heap
    (v :: vs, heap)

/-- The values of the members of an object. -/
def buildMembers : List (String × Literal) → Heap → List (String × Value) × Heap
  | [], heap => ([], heap)
  | (key, l) :: ls, heap =>
    let (v, heap) := l.build heap
    let (vs, heap) := buildMembers ls heap
    ((key, v) :: vs, heap)

end

/-- The cell of a composite before it is filled. -/
def CompositeLiteral.blank : CompositeLiteral → Cell
  | .array _ => .array []
  | .object _ => .object .empty
  | .host typeName _ => .host typeName .undefined

namespace Heap

/-- Fills the cells from a number on. -/
def fill : Nat → List CompositeLiteral → Heap → Heap
  | _, [], heap => heap
  | i, c :: cs, heap =>
    let (cell, heap) := c.buildCell heap
    fill (i + 1) cs (heap.update ⟨i⟩ fun _ => cell)

/-- The heap of a list of composites: all exist before any is filled, and the
    handle of each is its place in the list. -/
def ofLiterals (cs : List CompositeLiteral) : Heap :=
  fill 0 cs ⟨(cs.map CompositeLiteral.blank).toArray⟩

end Heap

end ScriptDebugger
