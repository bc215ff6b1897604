/-
  ScriptDebugger/Stack/Frames.lean
  ================================
  **The paused call stack, as the interpreter offers it.**

  A call stack is either live, an indexed table with the innermost frame first,
  or captured, a chain of saved frames linked to their callers.  A saved frame
  may be anchored in a live table: the table's frames from a given position on
  then stand for it and for all its callers.  Any part may fail to be read.

  `ExecutionContext.readings` flattens a call stack, innermost frame first.
-/
import ScriptDebugger.Value
import ScriptDebugger.Error

namespace ScriptDebugger

/-- The visible bindings of one activation.  Code outside of all functions has
    no function name. -/
structure Scope where
  functionName : Except IntrospectionError (Option String)
  identifiers : Except IntrospectionError (List String)
  binding : String → Except IntrospectionError Value

/-- What reading a frame gives. -/
abbrev Reading := Except IntrospectionError Scope

/-- A live frame table; frame 0 is the innermost one. -/
structure FrameTable where
  count : Nat
  frame : Nat → Reading

/-- The table without frames. -/
def FrameTable.empty : FrameTable := ⟨0, fun i => .error (.frameOutOfRange i 0)⟩

/-- The frames of a table from a position on, in order. -/
def FrameTable.readingsFrom (table : FrameTable) (start : Nat) : List Reading :=
  (List.range' start (table.count - start)).map table.frame

/-- The place at which a chain of saved frames enters a live table: `start` is
    the first frame of the table that the chain does not cover. -/
structure Anchor where
  table : FrameTable
  start : Nat

/-- A saved frame of a captured call stack.  A parent is the number of a frame of
    the same capture, so two frames are the same only by number. -/
structure SavedFrame where
  scope : Reading
  parent : Option Nat
  anchor : Option Anchor

/-- The chain of saved frames from `current` outward.  It ends without a parent,
    at a number that is no frame, at a frame that was met before, or with the
    drained table of the first anchored frame. -/
def walk (saved : List SavedFrame) (unvisited : List Nat) (current : Option Nat) : List Reading :=
  match current with
  | none => []
  | some n =>
    if _h : n ∈ unvisited then
      match saved[n]? with
      | none => []
      | some frame =>
        match frame.anchor with
        | some anchor => anchor.table.readingsFrom anchor.start
        | none => frame.scope :: walk saved (unvisited.erase n) frame.parent
    else []
termination_by unvisited.length
decreasing_by
  have hpos : 0 < unvisited.length := List.length_pos_of_mem _h
  rw [List.length_erase_of_mem _h]
  omega

/-- The call stack at a suspension. -/
inductive ExecutionContext
  /-- Paused inside a live call. -/
  | direct (table : FrameTable)
  /-- Resumed from a capture, at its innermost frame. -/
  | resumed (saved : List SavedFrame) (head : Nat)

/-- The frames of a call stack, innermost first, each at most once. -/
def ExecutionContext.readings : ExecutionContext → List Reading
  | .direct table => table.readingsFrom 0
  | .resumed saved head => walk saved (List.range saved.length) (some head)

end ScriptDebugger
