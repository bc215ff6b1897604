/-
  ScriptDebugger/Stack/Record.lean
  ================================
  **Call stacks as data.**

  An interpreter that is described by records: frames with their variables, live
  tables, captured frames and the heap.  Variables can be assigned, which shows
  in snapshots that are taken afterwards.
-/
import ScriptDebugger.Stack.Frames
import ScriptDebugger.Value.Heap

namespace ScriptDebugger

/-- A frame: its function, its variables in order, and the identifiers it claims
    to have, if they are not just the names of its variables. -/
structure FrameRecord where
  functionName : Except IntrospectionError (Option String)
  vars : OrderedMap String (Except IntrospectionError Value)
  identifiers : Option (Except IntrospectionError (List String))

namespace FrameRecord

/-- What reading a variable gives. -/
def read (f : FrameRecord) (name : String) : Except IntrospectionError Value :=
  (f.vars.get? name).getD (.error (.unreadableBinding name))

/-- The scope of a frame. -/
def scope (f : FrameRecord) : Scope where
  functionName := f.functionName
  identifiers := f.identifiers.getD (.ok f.vars.keys)
  binding := f.read

/-- Sets a variable, which is appended if it is new. -/
def assign (f : FrameRecord) (name : String) (v : Value) : FrameRecord :=
  { f with vars := f.vars.insert name (.ok v) }

end FrameRecord

/-- A frame that may fail to be read. -/
abbrev FrameSlot := Except IntrospectionError FrameRecord

/-- A live table; it may claim another number of frames than it has. -/
structure TableRecord where
  frames : List FrameSlot
  count : Option Nat

/-- The frame table of a record. -/
def TableRecord.table (t : TableRecord) : FrameTable where
  count := t.count.getD t.frames.length
  frame := fun i =>
    match t.frames[i]? with
    | some slot => slot.map FrameRecord.scope
    | none => .error (.frameOutOfRange i t.frames.length)

/-- A captured frame: its caller by number, and the live table it is anchored in
    by number and position. -/
structure SavedRecord where
  scope : FrameSlot
  parent : Option Nat
  anchor : Option (Nat × Nat)

/-- The interpreter's call stacks and heap. -/
structure World where
  heap : Heap
  tables : List TableRecord
  saved : List SavedRecord

/-- The call stack that is offered at a line. -/
inductive ContextRef
  | noFrames
  | direct (table : Nat)
  | resumed (saved : Nat)
  deriving DecidableEq, Repr

/-- The frame that an assignment goes to. -/
inductive FramePlace
  | live (table frame : Nat)
  | saved (index : Nat)
  deriving DecidableEq, Repr

namespace World

/-- The live table with the given number. -/
def table (w : World) (i : Nat) : FrameTable := ((w.tables[i]?).map TableRecord.table).getD .empty

/-- The captured frames. -/
def savedFrames (w : World) : List SavedFrame :=
  w.saved.map fun s =>
    ⟨s.scope.map FrameRecord.scope, s.parent, s.anchor.map fun a => ⟨w.table a.1, a.2⟩⟩

/-- The call stack that a reference means. -/
def context (w : World) : ContextRef → ExecutionContext
  | .noFrames => .direct .empty
  | .direct i => .direct (w.table i)
  | .resumed i => .resumed w.savedFrames i

/-- Sets a variable of a frame. -/
def assign (w : World) (place : FramePlace) (name : String) (v : Value) : World :=
  let change (slot : FrameSlot) : FrameSlot := slot.map fun f => f.assign name v
  match place with
  | .live i j => { w with tables := w.tables.modify i fun t => { t with frames := t.frames.modify j change } }
  | .saved i => { w with saved := w.saved.modify i fun s => { s with scope := change s.scope } }

end World

end ScriptDebugger
