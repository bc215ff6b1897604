/-
  ScriptDebugger/Stack/Assembly.lean
  ==================================
  **Taking a snapshot.**

  Each frame is read on its own, so a failure shows at the frame, name or binding
  that failed and nowhere else.
-/
import ScriptDebugger.Rendering
import ScriptDebugger.Stack.Frames
import ScriptDebugger.Stack.Snapshot

namespace ScriptDebugger

/-- What the interpreter lets be read while it waits: its heap, and the call stack
    behind each of the contexts that it names. -/
structure View (χ : Type) where
  heap : Heap
  stack : χ → ExecutionContext

/-- Nothing to be read: no composites and no frames. -/
def View.empty {χ : Type} : View χ := ⟨.empty, fun _ => .direct .empty⟩

/-- How snapshots are taken: how values are shown and what code outside of all
    functions is called. -/
structure Assembler where
  options : RenderOptions
  topLevelName : String
  deriving DecidableEq, Repr

namespace Assembler

/-- The text of a binding; an identifier without a value has none. -/
def bindingText (a : Assembler) (heap : Heap) :
    Except IntrospectionError Value → Option String
  | .ok v => if v.isUndefined then none else some (heap.text a.options v)
  | .error _ => some unavailableMarker

/-- The bindings of a scope, in the order of its identifiers. -/
def bindings (a : Assembler) (heap : Heap) (scope : Scope) (names : List String) :
    OrderedMap String String :=
  .ofList (names.filterMap fun n => (a.bindingText heap (scope.binding n)).map fun t => (n, t))

/-- What a frame is called. -/
def functionName (a : Assembler) (scope : Scope) : String :=
  match scope.functionName with
  | .ok (some name) => name
  | .ok none => a.topLevelName
  | .error _ => unavailableMarker

/-- The entry of a frame. -/
def frame (a : Assembler) (heap : Heap) (index : Nat) : Reading → ScopeFrame
  | .error e => ⟨index, unavailableMarker, .empty, some e.message⟩
  | .ok scope =>
    match scope.identifiers with
    | .error e => ⟨index, a.functionName scope, .empty, some e.message⟩
    | .ok names => ⟨index, a.functionName scope, a.bindings heap scope names, none⟩

/-- The snapshot of a call stack. -/
def assemble (a : Assembler) (heap : Heap) (context : ExecutionContext) : Snapshot :=
  ⟨context.readings.mapIdx (a.frame heap)⟩

end Assembler

end ScriptDebugger
