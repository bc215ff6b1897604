/-
  ScriptDebugger/Engine/Run.lean
  ==============================
  **Runs of the engine.**

  A run is a sequence of actions of the controllers and the interpreter in any
  order; each action happens as a whole.  `settle` lets the suspended call go on
  until it sleeps, has returned, or may not read the call stack yet.
-/
import ScriptDebugger.Engine

namespace ScriptDebugger

/-- Something that happens to an engine. -/
inductive Action (χ : Type)
  | submit (ticket : Nat) (command : Command)
  | stop
  | finish
  | setBreakpoint (line : UInt32) (enabled : Bool)
  | onLine (call : LineCall χ)
  | serve
  | finishAssembly (view : View χ)
  | setSink (sink : Nat)
  | setListener (listener : Nat)

namespace Outcome

variable {χ : Type}

/-- Goes on from an outcome. -/
def andThen (o : Outcome χ) (next : Engine χ → Outcome χ) : Outcome χ :=
  ⟨(next o.engine).engine, o.effects ++ (next o.engine).effects⟩

end Outcome

namespace Engine

variable {χ : Type}

/-- What an action does. -/
def act (e : Engine χ) : Action χ → Outcome χ
  | .submit ticket command => e.submit ticket command
  | .stop => e.stop
  | .finish => e.finish
  | .setBreakpoint line enabled => (e.setBreakpoint line enabled).1.idle
  | .onLine call => e.onLine call
  | .serve => e.serve
  | .finishAssembly view => e.finishAssembly view
  | .setSink sink => e.setSink sink
  | .setListener listener => e.setListener listener

/-- What a sequence of actions does. -/
def run (e : Engine χ) : List (Action χ) → Outcome χ
  | [] => e.idle
  | action :: actions => (e.act action).andThen fun next => next.run actions

/-- The states that an engine comes to. -/
def Reachable (start e : Engine χ) : Prop := ∃ actions, (start.run actions).engine = e

/-! ### Letting the suspended call go on -/

/-- The steps that the suspended call has before it, at most. -/
def effort (e : Engine χ) : Nat :=
  (if e.slot.isSome then 3 else 0) +
    match e.service with
    | .absent | .parked _ false => 0
    | .awake _ | .parked _ true => 1
    | .assembling _ _ => 2

/-- One step of the suspended call; a snapshot is completed only when the call
    stack may be read. -/
def advance (view : View χ) (mayRead : Bool) (e : Engine χ) : Outcome χ :=
  match e.service with
  | .assembling _ _ => if mayRead then e.finishAssembly view else e.idle
  | _ => e.serve

/-- A number of steps of the suspended call. -/
def advanceBy (view : View χ) (mayRead : Bool) : Nat → Engine χ → Outcome χ
  | 0, e => e.idle
  | n + 1, e => (e.advance view mayRead).andThen (advanceBy view mayRead n)

/-- Lets the suspended call go on as far as it can. -/
def settle (view : View χ) (mayRead : Bool) (e : Engine χ) : Outcome χ :=
  advanceBy view mayRead e.effort e

end Engine

end ScriptDebugger
