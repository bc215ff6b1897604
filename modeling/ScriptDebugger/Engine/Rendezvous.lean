/-
  ScriptDebugger/Engine/Rendezvous.lean
  =====================================
  **The engine and the futures of its controllers.**

  A controller gets a future for every command that it submits, and the engine's
  answers find the futures by their numbers.  Controllers may read a future as
  often as they like and may drop it.  A run of a rendezvous interleaves what
  controllers and interpreter do with the engine, and what controllers do with
  their futures; its log tells all of it, in order.
-/
import ScriptDebugger.Command.Future
import ScriptDebugger.Engine.Run

namespace ScriptDebugger

/-- The engine, and the futures of the commands that were submitted. -/
structure Rendezvous (χ : Type) where
  engine : Engine χ
  futures : Futures

/-- Takes an effect of the engine to the future that waits for it. -/
def Futures.receive (fs : Futures) : Effect → Futures
  | .answered ticket result => fs.deliver ticket result
  | _ => fs

/-- Something that happens at a rendezvous. -/
inductive Move (χ : Type)
  /-- An action on the engine.  A command that is submitted gets the next future,
      whatever number the action names. -/
  | act (action : Action χ)
  | poll (future : Nat)
  | discard (future : Nat)

/-- What a run leaves behind. -/
inductive Entry (χ : Type)
  /-- An action on the engine begins. -/
  | begun (engine : Engine χ) (action : Action χ)
  | caused (effect : Effect)
  | polled (future : Nat) (reply : Reply)
  | discarded (future : Nat)

namespace Action

variable {χ : Type}

/-- The number of the future that a submitted command gets. -/
def ticket? : Action χ → Option Nat
  | .submit ticket _ => some ticket
  | _ => none

/-- Gives a submitted command the future with the given number. -/
def numbered (n : Nat) : Action χ → Action χ
  | .submit _ command => .submit n command
  | action => action

end Action

namespace Rendezvous

variable {χ : Type}

/-- A rendezvous at its beginning. -/
def ofSource (source : Source) (config : Config) : Rendezvous χ := ⟨.ofSource source config, []⟩

/-- Hands out one more future. -/
def handOut (r : Rendezvous χ) : Rendezvous χ := { r with futures := r.futures.handOut }

/-- Takes over the outcome of an operation on the engine. -/
def absorb (r : Rendezvous χ) (o : Outcome χ) : Rendezvous χ :=
  ⟨o.engine, o.effects.foldl Futures.receive r.futures⟩

/-- What an action does. -/
def act (r : Rendezvous χ) (action : Action χ) : Rendezvous χ × List (Entry χ) :=
  let action := action.numbered r.futures.length
  let o := r.engine.act action
  let handed := if action.ticket?.isSome then r.handOut else r
  (handed.absorb o, .begun r.engine action :: o.effects.map .caused)

/-- What a move does. -/
def move (r : Rendezvous χ) : Move χ → Rendezvous χ × List (Entry χ)
  | .act action => r.act action
  | .poll i =>
    let (reply, futures) := r.futures.poll i
    ({ r with futures := futures }, [.polled i reply])
  | .discard i => ({ r with futures := r.futures.discard i }, [.discarded i])

/-- What a sequence of moves does. -/
def play (r : Rendezvous χ) : List (Move χ) → Rendezvous χ × List (Entry χ)
  | [] => (r, [])
  | m :: moves =>
    let (next, log) := r.move m
    let (last, later) := next.play moves
    (last, log ++ later)

end Rendezvous

end ScriptDebugger
