/-
  ScriptDebugger/Session.lean
  ===========================
  **A debugging session as a sequential story.**

  A session puts an engine together with the interpreter that it suspends and
  with one controller.  After each request the interpreter goes on until it has
  nothing left to do, so the answers depend on the requests alone.  The
  controller may hold the reading of the call stack: a snapshot that is due then
  waits until the hold is released, and the engine takes other requests
  meanwhile.
-/
import ScriptDebugger.Engine.Rendezvous
import ScriptDebugger.Engine.Description
import ScriptDebugger.Stack.Record

namespace ScriptDebugger

/-- Where changes of the run state are written to. -/
inductive SinkKind
  /-- A log with a number. -/
  | recorder (number : Nat)
  /-- A cell that keeps the last state. -/
  | shared
  deriving DecidableEq, Repr

/-- A session. -/
structure Session where
  rendezvous : Rendezvous ContextRef
  world : World
  /-- Whether the call stack may not be read. -/
  armed : Bool
  /-- The sinks by number. -/
  sinks : List SinkKind
  /-- How many listeners there were. -/
  listeners : Nat
  /-- The listener whose notices are received. -/
  receiving : Option Nat
  /-- Notices received since the last report. -/
  inbox : List StopEvent
  /-- Log entries written since the last report. -/
  journal : List (Nat × RunState)
  /-- The content of the newest shared cell. -/
  shared : Option RunState

/-- What the state of a session is reported as. -/
structure Status where
  runState : RunState
  muted : Bool
  enabled : List UInt32
  lastStop : Option StopEvent
  stops : List StopEvent
  writes : List (Nat × RunState)
  shared : Option RunState

/-- What is done with the future of a submitted command. -/
inductive SubmitMode
  /-- Its result is read at once. -/
  | wait
  | keep
  | drop
  deriving DecidableEq, Repr

/-- A request to a session. -/
inductive Request
  | line (call : LineCall ContextRef)
  /-- A document that may or may not be a command. -/
  | submit (command : Option Command) (mode : SubmitMode)
  | poll (future : Nat)
  | hold
  | release
  | set (line : UInt32) (enabled : Bool)
  | setup (lines : List (UInt32 × Bool))
  | stop
  | finish
  | isEnabled (line : UInt32)
  | source
  | describe
  | listen
  | dropStops
  | record
  | share
  | assign (place : FramePlace) (name : String) (v : Value)
  | push (array : Handle) (v : Value)
  | insert (object : Handle) (key : String) (v : Value)

/-- What a request gives. -/
inductive Answer
  /-- The call of a line returned, or else the interpreter was suspended. -/
  | line (returned : Option Resume)
  | notACommand
  | submitted (future : Nat) (reply : Option Reply)
  | read (reply : Reply)
  | result (r : CommandResult)
  | results (rs : List CommandResult)
  | enabled (b : Bool)
  | source (name : String) (lineCount : UInt32)
  | description (text : String)
  | size (n : Nat)
  | done

namespace Session

/-- A session at its beginning. -/
def start (source : Source) (config : Config) (world : World) : Session where
  rendezvous := .ofSource source config
  world := world
  armed := false
  sinks := []
  listeners := 0
  receiving := none
  inbox := []
  journal := []
  shared := none

/-- The engine of a session. -/
def engine (s : Session) : Engine ContextRef := s.rendezvous.engine

/-- Replaces the engine of a session. -/
def withEngine (s : Session) (e : Engine ContextRef) : Session :=
  { s with rendezvous := { s.rendezvous with engine := e } }

/-! ### Effects -/

/-- Writes a run state to a sink. -/
def write (s : Session) (sink : Nat) (state : RunState) : Session :=
  match s.sinks[sink]? with
  | some (.recorder number) => { s with journal := s.journal ++ [(number, state)] }
  | some .shared => { s with shared := some state }
  | none => s

/-- Takes note of an effect that the futures are not concerned with. -/
def note (s : Session) : Effect → Session
  | .entered state (some sink) | .attached sink state => s.write sink state
  | .suspended event listener =>
    if listener = s.receiving ∧ listener.isSome then { s with inbox := s.inbox ++ [event] } else s
  | _ => s

/-- Takes over the outcome of an operation on the engine. -/
def absorb (s : Session) (o : Outcome ContextRef) : Session :=
  o.effects.foldl note { s with rendezvous := s.rendezvous.absorb o }

/-- What the interpreter lets be read at present. -/
def view (s : Session) : View ContextRef := ⟨s.world.heap, s.world.context⟩

/-- Whether the interpreter waits for the hold to be released. -/
def isHeld (s : Session) : Bool :=
  s.armed && match s.engine.service with
    | .assembling _ _ => true
    | _ => false

/-- What a call of the interpreter returned with, if one returned.  A call that
    does not suspend it lets it go on. -/
def returned? (effects : List Effect) : Option Resume :=
  effects.findSome? fun
    | .passed => some .go
    | .resumed outcome => some outcome
    | _ => none

/-- Does an operation on the engine and lets the interpreter go on as far as it
    can; tells what a call of the interpreter returned with meanwhile. -/
def perform (s : Session) (operation : Engine ContextRef → Outcome ContextRef) :
    Session × Option Resume :=
  let o := (operation s.engine).andThen (Engine.settle s.view !s.armed)
  (s.absorb o, returned? o.effects)

/-! ### Futures -/

/-- Replaces the futures of a session. -/
def withFutures (s : Session) (futures : Futures) : Session :=
  { s with rendezvous := { s.rendezvous with futures := futures } }

/-- Reads the future with the given number. -/
def poll (s : Session) (i : Nat) : Session × Reply :=
  let (reply, futures) := s.rendezvous.futures.poll i
  (s.withFutures futures, reply)

/-- Uses up the future with the given number. -/
def discard (s : Session) (i : Nat) : Session :=
  s.withFutures (s.rendezvous.futures.discard i)

/-- Submits a command. -/
def submit (s : Session) (command : Command) (mode : SubmitMode) :
    Session × Answer × Option Resume :=
  let ticket := s.rendezvous.futures.length
  let (s, returned) := { s with rendezvous := s.rendezvous.handOut }.perform fun e =>
    e.submit ticket command
  match mode with
  | .wait =>
    let held := s.isHeld
    let (s, reply) := s.poll ticket
    (if held then s else s.discard ticket, .submitted ticket (some reply), returned)
  | .keep => (s, .submitted ticket none, returned)
  | .drop => (s.discard ticket, .submitted ticket none, returned)

/-! ### Requests -/

/-- Installs a sink, which is told the present run state. -/
def install (s : Session) (kind : SinkKind) : Session :=
  let number := s.sinks.length
  let s := { s with sinks := s.sinks ++ [kind] }
  s.absorb (s.engine.setSink number)

/-- How many sinks are logs. -/
def recorders (s : Session) : Nat :=
  s.sinks.countP fun
    | .recorder _ => true
    | .shared => false

/-- Serves a request, and tells what the suspended call returned with if it
    returned meanwhile. -/
def serve (s : Session) : Request → Session × Answer × Option Resume
  | .line call =>
    let (s, returned) := s.perform fun e => e.onLine call
    (s, .line returned, none)
  | .submit none _ => (s, .notACommand, none)
  | .submit (some command) mode => s.submit command mode
  | .poll i =>
    let (s, reply) := s.poll i
    (s, .read reply, none)
  | .hold => ({ s with armed := true }, .done, none)
  | .release =>
    let (s, returned) := { s with armed := false }.perform Engine.idle
    (s, .done, returned)
  | .set line enabled =>
    let (e, result) := s.engine.setBreakpoint line enabled
    (s.withEngine e, .result result, none)
  | .setup lines =>
    let (e, results) := s.engine.setupBreakpoints lines
    (s.withEngine e, .results results, none)
  | .stop =>
    let (s, returned) := s.perform Engine.stop
    (s, .result Engine.stopped, returned)
  | .finish =>
    let (s, returned) := s.perform Engine.finish
    (s, .done, returned)
  | .isEnabled line => (s, .enabled (s.engine.breakpoints.isEnabled line), none)
  | .source =>
    let source := s.engine.breakpoints.source
    (s, .source source.name source.lineCount, none)
  | .describe => (s, .description s.engine.description, none)
  | .listen =>
    let number := s.listeners
    let s := { s with listeners := number + 1, receiving := some number, inbox := [] }
    (s.absorb (s.engine.setListener number), .done, none)
  | .dropStops => ({ s with receiving := none, inbox := [] }, .done, none)
  | .record => (s.install (.recorder s.recorders), .done, none)
  | .share => (s.install .shared, .done, none)
  | .assign place name v => ({ s with world := s.world.assign place name v }, .done, none)
  | .push h v =>
    let heap := s.world.heap.push h v
    ({ s with world := { s.world with heap := heap } }, .size (heap.elements h).length, none)
  | .insert h key v =>
    let heap := s.world.heap.insert h key v
    ({ s with world := { s.world with heap := heap } }, .size (heap.members h).size, none)

/-- Reports the state of the session, and what came in since the last report. -/
def report (s : Session) : Session × Status :=
  ({ s with inbox := [], journal := [] },
    { runState := s.engine.runState
      muted := s.engine.muted
      enabled := s.engine.breakpoints.enabledLines
      lastStop := s.engine.lastStop
      stops := s.inbox
      writes := s.journal
      shared := s.shared })

end Session

end ScriptDebugger
