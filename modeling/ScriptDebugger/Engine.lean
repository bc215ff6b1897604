/-
  ScriptDebugger/Engine.lean
  ==========================
  **The state of the debugger engine.**

  Controllers and the interpreter meet in the engine.  It has a run state, a slot
  for one pending command, at most one pending step, and it knows what the call
  by which the interpreter was suspended is doing.  Every operation on the engine
  is a function from a state to a next state and the effects it causes, in order;
  the operations of controllers and interpreter interleave freely.

  `χ` is the type of the contexts by which the interpreter names its call stacks;
  what stands behind them is read off a `View` when a snapshot is taken.
-/
import ScriptDebugger.Breakpoints
import ScriptDebugger.Command
import ScriptDebugger.Command.Output
import ScriptDebugger.Config

namespace ScriptDebugger

/-! ### What the engine is about -/

/-- Whether the script runs. -/
inductive RunState
  /-- The script runs; only edits of breakpoints are taken. -/
  | running
  /-- The interpreter waits for commands. -/
  | suspended
  /-- The session is over. -/
  | stopped
  deriving DecidableEq, Repr

/-- Why the interpreter was suspended. -/
inductive StopReason
  | breakpoint
  | step
  deriving DecidableEq, Repr

/-- The notice of a suspension. -/
structure StopEvent where
  reason : StopReason
  source : String
  line : UInt32
  callDepth : UInt32
  deriving DecidableEq, Repr

/-- What the interpreter is told when it may go on. -/
inductive Resume
  | go
  | step (kind : StepKind)
  | exit
  deriving DecidableEq, Repr

/-- A step that was asked for at a call depth and has not ended yet. -/
structure PendingStep where
  kind : StepKind
  originDepth : UInt32
  deriving DecidableEq, Repr

/-- Whether a step ends at a line of the given call depth. -/
def PendingStep.isReached (s : PendingStep) (callDepth : UInt32) : Bool :=
  match s.kind with
  | .into => true
  | .over => decide (callDepth ≤ s.originDepth)
  | .out => decide (callDepth < s.originDepth)

/-- A command on its way to the interpreter.  Its result goes to the future with
    the number `ticket`. -/
structure PendingCommand where
  command : Command
  ticket : Nat
  deriving DecidableEq, Repr

/-- The arrival of the interpreter at a line. -/
structure LineCall (χ : Type) where
  line : UInt32
  callDepth : UInt32
  context : χ
  deriving DecidableEq, Repr

/-- What the interpreter's suspended call is doing. -/
inductive Service (χ : Type)
  /-- No call is suspended. -/
  | absent
  /-- It is about to look at the slot. -/
  | awake (call : LineCall χ)
  /-- It sleeps; `notified` says that it was woken since it fell asleep. -/
  | parked (call : LineCall χ) (notified : Bool)
  /-- It takes a snapshot for the future `ticket`, without holding up others. -/
  | assembling (call : LineCall χ) (ticket : Nat)
  deriving DecidableEq, Repr

/-- Wakes a sleeping call; one that is awake looks at the slot anyway. -/
def Service.wake {χ : Type} : Service χ → Service χ
  | .parked call _ => .parked call true
  | service => service

/-- The engine. -/
structure Engine (χ : Type) where
  breakpoints : Breakpoints
  assembler : Assembler
  runState : RunState
  muted : Bool
  slot : Option PendingCommand
  step : Option PendingStep
  lastStop : Option StopEvent
  /-- Who is told of suspensions. -/
  listener : Option Nat
  /-- Who is told of changes of the run state. -/
  sink : Option Nat
  service : Service χ

/-- What an operation causes outside of the engine. -/
inductive Effect
  /-- The run state has changed; the sink, if there is one, is told. -/
  | entered (state : RunState) (sink : Option Nat)
  /-- A new sink is told the present run state. -/
  | attached (sink : Nat) (state : RunState)
  /-- The interpreter was suspended; the listener, if there is one, is told. -/
  | suspended (event : StopEvent) (listener : Option Nat)
  /-- A command was put into the slot. -/
  | accepted (pending : PendingCommand)
  /-- A command was taken out of the slot to be carried out. -/
  | served (pending : PendingCommand)
  /-- A result was delivered. -/
  | answered (ticket : Nat) (result : CommandResult)
  /-- A call by which the interpreter was not suspended returned. -/
  | passed
  /-- The call by which the interpreter was suspended returned. -/
  | resumed (outcome : Resume)

/-- The next state together with the effects, in order. -/
structure Outcome (χ : Type) where
  engine : Engine χ
  effects : List Effect

namespace Engine

variable {χ : Type}

/-- Nothing happens. -/
def idle (e : Engine χ) : Outcome χ := ⟨e, []⟩

/-! ### Edits of breakpoints -/

/-- What is said when a flag was set. -/
def setText (line : UInt32) (enabled : Bool) : String :=
  "after set breakpoint - line " ++ toString line.toNat ++ " changed to " ++ toString enabled

/-- Sets the flag of a line. -/
def setBreakpoint (e : Engine χ) (line : UInt32) (enabled : Bool) : Engine χ × CommandResult :=
  match e.breakpoints.set line enabled with
  | .ok table => ({ e with breakpoints := table }, .ok (.acknowledged (setText line enabled)))
  | .error refusal => (e, .error refusal)

/-- Sets the flags of several lines, one after another. -/
def setupBreakpoints (e : Engine χ) : List (UInt32 × Bool) → Engine χ × List CommandResult
  | [] => (e, [])
  | (line, enabled) :: rest =>
    let (e, result) := e.setBreakpoint line enabled
    let (e, results) := e.setupBreakpoints rest
    (e, result :: results)

/-- Mutes breakpoints or unmutes them. -/
def setMuted (e : Engine χ) (muted : Bool) : Engine χ × CommandResult :=
  ({ e with muted := muted },
    .ok (.acknowledged ("breakpoints muted toggled to " ++ toString muted)))

/-- Carries out an edit, which needs no interpreter. -/
def edit (e : Engine χ) : Command → Engine χ × CommandResult
  | .setBreakpoint line enabled => e.setBreakpoint line enabled
  | .toggleMute muted => e.setMuted muted
  | _ => (e, .error .notSuspended)

/-- The engine of a source unit, which runs.  Configured breakpoints on lines that
    take none are left out. -/
def ofSource (source : Source) (config : Config) : Engine χ :=
  (setupBreakpoints
    { breakpoints := .ofSource source
      assembler := config.assembler
      runState := .running
      muted := config.muteBreakpoints
      slot := none
      step := none
      lastStop := none
      listener := none
      sink := none
      service := .absent }
    config.breakpoints.entries).1

/-! ### Changes of the run state -/

/-- Enters a run state; the sink hears of actual changes only. -/
def enter (e : Engine χ) (next : RunState) : Outcome χ :=
  if e.runState = next then e.idle
  else ⟨{ e with runState := next }, [.entered next e.sink]⟩

/-- The answer to a command that is cancelled. -/
def cancellation : Option PendingCommand → List Effect
  | none => []
  | some pending => [.answered pending.ticket (.error .notRunning)]

/-- Ends the session: no step is pending any more, and a command that waits is
    cancelled. -/
def shutDown (e : Engine χ) : Outcome χ :=
  let o := e.enter .stopped
  ⟨{ o.engine with step := none, slot := none }, o.effects ++ cancellation e.slot⟩

/-- Ends the session from outside and wakes the interpreter. -/
def stop (e : Engine χ) : Outcome χ :=
  let o := e.shutDown
  ⟨{ o.engine with service := o.engine.service.wake }, o.effects⟩

/-- What is said when the session was ended. -/
def stopped : CommandResult := .ok (.acknowledged "stopped")

/-- The script has ended. -/
def finish (e : Engine χ) : Outcome χ := e.stop

/-- Tells a new sink the present run state and all later changes. -/
def setSink (e : Engine χ) (sink : Nat) : Outcome χ :=
  ⟨{ e with sink := some sink }, [.attached sink e.runState]⟩

/-- Tells a new listener all later suspensions. -/
def setListener (e : Engine χ) (listener : Nat) : Outcome χ :=
  ⟨{ e with listener := some listener }, []⟩

/-! ### Commands of controllers -/

/-- Submits a command whose result goes to the future `ticket`.  Only a command
    for a suspended interpreter whose slot is free has to wait. -/
def submit (e : Engine χ) (ticket : Nat) (command : Command) : Outcome χ :=
  match command with
  | .stop =>
    let o := e.stop
    ⟨o.engine, o.effects ++ [.answered ticket stopped]⟩
  | command =>
    match e.runState with
    | .stopped => ⟨e, [.answered ticket (.error .notRunning)]⟩
    | .running =>
      if command.requiresSuspension then ⟨e, [.answered ticket (.error .notSuspended)]⟩
      else
        let (e, result) := e.edit command
        ⟨e, [.answered ticket result]⟩
    | .suspended =>
      match e.slot with
      | some _ => ⟨e, [.answered ticket (.error .commandContention)]⟩
      | none =>
        ⟨{ e with slot := some ⟨command, ticket⟩, service := e.service.wake },
          [.accepted ⟨command, ticket⟩]⟩

/-! ### The interpreter -/

/-- Why a call should suspend the interpreter.  The end of a step comes before a
    breakpoint on the same line. -/
def reason? (e : Engine χ) (call : LineCall χ) : Option StopReason :=
  if e.step.any fun s => s.isReached call.callDepth then some .step
  else if e.breakpoints.isEnabled call.line && !e.muted then some .breakpoint
  else none

/-- The notice of a suspension by a call. -/
def event (e : Engine χ) (reason : StopReason) (call : LineCall χ) : StopEvent :=
  ⟨reason, e.breakpoints.source.name, call.line, call.callDepth⟩

/-- Suspends the interpreter.  A pending step ends here, reached or not. -/
def suspend (e : Engine χ) (reason : StopReason) (call : LineCall χ) : Outcome χ :=
  let o := { e with step := none }.enter .suspended
  let event := e.event reason call
  ⟨{ o.engine with lastStop := some event, service := .awake call },
    o.effects ++ [.suspended event e.listener]⟩

/-- The interpreter arrives at a line. -/
def onLine (e : Engine χ) (call : LineCall χ) : Outcome χ :=
  if e.runState = .running then
    match e.reason? call with
    | some reason => e.suspend reason call
    | none => ⟨e, [.passed]⟩
  else ⟨e, [.passed]⟩

/-- What is said when a step begins. -/
def stepText : StepKind → String
  | .into => "step into"
  | .over => "step over"
  | .out => "step out"

/-- Lets the interpreter go on. -/
def release (e : Engine χ) (ticket : Nat) (text : String) (outcome : Resume) : Outcome χ :=
  let o := e.enter .running
  ⟨{ o.engine with service := .absent },
    o.effects ++ [.answered ticket (.ok (.acknowledged text)), .resumed outcome]⟩

/-- Begins a step at the call depth of the suspended call. -/
def beginStep (e : Engine χ) (call : LineCall χ) (ticket : Nat) (kind : StepKind) : Outcome χ :=
  { e with step := some ⟨kind, call.callDepth⟩ }.release ticket (stepText kind) (.step kind)

/-- Carries out a command that was taken out of the slot. -/
def execute (e : Engine χ) (call : LineCall χ) (pending : PendingCommand) : Outcome χ :=
  match pending.command with
  | .resume => e.release pending.ticket "continue run" .go
  | .stepInto => e.beginStep call pending.ticket .into
  | .stepOver => e.beginStep call pending.ticket .over
  | .stepOut => e.beginStep call pending.ticket .out
  | .exit =>
    let o := e.shutDown
    ⟨{ o.engine with service := .absent },
      o.effects ++ [.answered pending.ticket (.ok (.acknowledged "exit")), .resumed .exit]⟩
  | .getVariables => ⟨{ e with service := .assembling call pending.ticket }, []⟩
  | .stop =>
    let o := e.stop
    ⟨o.engine, o.effects ++ [.answered pending.ticket stopped]⟩
  | command =>
    let (e, result) := e.edit command
    ⟨e, [.answered pending.ticket result]⟩

/-- The suspended call looks at the engine: it returns when the session is over,
    carries out a command that waits, and falls asleep otherwise. -/
def look (e : Engine χ) (call : LineCall χ) : Outcome χ :=
  if e.runState = .suspended then
    match e.slot with
    | none => ⟨{ e with service := .parked call false }, []⟩
    | some pending =>
      let o := { e with slot := none, service := .awake call }.execute call pending
      ⟨o.engine, .served pending :: o.effects⟩
  else ⟨{ e with service := .absent }, [.resumed .go]⟩

/-- One step of the suspended call, if it is awake or was woken. -/
def serve (e : Engine χ) : Outcome χ :=
  match e.service with
  | .awake call | .parked call true => e.look call
  | _ => e.idle

/-- The snapshot that is being taken is complete: it shows the call stack of the
    suspended call as the interpreter lets it be read. -/
def finishAssembly (e : Engine χ) (view : View χ) : Outcome χ :=
  match e.service with
  | .assembling call ticket =>
    let snapshot := e.assembler.assemble view.heap (view.stack call.context)
    ⟨{ e with service := .awake call }, [.answered ticket (.ok (.snapshot snapshot))]⟩
  | _ => e.idle

end Engine

end ScriptDebugger
