/-
  ScriptDebugger/Proofs/Engine/Transition.lean
  ============================================
  **What an action can do to an engine.**

  `Engine.act` is a tree of tests on the run state, the slot and the service.  In
  the states that an engine comes to most of its branches are dead: a command is
  released only while the interpreter is suspended, a suspension begins only while
  the script runs, and the end of the session never waits in the slot.  `Coherent`
  is the invariant that kills these branches, and `Transition` lists the cases that
  remain, each with its guard, its next state and its effects:

    * `act_transition` — in a coherent state every action is one of the cases;
    * `Transition.act_eq` — and every case is what the action does;
    * `Transition.coherent` — every case leads to a coherent state.
-/
import ScriptDebugger.Proofs.Engine.Operation

namespace ScriptDebugger

/-- Whether a command lets the interpreter go on. -/
def Command.letsRun : Command → Bool
  | .resume | .stepInto | .stepOver | .stepOut => true
  | _ => false

theorem Command.requiresSuspension_of_letsRun {c : Command} (hc : c.letsRun = true) :
    c.requiresSuspension = true := by
  cases c with
  | resume | stepInto | stepOver | stepOut => rfl
  | _ => cases hc

namespace Engine

variable {χ : Type}

/-! ### Coherent states -/

/-- How the slot, the pending step, the run state and the suspended call belong
    together. -/
structure Coherent (e : Engine χ) : Prop where
  suspended_of_slot : ∀ p, e.slot = some p → e.runState = .suspended
  ne_stop_of_slot : ∀ p, e.slot = some p → p.command ≠ .stop
  running_of_step : ∀ s, e.step = some s → e.runState = .running
  call_of_suspended : e.runState = .suspended → ∃ call, e.service.call? = some call
  no_call_of_running : e.runState = .running → e.service.call? = none

namespace Coherent

variable {e : Engine χ}

theorem slot_none (h : e.Coherent) (hrun : e.runState ≠ .suspended) : e.slot = none := by
  rcases hs : e.slot with _ | p
  · rfl
  · exact absurd (h.suspended_of_slot p hs) hrun

theorem step_none (h : e.Coherent) (hrun : e.runState ≠ .running) : e.step = none := by
  rcases hs : e.step with _ | s
  · rfl
  · exact absurd (h.running_of_step s hs) hrun

theorem slot_none_of_running (h : e.Coherent) (running : e.runState = .running) : e.slot = none := by
  apply h.slot_none
  rw [running]
  decide

theorem step_none_of_suspended (h : e.Coherent) (suspended : e.runState = .suspended) :
    e.step = none := by
  apply h.step_none
  rw [suspended]
  decide

theorem none_of_stopped (h : e.Coherent) (ended : e.runState = .stopped) :
    e.slot = none ∧ e.step = none := by
  constructor
  · apply h.slot_none
    rw [ended]
    decide
  · apply h.step_none
    rw [ended]
    decide

theorem not_running_of_call (h : e.Coherent) {call : LineCall χ}
    (hcall : e.service.call? = some call) : e.runState ≠ .running := by
  intro hrun
  rw [h.no_call_of_running hrun] at hcall
  cases hcall

theorem absent_of_running (h : e.Coherent) (hrun : e.runState = .running) :
    e.service = .absent := by
  have hcall := h.no_call_of_running hrun
  cases hs : e.service with
  | absent => rfl
  | _ => rw [hs] at hcall; cases hcall

end Coherent

/-! ### The cases -/

/-- What a command gets that does not reach the interpreter, if it is refused. -/
def refusal? (e : Engine χ) (c : Command) : Option DebuggerError :=
  match e.runState with
  | .stopped => some .notRunning
  | .running => if c.requiresSuspension then some .notSuspended else none
  | .suspended => if e.slot.isSome then some .commandContention else none

/-- How the interpreter goes on after a command that lets it: the step that is
    pending then, what the controller is told, and what the call returns. -/
def resumption? (call : LineCall χ) : Command → Option (Option PendingStep × String × Resume)
  | .resume => some (none, "continue run", .go)
  | .stepInto => some (some ⟨.into, call.callDepth⟩, stepText .into, .step .into)
  | .stepOver => some (some ⟨.over, call.callDepth⟩, stepText .over, .step .over)
  | .stepOut => some (some ⟨.out, call.callDepth⟩, stepText .out, .step .out)
  | _ => none

/-- These are the commands that let the interpreter go on. -/
theorem letsRun_iff (call : LineCall χ) (c : Command) :
    c.letsRun = true ↔ ∃ step text outcome, resumption? call c = some (step, text, outcome) := by
  cases c with
  | resume | stepInto | stepOver | stepOut => exact ⟨fun _ => ⟨_, _, _, rfl⟩, fun _ => rfl⟩
  | _ => simp [Command.letsRun, resumption?]

theorem letsRun_of_resumption {call : LineCall χ} {c : Command} {step : Option PendingStep}
    {text : String} {outcome : Resume} (h : resumption? call c = some (step, text, outcome)) :
    c.letsRun = true :=
  (letsRun_iff call c).mpr ⟨step, text, outcome, h⟩

/-- What an action on an engine comes to. -/
inductive Transition (e : Engine χ) : Action χ → Outcome χ → Prop
  /-- No call may look at the slot. -/
  | sleep (no_call : e.service.ready? = none) : Transition e .serve ⟨e, []⟩
  /-- No snapshot is being taken. -/
  | noAssembly {view} (no_call : ∀ call ticket, e.service ≠ .assembling call ticket) :
      Transition e (.finishAssembly view) ⟨e, []⟩
  | set (line : UInt32) (enabled : Bool) :
      Transition e (.setBreakpoint line enabled)
        ⟨{ e with breakpoints := e.breakpoints.attempt line enabled }, []⟩
  | setSink (sink : Nat) :
      Transition e (.setSink sink) ⟨{ e with sink := some sink }, [.attached sink e.runState]⟩
  | setListener (listener : Nat) :
      Transition e (.setListener listener) ⟨{ e with listener := some listener }, []⟩
  /-- The session ends. -/
  | shutDown {a} (ends : a.endsSession) (open_session : e.runState ≠ .stopped) :
      Transition e a
        ⟨{ e with runState := .stopped, step := none, slot := none, service := e.service.wake },
          .entered .stopped e.sink :: (cancellation e.slot ++ a.acknowledgement)⟩
  /-- The session has ended before. -/
  | stopAgain {a} (ends : a.endsSession) (ended : e.runState = .stopped) :
      Transition e a ⟨{ e with service := e.service.wake }, a.acknowledgement⟩
  | refuse {ticket c error} (no_stop : c ≠ .stop) (refused : e.refusal? c = some error) :
      Transition e (.submit ticket c) ⟨e, [.answered ticket (.error error)]⟩
  /-- An edit is made at once while the script runs. -/
  | edit {ticket c} (no_stop : c ≠ .stop) (running : e.runState = .running)
      (edits : c.requiresSuspension = false) :
      Transition e (.submit ticket c)
        ⟨{ e with breakpoints := e.breakpoints.edited c, muted := c.mutes e.muted },
          [.answered ticket (c.editResult e.breakpoints.source)]⟩
  | accept {ticket c} (no_stop : c ≠ .stop) (suspended : e.runState = .suspended)
      (free : e.slot = none) :
      Transition e (.submit ticket c)
        ⟨{ e with slot := some ⟨c, ticket⟩, service := e.service.wake }, [.accepted ⟨c, ticket⟩]⟩
  | pass {call} (no_reason : e.runState = .running → e.reason? call = none) :
      Transition e (.onLine call) ⟨e, [.passed]⟩
  | suspend {call reason} (running : e.runState = .running)
      (because : e.reason? call = some reason) :
      Transition e (.onLine call)
        ⟨{ e with
            runState := .suspended
            step := none
            lastStop := some (e.event reason call)
            service := .awake call },
          [.entered .suspended e.sink, .suspended (e.event reason call) e.listener]⟩
  /-- The slot is empty. -/
  | park {call} (ready : e.service.ready? = some call) (suspended : e.runState = .suspended)
      (free : e.slot = none) :
      Transition e .serve ⟨{ e with service := .parked call false }, []⟩
  /-- The session has ended meanwhile. -/
  | leave {call} (ready : e.service.ready? = some call) (ended : e.runState = .stopped) :
      Transition e .serve ⟨{ e with service := .absent }, [.resumed .go]⟩
  | resume {call pending step text outcome} (ready : e.service.ready? = some call)
      (suspended : e.runState = .suspended) (waiting : e.slot = some pending)
      (resumes : resumption? call pending.command = some (step, text, outcome)) :
      Transition e .serve
        ⟨{ e with runState := .running, slot := none, step := step, service := .absent },
          [.served pending, .entered .running e.sink,
            .answered pending.ticket (.ok (.acknowledged text)), .resumed outcome]⟩
  | exit {call pending} (ready : e.service.ready? = some call)
      (suspended : e.runState = .suspended) (waiting : e.slot = some pending)
      (exits : pending.command = .exit) :
      Transition e .serve
        ⟨{ e with runState := .stopped, slot := none, step := none, service := .absent },
          [.served pending, .entered .stopped e.sink,
            .answered pending.ticket (.ok (.acknowledged "exit")), .resumed .exit]⟩
  | assemble {call pending} (ready : e.service.ready? = some call)
      (suspended : e.runState = .suspended) (waiting : e.slot = some pending)
      (reads : pending.command = .getVariables) :
      Transition e .serve
        ⟨{ e with slot := none, service := .assembling call pending.ticket }, [.served pending]⟩
  /-- An edit is made by the suspended call. -/
  | serveEdit {call pending} (ready : e.service.ready? = some call)
      (suspended : e.runState = .suspended) (waiting : e.slot = some pending)
      (edits : pending.command.requiresSuspension = false) :
      Transition e .serve
        ⟨{ e with
            slot := none
            breakpoints := e.breakpoints.edited pending.command
            muted := pending.command.mutes e.muted
            service := .awake call },
          [.served pending,
            .answered pending.ticket (pending.command.editResult e.breakpoints.source)]⟩
  | finishAssembly {call ticket view} (assembling : e.service = .assembling call ticket) :
      Transition e (.finishAssembly view)
        ⟨{ e with service := .awake call },
          [.answered ticket
            (.ok (.snapshot (e.assembler.assemble view.heap (view.stack call.context))))]⟩

/-! ### Every action is one of the cases -/

theorem stop_of_stopped {e : Engine χ} (h : e.Coherent) (ended : e.runState = .stopped) :
    e.stop = ⟨{ e with service := e.service.wake }, []⟩ := by
  obtain ⟨hslot, hstep⟩ := h.none_of_stopped ended
  simp only [stop, shutDown, enter, ended, if_true, idle, hslot, cancellation, List.append_nil]
  rw [← hslot, ← hstep]

theorem shutDown_of_open {e : Engine χ} (hopen : e.runState ≠ .stopped) :
    e.shutDown =
      ⟨{ e with runState := .stopped, step := none, slot := none },
        .entered .stopped e.sink :: cancellation e.slot⟩ := by
  simp only [shutDown, enter, if_neg hopen, List.cons_append, List.nil_append]

theorem stop_transition {e : Engine χ} (h : e.Coherent) {a : Action χ} (ends : a.endsSession) :
    Transition e a ⟨e.stop.engine, e.stop.effects ++ a.acknowledgement⟩ := by
  by_cases ended : e.runState = .stopped
  · rw [stop_of_stopped h ended]
    exact .stopAgain ends ended
  · simp only [stop, shutDown_of_open ended, List.cons_append]
    exact .shutDown ends ended

/-- A command other than the end of the session takes one of four ways. -/
theorem submit_eq (e : Engine χ) (ticket : Nat) {c : Command} (no_stop : c ≠ .stop) :
    e.submit ticket c =
      match e.runState with
      | .stopped => ⟨e, [.answered ticket (.error .notRunning)]⟩
      | .running =>
        if c.requiresSuspension then ⟨e, [.answered ticket (.error .notSuspended)]⟩
        else ⟨(e.edit c).1, [.answered ticket (e.edit c).2]⟩
      | .suspended =>
        match e.slot with
        | some _ => ⟨e, [.answered ticket (.error .commandContention)]⟩
        | none =>
          ⟨{ e with slot := some ⟨c, ticket⟩, service := e.service.wake },
            [.accepted ⟨c, ticket⟩]⟩ := by
  cases c with
  | stop => exact absurd rfl no_stop
  | _ => rfl

theorem submit_of_refusal {e : Engine χ} {c : Command} {error : DebuggerError}
    (no_stop : c ≠ .stop) (refused : e.refusal? c = some error) (ticket : Nat) :
    e.submit ticket c = ⟨e, [.answered ticket (.error error)]⟩ := by
  rw [submit_eq e ticket no_stop]
  unfold refusal? at refused
  cases hrun : e.runState with
  | stopped =>
    simp only [hrun] at refused
    cases refused
    rfl
  | running =>
    simp only [hrun] at refused
    split at refused
    · rename_i hneeds
      cases refused
      exact if_pos hneeds
    · cases refused
  | suspended =>
    simp only [hrun] at refused
    cases hslot : e.slot with
    | none =>
      rw [hslot] at refused
      cases refused
    | some p =>
      rw [hslot] at refused
      cases refused
      rfl

theorem submit_of_edit {e : Engine χ} {c : Command} (no_stop : c ≠ .stop)
    (running : e.runState = .running) (edits : c.requiresSuspension = false) (ticket : Nat) :
    e.submit ticket c =
      ⟨{ e with breakpoints := e.breakpoints.edited c, muted := c.mutes e.muted },
        [.answered ticket (c.editResult e.breakpoints.source)]⟩ := by
  simp only [submit_eq e ticket no_stop, running, edits, edit_engine, edit_result]
  exact if_neg Bool.false_ne_true

theorem submit_of_free {e : Engine χ} {c : Command} (no_stop : c ≠ .stop)
    (suspended : e.runState = .suspended) (free : e.slot = none) (ticket : Nat) :
    e.submit ticket c =
      ⟨{ e with slot := some ⟨c, ticket⟩, service := e.service.wake }, [.accepted ⟨c, ticket⟩]⟩ := by
  simp only [submit_eq e ticket no_stop, suspended, free]

theorem submit_transition {e : Engine χ} (h : e.Coherent) (ticket : Nat) (c : Command) :
    Transition e (.submit ticket c) (e.submit ticket c) := by
  by_cases hstop : c = .stop
  · subst hstop
    exact stop_transition h rfl
  cases hrefused : e.refusal? c with
  | some error =>
    rw [submit_of_refusal hstop hrefused]
    exact .refuse hstop hrefused
  | none =>
    unfold refusal? at hrefused
    cases hrun : e.runState with
    | stopped => simp [hrun] at hrefused
    | running =>
      have hedits : c.requiresSuspension = false := by simpa [hrun] using hrefused
      rw [submit_of_edit hstop hrun hedits]
      exact .edit hstop hrun hedits
    | suspended =>
      have hfree : e.slot = none := by simpa [hrun] using hrefused
      rw [submit_of_free hstop hrun hfree]
      exact .accept hstop hrun hfree

/-- A call that comes while the script does not run returns at once. -/
theorem onLine_of_not_running {e : Engine χ} (hrun : e.runState ≠ .running) (call : LineCall χ) :
    e.onLine call = ⟨e, [.passed]⟩ := by
  simp only [onLine, if_neg hrun]

theorem onLine_of_none {e : Engine χ} (hrun : e.runState = .running) {call : LineCall χ}
    (because : e.reason? call = none) : e.onLine call = ⟨e, [.passed]⟩ := by
  simp only [onLine, hrun, if_true, because]

theorem onLine_of_some {e : Engine χ} (hrun : e.runState = .running) {call : LineCall χ}
    {reason : StopReason} (because : e.reason? call = some reason) :
    e.onLine call =
      ⟨{ e with
          runState := .suspended
          step := none
          lastStop := some (e.event reason call)
          service := .awake call },
        [.entered .suspended e.sink, .suspended (e.event reason call) e.listener]⟩ := by
  simp only [onLine, hrun, if_true, because]
  simp [suspend, enter, hrun, event]

theorem onLine_transition (e : Engine χ) (call : LineCall χ) :
    Transition e (.onLine call) (e.onLine call) := by
  by_cases hrun : e.runState = .running
  · cases because : e.reason? call with
    | some reason =>
      rw [onLine_of_some hrun because]
      exact .suspend hrun because
    | none =>
      rw [onLine_of_none hrun because]
      exact .pass fun _ => because
  · rw [onLine_of_not_running hrun]
    exact .pass fun hrunning => absurd hrunning hrun

theorem release_of_suspended {e : Engine χ} (hrun : e.runState = .suspended) (ticket : Nat)
    (text : String) (outcome : Resume) :
    e.release ticket text outcome =
      ⟨{ e with runState := .running, service := .absent },
        [.entered .running e.sink, .answered ticket (.ok (.acknowledged text)),
          .resumed outcome]⟩ := by
  simp [release, enter, hrun]

theorem execute_of_resumption {e : Engine χ} (hrun : e.runState = .suspended)
    (hstep : e.step = none) (call : LineCall χ) (pending : PendingCommand)
    {step : Option PendingStep} {text : String} {outcome : Resume}
    (hresumes : resumption? call pending.command = some (step, text, outcome)) :
    e.execute call pending =
      ⟨{ e with runState := .running, step := step, service := .absent },
        [.entered .running e.sink, .answered pending.ticket (.ok (.acknowledged text)),
          .resumed outcome]⟩ := by
  cases hc : pending.command with
  | resume =>
    rw [hc] at hresumes
    cases hresumes
    rw [← hstep]
    simp only [execute, hc]
    exact release_of_suspended hrun _ _ _
  | stepInto | stepOver | stepOut =>
    rw [hc] at hresumes
    cases hresumes
    simp only [execute, hc, beginStep]
    exact release_of_suspended (e := { e with step := some ⟨_, call.callDepth⟩ }) hrun _ _ _
  | _ => rw [hc] at hresumes; cases hresumes

theorem execute_of_edit (e : Engine χ) (call : LineCall χ) {pending : PendingCommand}
    (hedits : pending.command.requiresSuspension = false) (hstop : pending.command ≠ .stop) :
    e.execute call pending =
      ⟨(e.edit pending.command).1, [.answered pending.ticket (e.edit pending.command).2]⟩ := by
  cases hc : pending.command with
  | setBreakpoint line enabled | toggleMute muted => simp only [execute, hc]
  | stop => exact absurd hc hstop
  | _ => rw [hc] at hedits; cases hedits

/-- A command that waits while the interpreter is suspended is carried out. -/
theorem execute_transition {e : Engine χ} (h : e.Coherent) {call : LineCall χ}
    {pending : PendingCommand} (ready : e.service.ready? = some call)
    (hrun : e.runState = .suspended) (hslot : e.slot = some pending) :
    let o := { e with slot := none, service := .awake call }.execute call pending
    Transition e .serve ⟨o.engine, .served pending :: o.effects⟩ := by
  have hstep : e.step = none := h.step_none_of_suspended hrun
  have hopen : e.runState ≠ .stopped := by rw [hrun]; decide
  intro o
  cases hc : pending.command with
  | resume | stepInto | stepOver | stepOut =>
    have ho := execute_of_resumption (e := { e with slot := none, service := .awake call })
      hrun hstep call pending (by rw [hc]; rfl)
    simp only [o, ho]
    exact .resume ready hrun hslot (by rw [hc]; rfl)
  | exit =>
    have ho := shutDown_of_open (e := { e with slot := none, service := .awake call }) hopen
    simp only [o, execute, hc, ho]
    exact .exit ready hrun hslot hc
  | getVariables =>
    simp only [o, execute, hc]
    exact .assemble ready hrun hslot hc
  | setBreakpoint line enabled | toggleMute muted =>
    have hedits : pending.command.requiresSuspension = false := by rw [hc]; rfl
    have hstop : pending.command ≠ .stop := by rw [hc]; exact Command.noConfusion
    simp only [o, execute_of_edit _ call hedits hstop, edit_engine, edit_result]
    exact .serveEdit ready hrun hslot hedits
  | stop => exact absurd hc (h.ne_stop_of_slot pending hslot)

/-- The suspended call returns when the session has ended, carries out a command
    that waits, and falls asleep otherwise. -/
theorem look_transition {e : Engine χ} (h : e.Coherent) {call : LineCall χ}
    (ready : e.service.ready? = some call) : Transition e .serve (e.look call) := by
  unfold look
  split
  · rename_i hrun
    split
    · rename_i hslot
      exact .park ready hrun hslot
    · rename_i pending hslot
      exact execute_transition h ready hrun hslot
  · rename_i hrun
    refine .leave ready ?_
    have hrunning := h.not_running_of_call (Service.call?_of_ready? ready)
    cases hcase : e.runState with
    | running => exact absurd hcase hrunning
    | suspended => exact absurd hcase hrun
    | stopped => rfl

theorem serve_of_ready {e : Engine χ} {call : LineCall χ} (ready : e.service.ready? = some call) :
    e.serve = e.look call := by
  unfold serve
  cases hs : e.service with
  | awake c => rw [hs] at ready; cases ready; rfl
  | parked c notified =>
    rw [hs] at ready
    cases notified with
    | false => cases ready
    | true => cases ready; rfl
  | _ => rw [hs] at ready; cases ready

theorem serve_of_not_ready {e : Engine χ} (no_call : e.service.ready? = none) : e.serve = e.idle := by
  unfold serve
  split
  · rename_i hs
    rw [hs] at no_call
    cases no_call
  · rename_i hs
    rw [hs] at no_call
    cases no_call
  · rfl

theorem serve_transition {e : Engine χ} (h : e.Coherent) : Transition e .serve e.serve := by
  cases hready : e.service.ready? with
  | none =>
    rw [serve_of_not_ready hready]
    exact .sleep hready
  | some call =>
    rw [serve_of_ready hready]
    exact look_transition h hready

theorem finishAssembly_transition (e : Engine χ) (view : View χ) :
    Transition e (.finishAssembly view) (e.finishAssembly view) := by
  unfold finishAssembly
  split
  · rename_i call ticket hservice
    exact .finishAssembly hservice
  · rename_i hservice
    exact .noAssembly hservice

/-- **In a coherent state every action is one of the cases.** -/
theorem act_transition {e : Engine χ} (h : e.Coherent) (a : Action χ) :
    Transition e a (e.act a) := by
  cases a with
  | submit ticket c => exact submit_transition h ticket c
  | stop =>
    have hstop := stop_transition h (a := .stop) rfl
    rw [show (Action.stop : Action χ).acknowledgement = [] from rfl, List.append_nil] at hstop
    exact hstop
  | finish =>
    have hfinish := stop_transition h (a := .finish) rfl
    rw [show (Action.finish : Action χ).acknowledgement = [] from rfl, List.append_nil] at hfinish
    exact hfinish
  | setBreakpoint line enabled =>
    have hset := Transition.set (e := e) line enabled
    rw [← setBreakpoint_engine] at hset
    exact hset
  | onLine call => exact onLine_transition e call
  | serve => exact serve_transition h
  | finishAssembly view => exact finishAssembly_transition e view
  | setSink sink => exact .setSink sink
  | setListener listener => exact .setListener listener

/-! ### Every case is what an action does -/

theorem act_of_ends {e : Engine χ} {a : Action χ} (ends : a.endsSession) :
    e.act a = ⟨e.stop.engine, e.stop.effects ++ a.acknowledgement⟩ := by
  cases a with
  | submit ticket c =>
    cases (Action.endsSession_submit ticket c).mp ends
    rfl
  | stop | finish => simp [act, finish, Action.acknowledgement]
  | _ => cases ends

/-- What waits is carried out by the next look. -/
theorem serve_of_waiting {e : Engine χ} {call : LineCall χ} {pending : PendingCommand}
    (ready : e.service.ready? = some call) (suspended : e.runState = .suspended)
    (waiting : e.slot = some pending) :
    e.serve =
      ⟨({ e with slot := none, service := .awake call }.execute call pending).engine,
        .served pending ::
          ({ e with slot := none, service := .awake call }.execute call pending).effects⟩ := by
  simp only [serve_of_ready ready, look, suspended, if_true, waiting]

/-- **The cases are what the actions do.** -/
theorem Transition.act_eq {e : Engine χ} {a : Action χ} {o : Outcome χ} (h : e.Coherent)
    (t : Transition e a o) : e.act a = o := by
  cases t with
  | sleep no_call => exact serve_of_not_ready no_call
  | noAssembly no_call =>
    simp only [act, Engine.finishAssembly]
    rfl
  | set line enabled => simp only [act, idle, setBreakpoint_engine]
  | setSink sink => rfl
  | setListener listener => rfl
  | shutDown ends open_session =>
    rw [act_of_ends ends]
    simp only [stop, shutDown_of_open open_session, List.cons_append]
  | stopAgain ends ended =>
    rw [act_of_ends ends, stop_of_stopped h ended]
    rfl
  | refuse no_stop refused => exact submit_of_refusal no_stop refused _
  | edit no_stop running edits => exact submit_of_edit no_stop running edits _
  | accept no_stop suspended free => exact submit_of_free no_stop suspended free _
  | @pass call no_reason =>
    by_cases hrun : e.runState = .running
    · exact onLine_of_none hrun (no_reason hrun)
    · exact onLine_of_not_running hrun call
  | suspend running because => exact onLine_of_some running because
  | park ready suspended free =>
    simp only [act, serve_of_ready ready, look, suspended, if_true, free]
  | leave ready ended =>
    simp [act, serve_of_ready ready, look, ended]
  | @resume call pending step text outcome ready suspended waiting resumes =>
    have hstep : e.step = none := h.step_none_of_suspended suspended
    have ho := execute_of_resumption (e := { e with slot := none, service := .awake call })
      suspended hstep call pending resumes
    simp only [act, serve_of_waiting ready suspended waiting, ho]
  | exit ready suspended waiting exits =>
    have hopen : e.runState ≠ .stopped := by rw [suspended]; decide
    rw [act, serve_of_waiting ready suspended waiting]
    simp only [execute, exits]
    rw [shutDown_of_open (e := { e with slot := none, service := _ }) hopen]
    rfl
  | assemble ready suspended waiting reads =>
    rw [act, serve_of_waiting ready suspended waiting]
    simp only [execute, reads]
  | serveEdit ready suspended waiting edits =>
    rw [act, serve_of_waiting ready suspended waiting,
      execute_of_edit _ _ edits (h.ne_stop_of_slot _ waiting), edit_engine, edit_result]
  | finishAssembly assembling => simp only [act, Engine.finishAssembly, assembling]

/-! ### What no case changes -/

theorem Transition.assembler {e : Engine χ} {a : Action χ} {o : Outcome χ}
    (t : Transition e a o) : o.engine.assembler = e.assembler := by
  cases t with
  | _ => rfl

/-! ### Every case leads to a coherent state -/

theorem Coherent.of_stopped {e : Engine χ} (ended : e.runState = .stopped)
    (hslot : e.slot = none) (hstep : e.step = none) : e.Coherent where
  suspended_of_slot p hp := by rw [hslot] at hp; cases hp
  ne_stop_of_slot p hp := by rw [hslot] at hp; cases hp
  running_of_step s hs := by rw [hstep] at hs; cases hs
  call_of_suspended hrun := by rw [ended] at hrun; cases hrun
  no_call_of_running hrun := by rw [ended] at hrun; cases hrun

theorem Coherent.of_suspended {e : Engine χ} (hrun : e.runState = .suspended)
    (hslot : ∀ p, e.slot = some p → p.command ≠ .stop) (hstep : e.step = none)
    (hcall : ∃ call, e.service.call? = some call) : e.Coherent where
  suspended_of_slot _ _ := hrun
  ne_stop_of_slot := hslot
  running_of_step s hs := by rw [hstep] at hs; cases hs
  call_of_suspended _ := hcall
  no_call_of_running hrunning := by rw [hrun] at hrunning; cases hrunning

theorem Coherent.of_running {e : Engine χ} (hrun : e.runState = .running)
    (hslot : e.slot = none) (hcall : e.service.call? = none) : e.Coherent where
  suspended_of_slot p hp := by rw [hslot] at hp; cases hp
  ne_stop_of_slot p hp := by rw [hslot] at hp; cases hp
  running_of_step _ _ := hrun
  call_of_suspended hsuspended := by rw [hrun] at hsuspended; cases hsuspended
  no_call_of_running _ := hcall

theorem Transition.coherent {e : Engine χ} {a : Action χ} {o : Outcome χ} (h : e.Coherent)
    (t : Transition e a o) : o.engine.Coherent := by
  have hno {p : PendingCommand} (hp : none = some p) : p.command ≠ .stop := by cases hp
  cases t with
  | sleep | noAssembly | refuse | pass => exact h
  | set | setSink | setListener | edit =>
    exact ⟨h.suspended_of_slot, h.ne_stop_of_slot, h.running_of_step, h.call_of_suspended,
      h.no_call_of_running⟩
  | shutDown => exact .of_stopped rfl rfl rfl
  | stopAgain _ ended =>
    exact .of_stopped ended (h.none_of_stopped ended).1 (h.none_of_stopped ended).2
  | @accept ticket c no_stop suspended _ =>
    obtain ⟨call, hcall⟩ := h.call_of_suspended suspended
    refine .of_suspended suspended ?_ (h.step_none_of_suspended suspended) ⟨call, by simpa using hcall⟩
    intro p hp
    cases hp
    exact no_stop
  | @suspend call reason running _ =>
    have hslot : e.slot = none := h.slot_none_of_running running
    exact .of_suspended rfl (fun p hp => hno (hslot ▸ hp)) rfl ⟨call, rfl⟩
  | @park call _ suspended _ =>
    exact .of_suspended suspended h.ne_stop_of_slot (h.step_none_of_suspended suspended) ⟨call, rfl⟩
  | leave _ ended =>
    exact .of_stopped ended (h.none_of_stopped ended).1 (h.none_of_stopped ended).2
  | resume => exact .of_running rfl rfl rfl
  | exit => exact .of_stopped rfl rfl rfl
  | @assemble call pending _ suspended _ _ =>
    exact .of_suspended suspended (fun p hp => hno hp) (h.step_none_of_suspended suspended) ⟨call, rfl⟩
  | @serveEdit call pending _ suspended _ _ =>
    exact .of_suspended suspended (fun p hp => hno hp) (h.step_none_of_suspended suspended) ⟨call, rfl⟩
  | @finishAssembly call ticket _ assembling =>
    -- the session may have ended while the snapshot was taken
    refine ⟨h.suspended_of_slot, h.ne_stop_of_slot, h.running_of_step, fun _ => ⟨call, rfl⟩, ?_⟩
    intro hrun
    have hcall := h.no_call_of_running hrun
    rw [assembling] at hcall
    cases hcall

end Engine

end ScriptDebugger
