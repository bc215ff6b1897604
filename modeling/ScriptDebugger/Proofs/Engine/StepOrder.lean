/-
  ScriptDebugger/Proofs/Engine/StepOrder.lean
  ===========================================
  **Which command lets the script run further.**

  From one suspension the interpreter can go on in four ways: by a step into, over or
  out of the call, or without a step.  Whatever calls follow, the script stops first
  after the step into, then after the step over, then after the step out, and last
  without a step: whatever ends a step ends every step that comes before it in this
  order (`PendingStep.EndsAt.over`), and a breakpoint stops all four alike.

  `Resumed` says that the engine goes on after a command, on any way from the
  suspension to there; all these ways lead to the same flags (`Resumed.goesOn`), since
  at most the edit that waited already is made before (`tableAhead`, `mutedAhead`).
  `firstStop` counts the calls up to the next stop.
-/
import Mathlib.Data.ENat.Basic
import ScriptDebugger.Proofs.Engine.Stepping
import ScriptDebugger.Proofs.Engine.WakeUp

namespace ScriptDebugger

/-! ### Steps from one call -/

namespace PendingStep

variable {origin callDepth : UInt32}

theorem EndsAt.over (h : (⟨.out, origin⟩ : PendingStep).EndsAt callDepth) :
    (⟨.over, origin⟩ : PendingStep).EndsAt callDepth :=
  UInt32.le_of_lt h

theorem endsAt_into : (⟨.into, origin⟩ : PendingStep).EndsAt callDepth := trivial

end PendingStep

/-- The step that a command begins in a call of the given depth. -/
def Command.stepFrom? (c : Command) (origin : UInt32) : Option PendingStep :=
  c.stepKind?.map fun kind => ⟨kind, origin⟩

/-- Whether a command ends the suspension in which it is carried out. -/
def Command.endsSuspension (c : Command) : Bool := c.letsRun || c == .exit

/-- Whether an action neither edits flags, nor ends the session, nor is a call: it is
    a step of the suspended call, or a command that has to wait for it. -/
def Action.waits {χ : Type} : Action χ → Bool
  | .submit _ c => c.requiresSuspension
  | .serve | .finishAssembly _ | .setSink _ | .setListener _ => true
  | _ => false

namespace Engine

variable {χ : Type}

/-- How many calls return before the first one that suspends the interpreter; it is
    infinite if all of them return. -/
def firstStop (e : Engine χ) : List (LineCall χ) → ℕ∞
  | [] => ⊤
  | call :: calls =>
    let o := e.act (.onLine call)
    if o.effects.any Effect.isSuspension then 0 else firstStop o.engine calls + 1

/-- The engine goes on as `e'` when the call that is suspended has carried out the
    command `c`; until then it was only waited for. -/
def Resumed (e : Engine χ) (c : Command) (e' : Engine χ) : Prop :=
  ∃ actions ticket, (∀ a ∈ actions, a.waits = true) ∧
    let o := (e.run actions).engine.act .serve
    .served ⟨c, ticket⟩ ∈ o.effects ∧ o.engine = e' ∧ e'.runState = .running

/-! ### Up to the next stop -/

section Stops

variable {e e' : Engine χ} {calls : List (LineCall χ)}

theorem firstStop_of_stops (running : e.runState = .running) {call : LineCall χ}
    (hstops : Stops e.step e call) : e.firstStop (call :: calls) = 0 := by
  obtain ⟨reason, _, honLine⟩ := onLine_of_stops running hstops
  simp [firstStop, act, honLine, Effect.isSuspension]

theorem firstStop_of_not_stops (running : e.runState = .running) {call : LineCall χ}
    (hstops : ¬ Stops e.step e call) : e.firstStop (call :: calls) = e.firstStop calls + 1 := by
  simp [firstStop, act, onLine_of_not_stops running hstops, Effect.isSuspension]

/-- No call before the first stop has a cause to stop. -/
theorem not_stops_of_lt_firstStop (running : e.runState = .running) {i : Nat}
    (hi : i < e.firstStop calls) {call : LineCall χ} (hcall : calls[i]? = some call) :
    ¬ Stops e.step e call := by
  induction calls generalizing i with
  | nil => cases hcall
  | cons next calls ih =>
    by_cases hnext : Stops e.step e next
    · rw [firstStop_of_stops running hnext] at hi
      exact absurd hi not_lt_zero
    · rw [firstStop_of_not_stops running hnext] at hi
      cases i with
      | zero =>
        cases hcall
        exact hnext
      | succ i =>
        rw [Nat.cast_succ] at hi
        exact ih (lt_of_add_lt_add_right hi) hcall

/-- The engine that has more causes to stop stops first. -/
theorem firstStop_le (running : e.runState = .running) (running' : e'.runState = .running)
    (hstops : ∀ call, Stops e'.step e' call → Stops e.step e call) (calls : List (LineCall χ)) :
    e.firstStop calls ≤ e'.firstStop calls := by
  induction calls with
  | nil => exact le_rfl
  | cons call calls ih =>
    by_cases hcall : Stops e.step e call
    · rw [firstStop_of_stops running hcall]
      exact zero_le
    · rw [firstStop_of_not_stops running hcall,
        firstStop_of_not_stops running' fun hcall' => hcall (hstops call hcall')]
      exact add_le_add_left ih 1

end Stops

/-! ### The flags that the script will run with -/

/-- The table after the command that waits. -/
def tableAhead (e : Engine χ) : Breakpoints :=
  (e.slot.map PendingCommand.command).elim e.breakpoints e.breakpoints.edited

/-- Whether breakpoints are muted after the command that waits. -/
def mutedAhead (e : Engine χ) : Bool :=
  (e.slot.map PendingCommand.command).elim e.muted (Command.mutes e.muted)

end Engine

theorem Breakpoints.edited_of_requiresSuspension {c : Command} (hc : c.requiresSuspension = true)
    (table : Breakpoints) : table.edited c = table := by
  cases c with
  | setBreakpoint | toggleMute | stop => cases hc
  | _ => rfl

theorem Command.mutes_of_requiresSuspension {c : Command} (hc : c.requiresSuspension = true)
    (muted : Bool) : c.mutes muted = muted := by
  cases c with
  | setBreakpoint | toggleMute | stop => cases hc
  | _ => rfl

namespace Engine

variable {χ : Type} {e e' : Engine χ} {c : Command} {call : LineCall χ}

theorem ahead_of_free (free : e.slot = none) :
    e.tableAhead = e.breakpoints ∧ e.mutedAhead = e.muted := by
  simp only [tableAhead, mutedAhead, free, Option.map_none, Option.elim_none, and_self]

theorem ahead_of_slot {p : PendingCommand} (hslot : e.slot = some p)
    (hp : p.command.requiresSuspension = true) :
    e.tableAhead = e.breakpoints ∧ e.mutedAhead = e.muted := by
  simp only [tableAhead, mutedAhead, hslot, Option.map_some, Option.elim_some]
  exact ⟨Breakpoints.edited_of_requiresSuspension hp _, Command.mutes_of_requiresSuspension hp _⟩

/-- The engine `later` is in the suspension in which `e` is, and the script will run on
    with the same flags. -/
structure Stays (e later : Engine χ) : Prop where
  suspended : e.runState = .suspended
  call : later.service.call? = e.service.call?
  table : later.tableAhead = e.tableAhead
  muted : later.mutedAhead = e.mutedAhead

theorem Transition.staysSuspended {a : Action χ} {o : Outcome χ} (hwaits : a.waits = true)
    (t : Transition e a o) (suspended : o.engine.runState = .suspended) : e.Stays o.engine := by
  cases t with
  | sleep | noAssembly | setSink | setListener | refuse => exact ⟨suspended, rfl, rfl, rfl⟩
  | set | pass | suspend => cases hwaits
  | shutDown | resume | exit => cases suspended
  | stopAgain _ ended | leave _ ended =>
    rw [show e.runState = .suspended from suspended] at ended
    cases ended
  | edit _ running =>
    rw [show e.runState = .suspended from suspended] at running
    cases running
  | @accept ticket c _ _ free =>
    obtain ⟨htable, hmuted⟩ := ahead_of_slot
      (e := { e with slot := some ⟨c, ticket⟩, service := e.service.wake }) rfl hwaits
    obtain ⟨htable', hmuted'⟩ := ahead_of_free free
    exact ⟨suspended, Service.call?_wake _, htable.trans htable'.symm, hmuted.trans hmuted'.symm⟩
  | park ready => exact ⟨suspended, (Service.call?_of_ready? ready).symm, rfl, rfl⟩
  | assemble ready _ waiting reads =>
    obtain ⟨htable, hmuted⟩ := ahead_of_slot waiting (by rw [reads]; rfl)
    exact ⟨suspended, (Service.call?_of_ready? ready).symm, htable.symm, hmuted.symm⟩
  | serveEdit ready _ waiting =>
    refine ⟨suspended, (Service.call?_of_ready? ready).symm, ?_, ?_⟩
    · simp only [tableAhead, waiting, Option.map_none, Option.elim_none, Option.map_some,
        Option.elim_some]
    · simp only [mutedAhead, waiting, Option.map_none, Option.elim_none, Option.map_some,
        Option.elim_some]
  | finishAssembly assembling => exact ⟨suspended, by rw [assembling]; rfl, rfl, rfl⟩

theorem run_staysSuspended (h : e.Coherent) (actions : List (Action χ))
    (hwaits : ∀ a ∈ actions, a.waits = true)
    (suspended : (e.run actions).engine.runState = .suspended) :
    e.Stays (e.run actions).engine := by
  induction actions generalizing e with
  | nil => exact ⟨suspended, rfl, rfl, rfl⟩
  | cons a actions ih =>
    have t := act_transition h a
    obtain ⟨ha, hrest⟩ := List.forall_mem_cons.mp hwaits
    have hlater := ih (t.coherent h) hrest suspended
    have hnext := t.staysSuspended ha hlater.suspended
    exact ⟨hnext.suspended, hlater.call.trans hnext.call, hlater.table.trans hnext.table,
      hlater.muted.trans hnext.muted⟩

/-! ### How the script goes on -/

theorem stepFrom?_of_resumption {step : Option PendingStep} {text : String} {outcome : Resume}
    (h : resumption? call c = some (step, text, outcome)) :
    step = c.stepFrom? call.callDepth := by
  cases c with
  | resume | stepInto | stepOver | stepOut =>
    cases h
    rfl
  | _ => cases h

/-- The engine runs on with the step that was asked for, and with the flags ahead. -/
structure GoesOn (e : Engine χ) (call : LineCall χ) (c : Command) (e' : Engine χ) : Prop where
  running : e'.runState = .running
  step : e'.step = c.stepFrom? call.callDepth
  table : e'.breakpoints = e.tableAhead
  muted : e'.muted = e.mutedAhead

theorem Resumed.goesOn (h : e.Coherent) (hcall : e.service.call? = some call)
    (hresumed : Resumed e c e') : GoesOn e call c e' := by
  obtain ⟨actions, ticket, hwaits, hserved, rfl, running⟩ := hresumed
  have t := act_transition (run_coherent h actions) (.serve : Action χ)
  have hstays := run_staysSuspended h actions hwaits
  generalize (e.run actions).engine = last at t hstays hserved running
  generalize last.act .serve = o at t hserved running
  cases t with
  | sleep | park | leave => simp at hserved
  | shutDown ends | stopAgain ends => cases ends
  | exit => cases running
  | assemble _ suspended | serveEdit _ suspended =>
    rw [show last.runState = .running from running] at suspended
    cases suspended
  | @resume call' pending step text outcome ready suspended waiting resumes =>
    obtain rfl : pending = ⟨c, ticket⟩ := by simpa [eq_comm] using hserved
    have hlast := hstays suspended
    have hsame : call' = call := by
      have hcall' := Service.call?_of_ready? ready
      rw [hlast.call, hcall] at hcall'
      exact (Option.some.inj hcall').symm
    subst hsame
    have hruns : c.letsRun = true := letsRun_of_resumption resumes
    obtain ⟨htable, hmuted⟩ := ahead_of_slot waiting (Command.requiresSuspension_of_letsRun hruns)
    exact ⟨rfl, stepFrom?_of_resumption resumes, htable.symm.trans hlast.table,
      hmuted.symm.trans hlast.muted⟩

/-! ### Every command that lets the script run can be carried out -/

theorem Resumed.of_run {actions : List (Action χ)} (hwaits : ∀ a ∈ actions, a.waits = true)
    (hresumed : Resumed (e.run actions).engine c e') : Resumed e c e' := by
  obtain ⟨later, ticket, hwaits', hserved, hlast, running⟩ := hresumed
  refine ⟨actions ++ later, ticket, ?_, ?_⟩
  · intro a ha
    rcases List.mem_append.mp ha with ha | ha
    · exact hwaits a ha
    · exact hwaits' a ha
  · rw [run_append]
    exact ⟨hserved, hlast, running⟩

theorem exists_resumed_of_free (h : e.Coherent) (suspended : e.runState = .suspended)
    (free : e.slot = none) (hruns : c.letsRun = true) : ∃ e', Resumed e c e' := by
  obtain ⟨call, hcall⟩ := h.call_of_suspended suspended
  have hwaits := Command.requiresSuspension_of_letsRun hruns
  have no_stop : c ≠ .stop := by
    rintro rfl
    cases hruns
  -- the command is put into the slot, and a snapshot that is being taken is completed
  let waiting : Engine χ := { e with slot := some ⟨c, 0⟩, service := e.service.wake }
  have haccept : Transition e (.submit 0 c) ⟨waiting, [.accepted ⟨c, 0⟩]⟩ :=
    .accept no_stop suspended free
  have hcall' : waiting.service.call? = some call := (Service.call?_wake _).trans hcall
  obtain ⟨ready, hslot, hrun⟩ :=
    finishAssembly_ready hcall' (Service.wake_ne_parked _ call) .empty
  have hnext := (act_transition (haccept.coherent h) (.finishAssembly .empty)).coherent
    (haccept.coherent h)
  obtain ⟨step, text, outcome, hresumes⟩ := (letsRun_iff call c).mp hruns
  have hserve := (Transition.resume ready (hrun.trans suspended) hslot hresumes).act_eq hnext
  refine ⟨_, [.submit 0 c, .finishAssembly .empty], 0, ?_, ?_, rfl, ?_⟩
  · simp [Action.waits, hwaits]
  all_goals
    simp only [run_cons, run_nil, haccept.act_eq h]
    rw [hserve]
  · exact List.mem_cons_self

/-- What waits is carried out first, and if it does not end the suspension, every
    command can follow it. -/
theorem exists_resumed (h : e.Coherent) (hattended : e.Attended)
    (suspended : e.runState = .suspended)
    (hslot : ∀ p, e.slot = some p → p.command.endsSuspension = false) (hruns : c.letsRun = true) :
    ∃ e', Resumed e c e' := by
  cases hwaiting : e.slot with
  | none => exact exists_resumed_of_free h suspended hwaiting hruns
  | some p =>
    obtain ⟨call, hcall⟩ := h.call_of_suspended suspended
    have hawake : e.service ≠ .parked call false := by
      intro hsleeps
      rw [(hattended call hsleeps).1] at hwaiting
      cases hwaiting
    obtain ⟨ready, hslot', hrun⟩ := finishAssembly_ready hcall hawake .empty
    have hnext := (act_transition h (.finishAssembly .empty)).coherent h
    have t := act_transition hnext (.serve : Action χ)
    have hserved : (e.run [.finishAssembly .empty, .serve]).engine.runState = .suspended ∧
        (e.run [.finishAssembly .empty, .serve]).engine.slot = none := by
      simp only [run_cons, run_nil]
      generalize (e.act (.finishAssembly .empty)).engine = next at t ready hslot' hrun
      generalize next.act .serve = o at t
      have hstays := hslot p hwaiting
      rw [← hslot'] at hwaiting
      cases t with
      | sleep no_call =>
        rw [ready] at no_call
        cases no_call
      | shutDown ends | stopAgain ends => cases ends
      | park _ _ free =>
        rw [hwaiting] at free
        cases free
      | leave _ ended =>
        rw [hrun, suspended] at ended
        cases ended
      | resume _ _ waiting resumes =>
        cases hwaiting.symm.trans waiting
        rw [Command.endsSuspension, letsRun_of_resumption resumes] at hstays
        cases hstays
      | exit _ _ waiting exits =>
        cases hwaiting.symm.trans waiting
        rw [exits] at hstays
        cases hstays
      | assemble _ suspended' | serveEdit _ suspended' => exact ⟨suspended', rfl⟩
    obtain ⟨e', hresumed⟩ := exists_resumed_of_free (run_coherent h _) hserved.1 hserved.2 hruns
    exact ⟨e', .of_run (by simp [Action.waits]) hresumed⟩

/-! ### The order -/

section Order

variable {e₁ e₂ : Engine χ} {c₁ c₂ : Command}

theorem GoesOn.firstStop_le (h₁ : GoesOn e call c₁ e₁) (h₂ : GoesOn e call c₂ e₂)
    (hends : ∀ next : LineCall χ, StepEnds (c₂.stepFrom? call.callDepth) next →
      StepEnds (c₁.stepFrom? call.callDepth) next)
    (calls : List (LineCall χ)) : e₁.firstStop calls ≤ e₂.firstStop calls := by
  refine Engine.firstStop_le h₁.running h₂.running (fun next hstops => ?_) calls
  rw [Stops, h₂.step, h₂.table, h₂.muted] at hstops
  rw [Stops, h₁.step, h₁.table, h₁.muted]
  exact hstops.imp_left (hends next)

theorem GoesOn.not_stepEnds (h : GoesOn e call c e') {calls : List (LineCall χ)} {i : Nat}
    (hi : i < e'.firstStop calls) {next : LineCall χ} (hnext : calls[i]? = some next) :
    ¬ StepEnds (c.stepFrom? call.callDepth) next := by
  have hno := not_stops_of_lt_firstStop h.running hi hnext
  rw [Stops, h.step, not_or] at hno
  exact hno.1

end Order

theorem stepEnds_some (s : PendingStep) (next : LineCall χ) :
    StepEnds (some s) next ↔ s.EndsAt next.callDepth := by
  simp [StepEnds]

/-- **Steps are ordered.**  From every suspension on, and whatever calls follow, the
    script stops first after a step into the call, then after a step over it, then
    after a step out of it, and last without a step.  A step into stops at the next
    call; up to the stop of a step over all calls are deeper than the one that was
    suspended, up to the stop of a step out none is less deep; and no command passes a
    line with an active breakpoint.  Each of the commands can be carried out, unless
    one waits already that ends the suspension. -/
theorem step_commands_are_ordered (source : Source) (config : Config) (past : List (Action χ)) :
    let o := (ofSource source config : Engine χ).run past
    let e := o.engine
    e.runState = .suspended →
      ∃ call, e.service.call? = some call ∧ SuspendedAt call.line call.callDepth o.effects ∧
        ((∀ p, e.slot = some p → p.command.endsSuspension = false) →
          ∀ c : Command, c.letsRun = true → ∃ e', Resumed e c e') ∧
        ∀ calls : List (LineCall χ),
          -- the order
          (∀ into across out free, Resumed e .stepInto into → Resumed e .stepOver across →
            Resumed e .stepOut out → Resumed e .resume free →
            into.firstStop calls ≤ across.firstStop calls ∧
              across.firstStop calls ≤ out.firstStop calls ∧
              out.firstStop calls ≤ free.firstStop calls) ∧
          -- the calls before the stop
          (∀ into, Resumed e .stepInto into → calls ≠ [] → into.firstStop calls = 0) ∧
          (∀ across, Resumed e .stepOver across → ∀ (i : Nat) next, i < across.firstStop calls →
            calls[i]? = some next → call.callDepth < next.callDepth) ∧
          (∀ out, Resumed e .stepOut out → ∀ (i : Nat) next, i < out.firstStop calls →
            calls[i]? = some next → call.callDepth ≤ next.callDepth) ∧
          (∀ c e', Resumed e c e' → ∀ (i : Nat) next, i < e'.firstStop calls →
            calls[i]? = some next →
            ¬ (e'.breakpoints.isEnabled next.line = true ∧ e'.muted = false)) := by
  intro o e suspended
  have h : e.Coherent := run_coherent (ofSource_coherent source config) past
  have hattended : e.Attended := run_attended source config past
  obtain ⟨call, hcall⟩ := h.call_of_suspended suspended
  refine ⟨call, hcall, (run_traced source config past).current call hcall,
    fun hslot c hruns => exists_resumed h hattended suspended hslot hruns, fun calls => ?_⟩
  refine ⟨?_, ?_, ?_, ?_, ?_⟩
  · intro into across out free hinto hacross hout hfree
    have hinto := hinto.goesOn h hcall
    have hacross := hacross.goesOn h hcall
    have hout := hout.goesOn h hcall
    refine ⟨hinto.firstStop_le hacross (fun next _ => ?_) calls,
      hacross.firstStop_le hout (fun next hends => ?_) calls,
      hout.firstStop_le (hfree.goesOn h hcall) (fun next hends => ?_) calls⟩
    · exact (stepEnds_some _ next).mpr PendingStep.endsAt_into
    · exact (stepEnds_some _ next).mpr ((stepEnds_some _ next).mp hends).over
    · obtain ⟨s, hs, _⟩ := hends
      cases hs
  · intro into hinto hcalls
    obtain ⟨next, later, rfl⟩ := List.exists_cons_of_ne_nil hcalls
    have hinto := hinto.goesOn h hcall
    apply firstStop_of_stops hinto.running
    rw [hinto.step]
    exact .inl ((stepEnds_some _ next).mpr PendingStep.endsAt_into)
  · intro across hacross i next hi hnext
    have hno := (hacross.goesOn h hcall).not_stepEnds hi hnext
    exact UInt32.not_le.mp fun hends => hno ((stepEnds_some _ next).mpr hends)
  · intro out hout i next hi hnext
    have hno := (hout.goesOn h hcall).not_stepEnds hi hnext
    exact UInt32.not_lt.mp fun hends => hno ((stepEnds_some _ next).mpr hends)
  · intro c e' hresumed i next hi hnext hactive
    exact not_stops_of_lt_firstStop (hresumed.goesOn h hcall).running hi hnext (.inr hactive)

/-- A suspension in a call at depth 1, with another breakpoint ahead. -/
theorem step_commands_are_ordered_in_a_call :
    let o := (ofSource (.ofLineCount "main" 9) {} : Engine Unit).run
      [.setBreakpoint 1 true, .setBreakpoint 7 true, .onLine ⟨1, 1, ()⟩]
    o.engine.runState = .suspended ∧
      ∃ into across out free, Resumed o.engine .stepInto into ∧ Resumed o.engine .stepOver across ∧
        Resumed o.engine .stepOut out ∧ Resumed o.engine .resume free ∧
        ∀ calls, into.firstStop calls ≤ across.firstStop calls ∧
          across.firstStop calls ≤ out.firstStop calls ∧
          out.firstStop calls ≤ free.firstStop calls := by
  intro o
  have suspended : o.engine.runState = .suspended := by decide
  obtain ⟨call, _, _, hexists, hcalls⟩ := step_commands_are_ordered (χ := Unit) _ _ _ suspended
  have hslot : ∀ p, o.engine.slot = some p → p.command.endsSuspension = false := by
    have hfree : o.engine.slot = none := by decide
    intro p hp
    rw [hfree] at hp
    cases hp
  obtain ⟨into, hinto⟩ := hexists hslot .stepInto rfl
  obtain ⟨across, hacross⟩ := hexists hslot .stepOver rfl
  obtain ⟨out, hout⟩ := hexists hslot .stepOut rfl
  obtain ⟨free, hfree⟩ := hexists hslot .resume rfl
  exact ⟨suspended, into, across, out, free, hinto, hacross, hout, hfree,
    fun calls => (hcalls calls).1 into across out free hinto hacross hout hfree⟩

-- A deeper call, the next line, the caller and a breakpoint tell the commands apart.
example :
    let stop (c : Command) := ((ofSource (.ofLineCount "main" 9) {} : Engine Unit).run
      [.setBreakpoint 1 true, .setBreakpoint 7 true, .onLine ⟨1, 1, ()⟩, .submit 0 c,
        .serve]).engine.firstStop [⟨5, 2, ()⟩, ⟨2, 1, ()⟩, ⟨9, 0, ()⟩, ⟨7, 3, ()⟩]
    [stop .stepInto, stop .stepOver, stop .stepOut, stop .resume] = [0, 1, 2, 3] :=
  rfl

end Engine

end ScriptDebugger
