/-
  ScriptDebugger/Proofs/Engine/Inspection.lean
  ============================================
  **Looking at the variables changes nothing.**

  A snapshot is the only command that the suspended call carries out without holding
  up others, so anything may happen while it is being taken.  Controllers cannot tell
  that the call is busy: what they do comes to the same as if it were awake and had
  not looked at the slot yet (`run_withService`), because all they ever do to the call
  is to wake it, and neither a call that is awake nor one that takes a snapshot can be
  woken.  When the snapshot is complete the call is awake, and the two engines are one.
-/
import ScriptDebugger.Proofs.Engine.WakeUp
import ScriptDebugger.Proofs.Engine.Suspension

namespace ScriptDebugger

/-- Whether an action is done by others than the suspended call. -/
def Action.isOutside {χ : Type} : Action χ → Bool
  | .serve | .finishAssembly _ => false
  | _ => true

namespace Engine

variable {χ : Type}

/-! ### The call that suspended the interpreter -/

/-- Among the actions the call suspended the interpreter, and it has not returned since. -/
def SuspendedBy (start : Engine χ) (past : List (Action χ)) (call : LineCall χ) : Prop :=
  ∃ before after, past = before ++ .onLine call :: after ∧
    let entered := (start.run before).engine.act (.onLine call)
    (∃ event listener, .suspended event listener ∈ entered.effects) ∧
      ∀ y ∈ (entered.engine.run after).effects, y.isBoundary = false

/-- The call that is inside was inside at the beginning, or it suspended the
    interpreter since. -/
theorem suspendedBy_of_call {e : Engine χ} (h : e.Coherent) {past : List (Action χ)}
    {call : LineCall χ} (hcall : (e.run past).engine.service.call? = some call) :
    e.service.call? = some call ∧ (∀ y ∈ (e.run past).effects, y.isBoundary = false) ∨
      e.SuspendedBy past call := by
  induction past generalizing e with
  | nil => exact .inl ⟨hcall, by simp⟩
  | cons a past ih =>
    have t := act_transition h a
    rw [run_cons] at hcall ⊢
    rcases ih (t.coherent h) hcall with ⟨hinside, hquiet⟩ | ⟨before, after, hsplit, henters⟩
    · -- it was inside before the first action, or it entered by it
      rcases t.inside_or_enters hinside with ⟨hcall, hfirst⟩ | ⟨reason, rfl, heffects⟩
      · exact .inl ⟨hcall, List.forall_mem_append.mpr ⟨hfirst, hquiet⟩⟩
      · exact .inr ⟨[], past, rfl, ⟨e.event reason call, e.listener, by simp [heffects]⟩, hquiet⟩
    · exact .inr ⟨a :: before, after, by rw [hsplit]; rfl, henters⟩

/-! ### What the suspended call is busy with -/

/-- The engine with a suspended call that does something else. -/
def withService (e : Engine χ) (s : Service χ) : Engine χ := { e with service := s }

variable {e : Engine χ} {a : Action χ} {o : Outcome χ} {s : Service χ}

theorem withService_self (hs : e.service = s) : e.withService s = e := by
  rw [withService, ← hs]

theorem Coherent.withService (h : e.Coherent) (hrun : e.runState ≠ .running)
    (hcall : ∃ call, s.call? = some call) : (e.withService s).Coherent :=
  ⟨h.suspended_of_slot, h.ne_stop_of_slot, h.running_of_step, fun _ => hcall,
    fun running => absurd running hrun⟩

/-- What others do does not hang on what the call is busy with, if it is not asleep. -/
theorem Transition.withService (hs : s.wake = s) (outside : a.isOutside)
    (hrun : e.runState ≠ .running) (t : Transition e a o) :
    Transition (e.withService s) a ⟨o.engine.withService s, o.effects⟩ ∧
      o.engine.runState ≠ .running := by
  have hwake : (e.withService s).service.wake = s := hs
  cases t with
  | sleep | park | leave | resume | exit | assemble | serveEdit | noAssembly | finishAssembly =>
    cases outside
  | set line enabled => exact ⟨.set line enabled, hrun⟩
  | setSink sink => exact ⟨.setSink sink, hrun⟩
  | setListener listener => exact ⟨.setListener listener, hrun⟩
  | shutDown ends open_session =>
    have t' : Transition (e.withService s) a _ := .shutDown ends open_session
    rw [hwake] at t'
    exact ⟨t', RunState.noConfusion⟩
  | stopAgain ends ended =>
    have t' : Transition (e.withService s) a _ := .stopAgain ends ended
    rw [hwake] at t'
    exact ⟨t', hrun⟩
  | refuse no_stop refused => exact ⟨.refuse no_stop refused, hrun⟩
  | edit no_stop running | suspend running => exact absurd running hrun
  | @accept ticket c no_stop suspended free =>
    have t' : Transition (e.withService s) (.submit ticket c) _ := .accept no_stop suspended free
    rw [hwake] at t'
    exact ⟨t', hrun⟩
  | pass no_reason => exact ⟨.pass fun running => absurd running hrun, hrun⟩

/-- **Whatever others do, it comes to the same, whatever the call is busy with.** -/
theorem run_withService (h : e.Coherent) (hrun : e.runState ≠ .running) (hs : s.wake = s)
    (hcall : ∃ call, s.call? = some call) {during : List (Action χ)}
    (outside : ∀ a ∈ during, a.isOutside) :
    (e.withService s).run during =
        ⟨(e.run during).engine.withService s, (e.run during).effects⟩ ∧
      (e.run during).engine.runState ≠ .running := by
  induction during generalizing e with
  | nil => exact ⟨rfl, hrun⟩
  | cons a during ih =>
    obtain ⟨ha, hrest⟩ := List.forall_mem_cons.mp outside
    have t := act_transition h a
    obtain ⟨t', hrun'⟩ := t.withService hs ha hrun
    obtain ⟨hlater, hlast⟩ := ih (t.coherent h) hrun' hrest
    refine ⟨?_, hlast⟩
    rw [run_cons, t'.act_eq (h.withService hrun hcall), hlater]
    rfl

/-! ### Taking a snapshot -/

theorem finishAssembly_withService (e : Engine χ) (view : View χ) (s : Service χ) :
    (e.finishAssembly view).engine.withService s = e.withService s := by
  unfold Engine.finishAssembly
  split
  · rfl
  · rfl

/-- What it delivers is the same after the call was woken. -/
theorem finishAssembly_effects_of_wake {e e' : Engine χ} (hwoken : e'.service = e.service.wake)
    (hsame : e'.assembler = e.assembler) (view : View χ) :
    (e'.finishAssembly view).effects = (e.finishAssembly view).effects := by
  unfold Engine.finishAssembly
  rw [hwoken, hsame]
  cases e.service with
  | absent | awake call | parked call notified | assembling call ticket => rfl

/-- The call turns to a snapshot that is asked for while nothing waits, once it has
    completed another one that it may be taking. -/
theorem run_to_snapshot (h : e.Coherent) {call : LineCall χ}
    (hcall : e.service.call? = some call) (suspended : e.runState = .suspended)
    (free : e.slot = none) (ticket : Nat) (earlier : View χ) :
    e.run [.submit ticket .getVariables, .finishAssembly earlier, .serve] =
      ⟨e.withService (.assembling call ticket),
        .accepted ⟨.getVariables, ticket⟩ ::
          ((e.act (.finishAssembly earlier)).effects ++ [.served ⟨.getVariables, ticket⟩])⟩ := by
  let asked : Engine χ := { e with slot := some ⟨.getVariables, ticket⟩, service := e.service.wake }
  have hsubmit : e.act (.submit ticket .getVariables) =
      ⟨asked, [.accepted ⟨.getVariables, ticket⟩]⟩ :=
    submit_of_free (c := .getVariables) (by decide) suspended free ticket
  have hasked : asked.Coherent := by
    have hkept := (act_transition h (.submit ticket .getVariables)).coherent h
    rwa [hsubmit] at hkept
  -- the call may look at the slot now
  obtain ⟨hready, hslot, hstate⟩ := finishAssembly_ready (e := asked) (by simpa [asked] using hcall)
    (Service.wake_ne_parked _ call) earlier
  have hwoken : asked.service = e.service.wake := rfl
  have heffects : (asked.finishAssembly earlier).effects = (e.finishAssembly earlier).effects :=
    finishAssembly_effects_of_wake hwoken rfl earlier
  have hrest := finishAssembly_withService asked earlier (.assembling call ticket)
  have hfinished := (act_transition hasked (.finishAssembly earlier)).coherent hasked
  have hserve := (Transition.assemble hready (hstate.trans suspended) hslot rfl).act_eq hfinished
  rw [run_cons, hsubmit, run_cons, run_cons, hserve, run_nil]
  refine congr (congrArg Outcome.mk ?_) ?_
  · have hemptied := congrArg (fun m : Engine χ => { m with slot := none }) hrest
    refine hemptied.trans ?_
    simp only [asked, Engine.withService, ← free]
  · exact congrArg (fun l => Effect.accepted _ :: (l ++ [Effect.served _])) heffects

/-! ### While it is being taken -/

theorem serve_of_awake (h : e.Coherent) {call : LineCall χ} (hawake : e.service = .awake call) :
    (∀ p, e.slot = some p →
      let o := { e with slot := none }.execute call p
      e.act .serve = ⟨o.engine, .served p :: o.effects⟩) ∧
    (e.runState = .stopped → e.act .serve = ⟨e.withService .absent, [.resumed .go]⟩) ∧
    (e.runState = .suspended → e.slot = none →
      e.act .serve = ⟨e.withService (.parked call false), []⟩) := by
  have hready : e.service.ready? = some call := by rw [hawake]; rfl
  refine ⟨?_, ?_, ?_⟩
  · intro p waiting o
    have hserve := serve_of_waiting hready (h.suspended_of_slot p waiting) waiting
    rwa [← hawake] at hserve
  · intro ended
    exact serve_leaves h hready ended
  · intro suspended free
    exact (Transition.park hready suspended free).act_eq h

/-- **Looking at the variables changes nothing.**  While the interpreter is suspended
    and nothing waits, a snapshot that is asked for shows the call stack of the call
    that suspended it, and leaves the engine as it is.  While the snapshot is being
    taken, everything that others do has the same results and the same consequences as
    if the call were awake and had not looked at the slot; when it is complete the call
    is awake, and goes on with what was left for it. -/
theorem inspection_is_transparent (source : Source) (config : Config)
    (past : List (Action χ)) :
    let e := ((ofSource source config : Engine χ).run past).engine
    -- a snapshot
    (e.runState = .suspended → e.slot = none → ∃ call,
      SuspendedBy (ofSource source config) past call ∧ e.service.call? = some call ∧
      ∀ (ticket : Nat) (earlier view : View χ),
        let asked := e.run [.submit ticket .getVariables, .finishAssembly earlier, .serve]
        asked =
          ⟨e.withService (.assembling call ticket),
            .accepted ⟨.getVariables, ticket⟩ ::
              ((e.act (.finishAssembly earlier)).effects ++ [.served ⟨.getVariables, ticket⟩])⟩ ∧
        asked.engine.act (.finishAssembly view) =
          ⟨e.withService (.awake call),
            [.answered ticket
              (.ok (.snapshot (config.assembler.assemble view.heap (view.stack call.context))))]⟩ ∧
        (e.withService (.awake call)).act .serve = ⟨e.withService (.parked call false), []⟩) ∧
    -- what happens meanwhile
    ∀ call ticket, e.service = .assembling call ticket →
      let unlooked := e.withService (.awake call)
      ∀ during, (∀ a ∈ during, a.isOutside) →
        let m := (unlooked.run during).engine
        e.run during = ⟨m.withService (.assembling call ticket), (unlooked.run during).effects⟩ ∧
        (∀ line enabled, ((e.run during).engine.setBreakpoint line enabled).2 =
          (m.setBreakpoint line enabled).2) ∧
        -- what comes next
        (∀ view later, e.run (during ++ .finishAssembly view :: later) =
          ⟨(m.run later).engine,
            (unlooked.run during).effects ++
              .answered ticket
                  (.ok (.snapshot (config.assembler.assemble view.heap (view.stack call.context)))) ::
                (m.run later).effects⟩) ∧
        m.service = .awake call ∧
        (∀ p, m.slot = some p →
          let o := { m with slot := none }.execute call p
          m.act .serve = ⟨o.engine, .served p :: o.effects⟩) ∧
        (m.runState = .stopped → m.act .serve = ⟨m.withService .absent, [.resumed .go]⟩) ∧
        (m.runState = .suspended → m.slot = none →
          m.act .serve = ⟨m.withService (.parked call false), []⟩) := by
  intro e
  have h : e.Coherent := run_coherent (ofSource_coherent source config) past
  have hassembler : e.assembler = config.assembler :=
    (run_assembler (ofSource_coherent source config) past).trans (ofSource_assembler source config)
  constructor
  · intro suspended free
    obtain ⟨call, hcall⟩ := h.call_of_suspended suspended
    refine ⟨call, ?_, hcall, ?_⟩
    · rcases suspendedBy_of_call (ofSource_coherent source config) hcall with ⟨hstart, _⟩ | henters
      · rw [(ofSource_start source config).2.2.2] at hstart
        cases hstart
      · exact henters
    · intro ticket earlier view asked
      have hasked : asked = _ := run_to_snapshot h hcall suspended free ticket earlier
      have hrun : e.runState ≠ .running := h.not_running_of_call hcall
      refine ⟨hasked, ?_, ?_⟩
      · rw [hasked, ← hassembler]
        exact finishAssembly_of_assembling (e := e.withService _) rfl view
      · exact (serve_of_awake (h.withService hrun ⟨call, rfl⟩) rfl).2.2 suspended free
  · intro call ticket assembling unlooked during outside m
    have hrun : e.runState ≠ .running := h.not_running_of_call (by rw [assembling]; rfl)
    have hunlooked : unlooked.Coherent := h.withService hrun ⟨call, rfl⟩
    have hm : m.Coherent := run_coherent hunlooked during
    obtain ⟨hbusy, hopen⟩ := run_withService (s := .assembling call ticket) hunlooked hrun rfl
      ⟨call, rfl⟩ outside
    obtain ⟨hawake, _⟩ := run_withService (s := .awake call) hunlooked hrun rfl ⟨call, rfl⟩ outside
    have hservice : m.service = .awake call := congrArg (fun o => o.engine.service) hawake
    have hbegin : unlooked.withService (.assembling call ticket) = e := withService_self assembling
    rw [hbegin] at hbusy
    refine ⟨hbusy, ?_, ?_, hservice, serve_of_awake hm hservice⟩
    · intro line enabled
      rw [hbusy, setBreakpoint_result, setBreakpoint_result]
      rfl
    · intro view later
      have hsame : m.assembler = config.assembler :=
        (run_assembler hunlooked during).trans hassembler
      have hfinish : (m.withService (.assembling call ticket)).act (.finishAssembly view) =
          ⟨m.withService (.awake call),
            [.answered ticket
              (.ok (.snapshot (m.assembler.assemble view.heap (view.stack call.context))))]⟩ :=
        finishAssembly_of_assembling rfl view
      rw [withService_self hservice, hsame] at hfinish
      rw [run_append, run_cons, hbusy, hfinish]
      rfl

/-- Another controller goes on while a snapshot is being taken. -/
theorem inspection_is_transparent_to_another_controller :
    let past : List (Action Unit) := [.setBreakpoint 1 true, .onLine ⟨1, 0, ()⟩, .serve]
    let ask : List (Action Unit) :=
      [.submit 0 .getVariables, .finishAssembly .empty, .serve]
    let e := ((ofSource (.ofLineCount "main" 3) {} : Engine Unit).run past).engine
    e.service = .parked ⟨1, 0, ()⟩ false ∧ e.runState = .suspended ∧ e.slot = none ∧
      (e.run ask).engine = e.withService (.assembling ⟨1, 0, ()⟩ 0) ∧
      ∀ view, ((e.run ask).engine.run
          [.submit 1 .stepOver, .setBreakpoint 2 true, .finishAssembly view, .serve]).effects =
        [.accepted ⟨.stepOver, 1⟩,
          .answered 0 (.ok (.snapshot ((Config.assembler {}).assemble view.heap (view.stack ())))),
          .served ⟨.stepOver, 1⟩, .entered .running none,
          .answered 1 (.ok (.acknowledged "step over")), .resumed (.step .over)] := by
  intro past ask e
  refine ⟨rfl, rfl, rfl, ?_, fun view => ?_⟩
  · obtain ⟨call, _, hcall, hsnapshot⟩ :=
      (inspection_is_transparent (.ofLineCount "main" 3) {} past).1 rfl rfl
    cases hcall
    exact congrArg Outcome.engine (hsnapshot 0 .empty .empty).1
  · have hmeanwhile := (inspection_is_transparent (.ofLineCount "main" 3) {} (past ++ ask)).2
      ⟨1, 0, ()⟩ 0 rfl [.submit 1 .stepOver, .setBreakpoint 2 true] (by simp [Action.isOutside])
    obtain ⟨_, _, hnext, _⟩ := hmeanwhile
    exact congrArg Outcome.effects (hnext view [.serve])

end Engine

end ScriptDebugger
