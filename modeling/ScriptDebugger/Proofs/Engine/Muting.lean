/-
  ScriptDebugger/Proofs/Engine/Muting.lean
  ========================================
  **Muted breakpoints cannot be told apart.**

  While breakpoints are muted the flags of the lines decide nothing: whether a call
  suspends the interpreter hangs on the pending step alone, and an edit fails by the
  source unit and not by the table.  So two engines that differ in their flags only
  (`AgreeButFlags`) do the same as long as they stay muted, and differ in their flags
  only afterwards.  `Transition.hidden` is the statement on one action, `run_hidden`
  the one on a run.

  A command that unmutes breakpoints may have been put into the slot before, and then
  it is carried out without being submitted again.
-/
import ScriptDebugger.Proofs.Engine.Stepping

namespace ScriptDebugger

theorem Command.mutes_of_ne {c : Command} (hc : c ≠ .toggleMute false) : c.mutes true = true := by
  cases c with
  | toggleMute muted =>
    cases muted with
    | false => exact absurd rfl hc
    | true => rfl
  | _ => rfl

namespace Engine

variable {χ : Type}

/-- The engine with other flags of its lines. -/
def withFlags (e : Engine χ) (flags : OrderedMap UInt32 Bool) : Engine χ :=
  { e with breakpoints := ⟨e.breakpoints.source, flags⟩ }

/-- The second engine is the first one, but for the flags of the lines. -/
def AgreeButFlags (e e' : Engine χ) : Prop := ∃ flags, e' = e.withFlags flags

theorem Coherent.withFlags {e : Engine χ} (h : e.Coherent) (flags : OrderedMap UInt32 Bool) :
    (e.withFlags flags).Coherent :=
  ⟨h.suspended_of_slot, h.ne_stop_of_slot, h.running_of_step, h.call_of_suspended,
    h.no_call_of_running⟩

variable {e : Engine χ} {a : Action χ} {o : Outcome χ}

/-- While breakpoints are muted a call suspends the interpreter for the step only. -/
theorem reason?_of_muted (hmuted : e.muted = true) (call : LineCall χ) :
    e.reason? call =
      if e.step.any (fun s => s.isReached call.callDepth) then some .step else none := by
  simp [reason?, hmuted]

theorem reason?_withFlags (hmuted : e.muted = true) (flags : OrderedMap UInt32 Bool)
    (call : LineCall χ) : (e.withFlags flags).reason? call = e.reason? call := by
  rw [reason?_of_muted hmuted, reason?_of_muted (e := e.withFlags flags) hmuted]
  rfl

/-- Tables of one source unit differ in their flags only. -/
theorem withFlags_eq (e : Engine χ) {table : Breakpoints}
    (hsource : table.source = e.breakpoints.source) :
    e.withFlags table.flags = { e with breakpoints := table } := by
  rw [withFlags, ← hsource]

/-- **One action does the same, whatever the flags are.** -/
theorem Transition.hidden (hmuted : e.muted = true) (flags : OrderedMap UInt32 Bool)
    (t : Transition e a o) :
    ∃ flags', Transition (e.withFlags flags) a ⟨o.engine.withFlags flags', o.effects⟩ := by
  cases t with
  | sleep no_call => exact ⟨flags, .sleep no_call⟩
  | noAssembly no_call => exact ⟨flags, .noAssembly no_call⟩
  | set line enabled =>
    refine ⟨((e.withFlags flags).breakpoints.attempt line enabled).flags, ?_⟩
    rw [withFlags_eq _ (by simp [withFlags])]
    exact .set line enabled
  | setSink sink => exact ⟨flags, .setSink sink⟩
  | setListener listener => exact ⟨flags, .setListener listener⟩
  | shutDown ends open_session => exact ⟨flags, .shutDown ends open_session⟩
  | stopAgain ends ended => exact ⟨flags, .stopAgain ends ended⟩
  | refuse no_stop refused => exact ⟨flags, .refuse no_stop refused⟩
  | @edit ticket c no_stop running edits =>
    refine ⟨((e.withFlags flags).breakpoints.edited c).flags, ?_⟩
    rw [withFlags_eq _ (by simp [withFlags])]
    exact .edit no_stop running edits
  | accept no_stop suspended free => exact ⟨flags, .accept no_stop suspended free⟩
  | @pass call no_reason =>
    refine ⟨flags, .pass fun running => ?_⟩
    rw [reason?_withFlags hmuted]
    exact no_reason running
  | @suspend call reason running because =>
    rw [← reason?_withFlags hmuted flags] at because
    exact ⟨flags, .suspend running because⟩
  | park ready suspended free => exact ⟨flags, .park ready suspended free⟩
  | leave ready ended => exact ⟨flags, .leave ready ended⟩
  | resume ready suspended waiting resumes =>
    exact ⟨flags, .resume ready suspended waiting resumes⟩
  | exit ready suspended waiting exits => exact ⟨flags, .exit ready suspended waiting exits⟩
  | assemble ready suspended waiting reads => exact ⟨flags, .assemble ready suspended waiting reads⟩
  | @serveEdit call pending ready suspended waiting edits =>
    refine ⟨((e.withFlags flags).breakpoints.edited pending.command).flags, ?_⟩
    rw [withFlags_eq _ (by simp [withFlags])]
    exact .serveEdit ready suspended waiting edits
  | finishAssembly assembling => exact ⟨flags, .finishAssembly assembling⟩

/-- Breakpoints stay muted if no command that unmutes them is submitted or carried out. -/
theorem Transition.stays_muted (hmuted : e.muted = true)
    (hsubmits : ∀ ticket, a ≠ .submit ticket (.toggleMute false))
    (hserves : ∀ p, .served p ∈ o.effects → p.command ≠ .toggleMute false)
    (t : Transition e a o) : o.engine.muted = true := by
  cases t with
  | @edit ticket c =>
    have hc : c ≠ .toggleMute false := by
      intro hc
      exact hsubmits ticket (by rw [hc])
    simp only [hmuted, Command.mutes_of_ne hc]
  | @serveEdit call pending =>
    have hc : pending.command ≠ .toggleMute false := hserves pending (by simp)
    simp only [hmuted, Command.mutes_of_ne hc]
  | _ => exact hmuted

/-! ### Runs -/

/-- Among the actions no command is submitted that unmutes breakpoints, and none that
    waits already is carried out. -/
structure KeepsMuted (e : Engine χ) (actions : List (Action χ)) : Prop where
  submits : ∀ ticket, .submit ticket (.toggleMute false) ∉ actions
  serves : ∀ p, .served p ∈ (e.run actions).effects → p.command ≠ .toggleMute false

theorem KeepsMuted.of_append (actions later : List (Action χ))
    (h : e.KeepsMuted (actions ++ later)) :
    e.KeepsMuted actions ∧ (e.run actions).engine.KeepsMuted later := by
  obtain ⟨hsubmits, hserves⟩ := h
  simp only [List.mem_append, not_or] at hsubmits
  simp only [run_append, List.mem_append] at hserves
  constructor
  · exact ⟨fun ticket => (hsubmits ticket).1, fun p hp => hserves p (.inl hp)⟩
  · exact ⟨fun ticket => (hsubmits ticket).2, fun p hp => hserves p (.inr hp)⟩

/-- **A run does the same, whatever the flags are, and differs in the flags only.** -/
theorem run_hidden (h : e.Coherent) (hmuted : e.muted = true) (flags : OrderedMap UInt32 Bool)
    {actions : List (Action χ)} (hkeeps : e.KeepsMuted actions) :
    (e.run actions).engine.muted = true ∧
      ∃ flags', (e.withFlags flags).run actions =
        ⟨(e.run actions).engine.withFlags flags', (e.run actions).effects⟩ := by
  induction actions generalizing e flags with
  | nil => exact ⟨hmuted, flags, rfl⟩
  | cons a actions ih =>
    obtain ⟨hfirst, hlater⟩ := KeepsMuted.of_append [a] actions hkeeps
    have t := act_transition h a
    have hmuted' : (e.act a).engine.muted = true := by
      apply t.stays_muted hmuted
      · rintro ticket rfl
        exact hfirst.submits ticket List.mem_cons_self
      · intro p hp
        exact hfirst.serves p (by simpa [run_cons] using hp)
    obtain ⟨flags', t'⟩ := t.hidden hmuted flags
    obtain ⟨hmutedEnd, flagsEnd, hrun⟩ := ih (t.coherent h) hmuted' flags' hlater
    refine ⟨hmutedEnd, flagsEnd, ?_⟩
    rw [run_cons, t'.act_eq (h.withFlags flags), hrun]
    rfl

/-- While breakpoints are muted only steps stop the interpreter. -/
theorem onLine_of_muted (hmuted : e.muted = true) (running : e.runState = .running)
    (call : LineCall χ) :
    (StepEnds e.step call → (e.onLine call).effects =
      [.entered .suspended e.sink,
        .suspended ⟨.step, e.breakpoints.source.name, call.line, call.callDepth⟩ e.listener]) ∧
    (¬ StepEnds e.step call → e.onLine call = ⟨e, [.passed]⟩) := by
  constructor
  · intro hends
    obtain ⟨reason, hreason, honLine⟩ := onLine_of_stops running (.inl hends)
    rw [honLine, hreason.mpr hends]
    rfl
  · intro hno
    apply onLine_of_not_stops running
    rintro (hends | ⟨_, hunmuted⟩)
    · exact hno hends
    · rw [hmuted] at hunmuted
      cases hunmuted

/-- **Muting hides the flags.**  Two engines that differ in the flags of their lines
    only, and are muted, do the same in every run in which nothing unmutes them: every
    action causes the same effects, a flag that is set directly gets the same answer,
    and afterwards the engines still differ in their flags only.  They stop at the
    targets of pending steps and nowhere else. -/
theorem muting_hides_the_flags {source : Source} {config : Config} {e e' : Engine χ}
    (hreach : Reachable (ofSource source config) e) (hagree : e.AgreeButFlags e')
    (hmuted : e.muted = true) {actions : List (Action χ)} (hkeeps : e.KeepsMuted actions) :
    (e'.run actions).effects = (e.run actions).effects ∧
    (e.run actions).engine.AgreeButFlags (e'.run actions).engine ∧
    (e.run actions).engine.muted = true ∧
    -- each action on the way
    (∀ before a rest, actions = before ++ a :: rest →
      let m := (e.run before).engine
      let m' := (e'.run before).engine
      m.AgreeButFlags m' ∧ (m'.act a).effects = (m.act a).effects ∧
      (∀ line enabled, a = .setBreakpoint line enabled →
        (m'.setBreakpoint line enabled).2 = (m.setBreakpoint line enabled).2) ∧
      (∀ call, a = .onLine call → m.runState = .running →
        (StepEnds m.step call → (m.act a).effects =
          [.entered .suspended m.sink,
            .suspended ⟨.step, m.breakpoints.source.name, call.line, call.callDepth⟩ m.listener]) ∧
        (¬ StepEnds m.step call → m.act a = ⟨m, [.passed]⟩))) ∧
    -- what stops the interpreter
    (∀ event listener, .suspended event listener ∈ (e.run actions).effects →
      event.reason = .step) := by
  obtain ⟨flags, rfl⟩ := hagree
  obtain ⟨past, rfl⟩ := hreach
  generalize he : ((ofSource source config).run past).engine = e at *
  have h : e.Coherent := he ▸ run_coherent (ofSource_coherent source config) past
  obtain ⟨hmutedEnd, flagsEnd, hrun⟩ := run_hidden h hmuted flags hkeeps
  refine ⟨by rw [hrun], ⟨flagsEnd, by rw [hrun]⟩, hmutedEnd, ?_, ?_⟩
  · intro before a rest hsplit m m'
    rw [hsplit] at hkeeps
    obtain ⟨hmutedNow, flagsNow, hbefore⟩ :=
      run_hidden h hmuted flags (KeepsMuted.of_append before (a :: rest) hkeeps).1
    have hm : m.Coherent := run_coherent h before
    have hm' : m' = m.withFlags flagsNow := congrArg Outcome.engine hbefore
    obtain ⟨_, t⟩ := (act_transition hm a).hidden hmutedNow flagsNow
    refine ⟨⟨flagsNow, hm'⟩, ?_, ?_, ?_⟩
    · rw [hm', t.act_eq (hm.withFlags flagsNow)]
    · rintro line enabled rfl
      rw [hm', setBreakpoint_result, setBreakpoint_result]
      rfl
    · rintro call rfl running
      exact onLine_of_muted hmutedNow running call
  · intro event listener hx
    obtain ⟨before, a, rest, hsplit, hx⟩ := exists_act_of_mem_run hx
    rw [hsplit] at hkeeps
    obtain ⟨hmutedNow, _⟩ :=
      run_hidden h hmuted flags (KeepsMuted.of_append before (a :: rest) hkeeps).1
    have t := act_transition (run_coherent h before) a
    rcases t.suspends_or_not with hnone | ⟨call, reason, _, because, heffects⟩
    · cases hnone _ hx
    · have hevent : event = (e.run before).engine.event reason call ∧
          listener = (e.run before).engine.listener := by
        simpa [heffects] using hx
      rw [hevent.1]
      rw [reason?_of_muted hmutedNow] at because
      split at because
      · cases because
        rfl
      · cases because

/-- A step over that passes a line with a flag in one of two engines. -/
theorem muting_hides_the_flags_from_a_step :
    let past : List (Action Unit) := [.setBreakpoint 1 true, .onLine ⟨1, 0, ()⟩,
      .submit 0 (.toggleMute true), .serve, .submit 1 .stepOver, .serve]
    let actions : List (Action Unit) := [.onLine ⟨2, 1, ()⟩, .setBreakpoint 9 true,
      .submit 2 (.setBreakpoint 3 true), .onLine ⟨3, 0, ()⟩]
    let e := ((ofSource (.ofLineCount "main" 3) {} : Engine Unit).run past).engine
    let e' := (e.act (.setBreakpoint 2 true)).engine
    Reachable (ofSource (.ofLineCount "main" 3) {}) e ∧ e.AgreeButFlags e' ∧ e.muted = true ∧
      e.KeepsMuted actions ∧ (e'.run actions).effects = (e.run actions).effects ∧
      .suspended ⟨.step, "main", 3, 0⟩ none ∈ (e'.run actions).effects := by
  intro past actions e e'
  have hreach : Reachable (ofSource (.ofLineCount "main" 3) {}) e := ⟨past, rfl⟩
  have hagree : e.AgreeButFlags e' := ⟨_, rfl⟩
  have hmuted : e.muted = true := rfl
  have heffects : (e.run actions).effects =
      [.passed, .answered 2 (.ok (.acknowledged (setText 3 true))), .entered .suspended none,
        .suspended ⟨.step, "main", 3, 0⟩ none] := rfl
  have hkeeps : e.KeepsMuted actions := by
    refine ⟨by simp [actions], fun p hp => ?_⟩
    simp [heffects] at hp
  obtain ⟨hsame, _⟩ := muting_hides_the_flags hreach hagree hmuted hkeeps
  exact ⟨hreach, hagree, hmuted, hkeeps, hsame, by simp [hsame, heffects]⟩

/-- A command that unmutes breakpoints may wait in the slot while they are still muted.
    It is carried out without being submitted again, and then the flags show. -/
theorem waiting_unmute_shows_the_flags :
    let past : List (Action Unit) := [.setBreakpoint 1 true, .onLine ⟨1, 0, ()⟩,
      .submit 0 (.toggleMute true), .serve, .submit 1 (.toggleMute false)]
    let actions : List (Action Unit) := [.serve, .submit 2 .resume, .serve, .onLine ⟨1, 0, ()⟩]
    let e := ((ofSource (.ofLineCount "main" 3) {} : Engine Unit).run past).engine
    let e' := ((ofSource (.ofLineCount "main" 3) {} : Engine Unit).run
      (past ++ [.setBreakpoint 1 false])).engine
    e.AgreeButFlags e' ∧ e.muted = true ∧ e'.muted = true ∧
      (∀ ticket, .submit ticket (.toggleMute false) ∉ actions) ∧
      (e'.run actions).effects ≠ (e.run actions).effects ∧
      .suspended ⟨.breakpoint, "main", 1, 0⟩ none ∈ (e.run actions).effects := by
  intro past actions e e'
  have heffects : (e.run actions).effects =
      [.served ⟨.toggleMute false, 1⟩,
        .answered 1 (.ok (.acknowledged "breakpoints muted toggled to false")),
        .accepted ⟨.resume, 2⟩, .served ⟨.resume, 2⟩, .entered .running none,
        .answered 2 (.ok (.acknowledged "continue run")), .resumed .go, .entered .suspended none,
        .suspended ⟨.breakpoint, "main", 1, 0⟩ none] := rfl
  refine ⟨⟨_, rfl⟩, rfl, rfl, by simp [actions], ?_, by simp [heffects]⟩
  intro hsame
  have hlength : (e'.run actions).effects.length = 9 := by rw [hsame, heffects]; rfl
  exact absurd hlength (by decide)

end Engine

end ScriptDebugger
