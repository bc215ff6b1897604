/-
  ScriptDebugger/Proofs/Engine/Stepping.lean
  ==========================================
  **Where the interpreter stops.**

  While the script runs the engine looks at every call for two causes to suspend
  the interpreter: the pending step ends there, or the line has an enabled
  breakpoint and breakpoints are not muted.  The first call with a cause is the
  first one that suspends; what happens in between — calls without a cause, edits,
  commands that are turned away — leaves the pending step alone (`run_unstopped`).

  A pending step has a past as well: it is there because the last command that was
  carried out asked for it, at the call depth of the call that was suspended then,
  and nothing has suspended the interpreter since (`Asked`).  So a step that a
  breakpoint cut short never stops the interpreter later.
-/
import ScriptDebugger.Proofs.Engine.Suspension

namespace ScriptDebugger

/-! ### Causes -/

/-- A step ends at a line of the given call depth. -/
def PendingStep.EndsAt (s : PendingStep) (callDepth : UInt32) : Prop :=
  match s.kind with
  | .into => True
  | .over => callDepth ≤ s.originDepth
  | .out => callDepth < s.originDepth

theorem PendingStep.isReached_iff (s : PendingStep) (callDepth : UInt32) :
    s.isReached callDepth = true ↔ s.EndsAt callDepth := by
  unfold isReached EndsAt
  rcases s.kind with _ | _ | _
  · exact iff_of_true rfl trivial
  · exact decide_eq_true_iff
  · exact decide_eq_true_iff

/-- A step out of the outermost call ends nowhere. -/
theorem PendingStep.not_endsAt_of_outermost {s : PendingStep} (hkind : s.kind = .out)
    (horigin : s.originDepth = 0) (callDepth : UInt32) : ¬ s.EndsAt callDepth := by
  unfold EndsAt
  rw [hkind, horigin]
  exact UInt32.not_lt_zero

namespace Engine

variable {χ : Type}

/-- The pending step, if there is one, ends at a call. -/
def StepEnds (step : Option PendingStep) (call : LineCall χ) : Prop :=
  ∃ s, step = some s ∧ s.EndsAt call.callDepth

/-- There is a cause to suspend the interpreter at a call. -/
def Stops (step : Option PendingStep) (e : Engine χ) (call : LineCall χ) : Prop :=
  StepEnds step call ∨ e.breakpoints.isEnabled call.line = true ∧ e.muted = false

/-- No call among the actions has a cause to suspend the interpreter. -/
def Unstopped (step : Option PendingStep) (e : Engine χ) (actions : List (Action χ)) : Prop :=
  ∀ earlier call rest, actions = earlier ++ .onLine call :: rest →
    ¬ Stops step (e.run earlier).engine call

theorem stepEnds_iff (e : Engine χ) (call : LineCall χ) :
    StepEnds e.step call ↔ (e.step.any fun s => s.isReached call.callDepth) = true := by
  unfold StepEnds
  cases e.step with
  | none => simp
  | some s => simp [PendingStep.isReached_iff]

/-- A step counts before a breakpoint. -/
theorem reason?_eq_some {e : Engine χ} {call : LineCall χ} {reason : StopReason}
    (h : e.reason? call = some reason) :
    Stops e.step e call ∧ (reason = .step ↔ StepEnds e.step call) := by
  unfold reason? at h
  split at h
  · rename_i hreached
    cases h
    have hends := (stepEnds_iff e call).mpr hreached
    exact ⟨.inl hends, iff_of_true rfl hends⟩
  · rename_i hreached
    split at h
    · rename_i henabled
      cases h
      have hends : ¬ StepEnds e.step call := fun hends => hreached ((stepEnds_iff e call).mp hends)
      refine ⟨.inr (by simpa using henabled), ?_⟩
      exact iff_of_false (by decide) hends
    · cases h

theorem reason?_eq_none_iff (e : Engine χ) (call : LineCall χ) :
    e.reason? call = none ↔ ¬ Stops e.step e call := by
  unfold Stops reason?
  rw [stepEnds_iff]
  split
  · rename_i hreached
    simp [hreached]
  · rename_i hreached
    split
    · rename_i henabled
      simp only [Bool.and_eq_true, Bool.not_eq_true'] at henabled
      simp [henabled]
    · rename_i henabled
      simp only [Bool.and_eq_true, Bool.not_eq_true'] at henabled
      simp [hreached, henabled]

/-! ### One call -/

theorem onLine_of_not_stops {e : Engine χ} (running : e.runState = .running) {call : LineCall χ}
    (hstops : ¬ Stops e.step e call) : e.onLine call = ⟨e, [.passed]⟩ :=
  onLine_of_none running ((reason?_eq_none_iff e call).mpr hstops)

theorem onLine_of_stops {e : Engine χ} (running : e.runState = .running) {call : LineCall χ}
    (hstops : Stops e.step e call) :
    ∃ reason, (reason = .step ↔ StepEnds e.step call) ∧
      e.onLine call =
        ⟨{ e with
            runState := .suspended
            step := none
            lastStop := some (e.event reason call)
            service := .awake call },
          [.entered .suspended e.sink, .suspended (e.event reason call) e.listener]⟩ := by
  cases because : e.reason? call with
  | none => exact absurd hstops ((reason?_eq_none_iff e call).mp because)
  | some reason => exact ⟨reason, (reason?_eq_some because).2, onLine_of_some running because⟩

/-! ### Until the first stop -/

theorem unstopped_nil (step : Option PendingStep) (e : Engine χ) : Unstopped step e [] := by
  intro earlier call rest h
  exact absurd h (by simp)

theorem unstopped_cons (step : Option PendingStep) (e : Engine χ) (a : Action χ)
    (actions : List (Action χ)) :
    Unstopped step e (a :: actions) ↔
      (∀ call, a = .onLine call → ¬ Stops step e call) ∧
        Unstopped step (e.act a).engine actions := by
  constructor
  · intro h
    refine ⟨fun call ha => h [] call actions (by rw [ha]; rfl), ?_⟩
    intro earlier call rest hactions
    exact h (a :: earlier) call rest (by rw [hactions]; rfl)
  · rintro ⟨hfirst, hlater⟩ earlier call rest hactions
    cases earlier with
    | nil => exact hfirst call (List.cons.inj hactions).1
    | cons b earlier =>
      obtain ⟨rfl, hrest⟩ := List.cons.inj hactions
      exact hlater earlier call rest hrest

/-- While the script runs an action suspends the interpreter, and then it is a call
    with a cause, or it keeps the script running and the pending step. -/
theorem Transition.stops_or_goes {e : Engine χ} {a : Action χ} {o : Outcome χ} (h : e.Coherent)
    (running : e.runState = .running) (hopen : a.endsSession = false) (t : Transition e a o) :
    (∃ call, a = .onLine call ∧ Stops e.step e call ∧ ∃ x ∈ o.effects, x.isSuspension = true) ∨
      (∀ call, a = .onLine call → ¬ Stops e.step e call) ∧ o.engine.runState = .running ∧
        o.engine.step = e.step ∧ ∀ x ∈ o.effects, x.isSuspension = false := by
  have hservice := h.absent_of_running running
  cases t with
  | sleep | noAssembly | set | setSink | setListener | refuse | edit =>
    refine .inr ⟨?_, running, rfl, by simp [Effect.isSuspension]⟩
    intro call ha
    cases ha
  | shutDown ends | stopAgain ends =>
    rw [hopen] at ends
    cases ends
  | @pass call no_reason =>
    refine .inr ⟨?_, running, rfl, by simp [Effect.isSuspension]⟩
    intro call' ha
    cases ha
    exact (reason?_eq_none_iff e call).mp (no_reason running)
  | @suspend call reason _ because =>
    exact .inl ⟨call, rfl, (reason?_eq_some because).1,
      .suspended (e.event reason call) e.listener, by simp, rfl⟩
  | accept _ suspended =>
    rw [running] at suspended
    cases suspended
  | park ready | leave ready | resume ready | exit ready | assemble ready | serveEdit ready =>
    rw [hservice] at ready
    cases ready
  | finishAssembly assembling =>
    rw [hservice] at assembling
    cases assembling

/-- **Nothing suspends the interpreter exactly as long as no call has a cause, and
    as long the script runs and its step is pending.** -/
theorem run_unstopped {e : Engine χ} (h : e.Coherent) (running : e.runState = .running)
    (actions : List (Action χ)) (hopen : ∀ a ∈ actions, a.endsSession = false) :
    ((∀ x ∈ (e.run actions).effects, x.isSuspension = false) ↔ Unstopped e.step e actions) ∧
      (Unstopped e.step e actions →
        (e.run actions).engine.runState = .running ∧ (e.run actions).engine.step = e.step) := by
  induction actions generalizing e with
  | nil =>
    have hnone : ∀ x ∈ (e.run []).effects, x.isSuspension = false := by simp
    exact ⟨iff_of_true hnone (unstopped_nil _ e), fun _ => ⟨running, rfl⟩⟩
  | cons a actions ih =>
    have ht := act_transition h a
    rw [unstopped_cons, run_cons]
    rcases ht.stops_or_goes h running (hopen a List.mem_cons_self) with
      ⟨call, ha, hstops, x, hx, hsuspends⟩ | ⟨hpasses, hruns, hstep, hquiet⟩
    · have hcause : ¬ ∀ call, a = .onLine call → ¬ Stops e.step e call := by
        intro hno
        exact hno call ha hstops
      have hnotice : ¬ ∀ y ∈ (e.act a).effects ++ ((e.act a).engine.run actions).effects,
          y.isSuspension = false := by
        intro hno
        rw [hno x (List.mem_append_left _ hx)] at hsuspends
        cases hsuspends
      exact ⟨iff_of_false hnotice fun hc => hcause hc.1, fun hc => absurd hc.1 hcause⟩
    · have hlater := ih (ht.coherent h) hruns fun b hb => hopen b (List.mem_cons_of_mem a hb)
      rw [hstep] at hlater
      refine ⟨?_, fun hc => hlater.2 hc.2⟩
      constructor
      · intro hno
        exact ⟨hpasses, hlater.1.mp fun y hy => hno y (List.mem_append_right _ hy)⟩
      · rintro ⟨_, hunstopped⟩ y hy
        rcases List.mem_append.mp hy with hy | hy
        · exact hquiet y hy
        · exact hlater.1.mpr hunstopped y hy

/-! ### Where a pending step comes from -/

/-- The last command that was carried out asked for the step, at the call depth of
    the call that was suspended then, and no suspension has begun since. -/
def Asked (s : PendingStep) : List Effect → Prop :=
  Since
    (fun before x => ∃ p line, x = .served p ∧ p.command.stepKind? = some s.kind ∧
      SuspendedAt line s.originDepth before)
    (fun y => y.isSuspension = true ∨ ∃ p, y = .served p)

section Asked

variable (s : PendingStep) (history : List Effect)

theorem asked_append_iff (rest : List Effect) (hsuspends : ∀ y ∈ rest, y.isSuspension = false)
    (hserves : ∀ y ∈ rest, ∀ p, y ≠ .served p) : Asked s (history ++ rest) ↔ Asked s history := by
  refine since_append_iff ?_ history rest ?_
  · rintro before x ⟨p, line, rfl, _⟩
    exact .inr ⟨p, rfl⟩
  · rintro y hy (hy' | ⟨p, hp⟩)
    · rw [hsuspends y hy] at hy'
      cases hy'
    · exact hserves y hy p hp

theorem asked_append_cons_iff (p : PendingCommand) (rest : List Effect)
    (hsuspends : ∀ y ∈ rest, y.isSuspension = false) (hserves : ∀ y ∈ rest, ∀ p, y ≠ .served p) :
    Asked s (history ++ .served p :: rest) ↔
      p.command.stepKind? = some s.kind ∧ ∃ line, SuspendedAt line s.originDepth history := by
  rw [List.append_cons, asked_append_iff s _ rest hsuspends hserves, Asked, since_concat]
  constructor
  · rintro (⟨p', line, hp, hkind, hat⟩ | ⟨_, hno⟩)
    · cases hp
      exact ⟨hkind, line, hat⟩
    · exact absurd (.inr ⟨p, rfl⟩) hno
  · rintro ⟨hkind, line, hat⟩
    exact .inl ⟨p, line, rfl, hkind, hat⟩

end Asked

theorem asked_unique {s s' : PendingStep} {history : List Effect} (h : Asked s history)
    (h' : Asked s' history) : s = s' := by
  obtain ⟨before, x, after, rfl, ⟨p, line, rfl, hkind, hat⟩, hafter⟩ := h
  have hsuspends : ∀ y ∈ after, y.isSuspension = false := by
    intro y hy
    exact Bool.eq_false_iff.mpr fun hy' => hafter y hy (.inl hy')
  have hserves : ∀ y ∈ after, ∀ p, y ≠ .served p := by
    intro y hy p' hp'
    exact hafter y hy (.inr ⟨p', hp'⟩)
  obtain ⟨hkind', line', hat'⟩ := (asked_append_cons_iff s' before p after hsuspends hserves).mp h'
  have hsame : s.kind = s'.kind := Option.some.inj (hkind.symm.trans hkind')
  have horigin : s.originDepth = s'.originDepth := (suspendedAt_unique hat hat').2
  cases s
  cases s'
  simp only at hsame horigin
  rw [hsame, horigin]

/-- The effects so far tell the pending step of a running engine. -/
structure Stepped (past : List Effect) (e : Engine χ) : Prop where
  asked : e.runState = .running → ∀ s, e.step = some s ↔ Asked s past
  caused : Throughout (fun before x => ∀ event listener, x = .suspended event listener →
    (event.reason = .step ↔ ∃ s, Asked s before ∧ s.EndsAt event.callDepth)) past

theorem resumption?_step {call : LineCall χ} {c : Command} {step : Option PendingStep}
    {text : String} {outcome : Resume} (h : resumption? call c = some (step, text, outcome))
    (s : PendingStep) :
    step = some s ↔ c.stepKind? = some s.kind ∧ call.callDepth = s.originDepth := by
  obtain ⟨kind, origin⟩ := s
  cases c with
  | resume =>
    cases h
    simp [Command.stepKind?]
  | stepInto | stepOver | stepOut =>
    cases h
    simp [Command.stepKind?]
  | _ => cases h

namespace Stepped

variable {past : List Effect} {e : Engine χ} {a : Action χ} {o : Outcome χ}

theorem step_asked (htraced : Traced past e) (hpast : Stepped past e) (t : Transition e a o) :
    o.engine.runState = .running → ∀ s, o.engine.step = some s ↔ Asked s (past ++ o.effects) := by
  intro hrun s
  cases t with
  | sleep | noAssembly | set | setSink | setListener | refuse | edit | accept | pass | park
  | leave | finishAssembly =>
    rw [asked_append_iff s past _ (by simp [Effect.isSuspension]) (by simp)]
    exact hpast.asked hrun s
  | shutDown | suspend | exit => cases hrun
  | stopAgain _ ended =>
    rw [show e.runState = .running from hrun] at ended
    cases ended
  | assemble _ suspended | serveEdit _ suspended =>
    rw [show e.runState = .running from hrun] at suspended
    cases suspended
  | @resume call pending step text outcome ready _ _ resumes =>
    have hcurrent := htraced.current call (Service.call?_of_ready? ready)
    rw [resumption?_step resumes s]
    -- the command is the last one that was carried out
    rw [asked_append_cons_iff s past pending _ (by simp [Effect.isSuspension]) (by simp)]
    constructor
    · rintro ⟨hkind, hdepth⟩
      exact ⟨hkind, call.line, hdepth ▸ hcurrent⟩
    · rintro ⟨hkind, line, hat⟩
      exact ⟨hkind, (suspendedAt_unique hcurrent hat).2⟩

theorem step_caused (hpast : Stepped past e) (t : Transition e a o) :
    Throughout (fun before x => ∀ event listener, x = .suspended event listener →
      (event.reason = .step ↔ ∃ s, Asked s before ∧ s.EndsAt event.callDepth))
      (past ++ o.effects) := by
  refine (throughout_append _ past o.effects).mpr ⟨hpast.caused, ?_⟩
  rcases t.suspends_or_not with hnone | ⟨call, reason, running, because, heffects⟩
  · apply throughout_of_forall
    rintro x hx before event listener rfl
    cases hnone _ hx
  · have hasked (s : PendingStep) : e.step = some s ↔ Asked s (past ++ [.entered .suspended e.sink]) := by
      rw [asked_append_iff s past _ (by simp [Effect.isSuspension]) (by simp)]
      exact hpast.asked running s
    rw [heffects]
    simp only [throughout_cons, throughout_nil, and_true]
    constructor
    · rintro event listener h
      cases h
    · rintro event listener h
      cases h
      rw [show (e.event reason call).reason = reason from rfl, (reason?_eq_some because).2]
      unfold StepEnds
      simp only [hasked]
      rfl

theorem step (htraced : Traced past e) (hpast : Stepped past e) (t : Transition e a o) :
    Stepped (past ++ o.effects) o.engine where
  asked := hpast.step_asked htraced t
  caused := hpast.step_caused t

end Stepped

theorem stepped_ofSource (source : Source) (config : Config) :
    Stepped [] (ofSource source config : Engine χ) := by
  obtain ⟨_, _, hstep, _⟩ := ofSource_start (χ := χ) source config
  refine ⟨?_, throughout_nil _⟩
  intro _ s
  rw [hstep]
  exact iff_of_false (by simp) (since_nil _ _)

theorem run_stepped (source : Source) (config : Config) (actions : List (Action χ)) :
    Stepped ((ofSource source config).run actions).effects
      ((ofSource source config).run actions).engine :=
  (ofSource_run_induction (P := fun past e => Traced past e ∧ Stepped past e) source config
    ⟨traced_ofSource source config, stepped_ofSource source config⟩
    (fun h hpast t => ⟨hpast.1.step h t, hpast.2.step hpast.1 t⟩) actions).2

/-! ### The law -/

/-- **The law of stops.**  From any running state on, and as long as the session is
    not ended, nothing suspends the interpreter before the first call with a cause:
    the calls before it return at once and keep the pending step; that call suspends
    the interpreter, for the step if the step ends there and for the breakpoint
    otherwise, and no step is pending afterwards.  A step is pending just while the
    script runs and the last command that was carried out asked for it, at the call
    depth of the call that was suspended then; so no step stops the interpreter
    after another suspension, and a step out of the outermost call never does. -/
theorem stops_are_first_causes (source : Source) (config : Config) (past : List (Action χ)) :
    let o := (ofSource source config : Engine χ).run past
    let e := o.engine
    (e.runState = .running →
      ∀ actions : List (Action χ), (∀ a ∈ actions, a.endsSession = false) →
        ((∀ x ∈ (e.run actions).effects, x.isSuspension = false) ↔
          Unstopped e.step e actions) ∧
        (Unstopped e.step e actions →
          -- the calls before
          (∀ earlier call rest, actions = earlier ++ .onLine call :: rest →
            let e' := (e.run earlier).engine
            e'.step = e.step ∧ e'.act (.onLine call) = ⟨e', [.passed]⟩) ∧
          -- the next call
          ∀ call, let e' := (e.run actions).engine
            e'.step = e.step ∧
            (¬ Stops e.step e' call → e'.act (.onLine call) = ⟨e', [.passed]⟩) ∧
            (Stops e.step e' call → ∃ reason,
              (StepEnds e.step call → reason = .step) ∧
              (¬ StepEnds e.step call → reason = .breakpoint) ∧
              (e'.act (.onLine call)).effects =
                [.entered .suspended e'.sink,
                  .suspended ⟨reason, e'.breakpoints.source.name, call.line, call.callDepth⟩
                    e'.listener] ∧
              (e'.act (.onLine call)).engine.runState = .suspended ∧
              (e'.act (.onLine call)).engine.step = none))) ∧
    -- where a pending step comes from
    (∀ s, e.step = some s ↔ e.runState = .running ∧ Asked s o.effects) ∧
    -- what a stop for a step tells
    Throughout (fun before x => ∀ event listener, x = .suspended event listener →
      (event.reason = .step ↔ ∃ s, Asked s before ∧ s.EndsAt event.callDepth)) o.effects ∧
    -- a step out of the outermost call
    Throughout (fun before x => ∀ event listener, x = .suspended event listener →
      ∀ s, Asked s before → s.kind = .out → s.originDepth = 0 → event.reason = .breakpoint)
      o.effects := by
  intro o e
  have h : e.Coherent := run_coherent (ofSource_coherent source config) past
  have hstepped : Stepped o.effects e := run_stepped source config past
  refine ⟨?_, ?_, hstepped.caused, ?_⟩
  · intro running actions hopen
    have hactions := run_unstopped h running actions hopen
    refine ⟨hactions.1, fun hunstopped => ⟨?_, ?_⟩⟩
    · intro earlier call rest hsplit e'
      have hearlier : Unstopped e.step e earlier := by
        intro before call' rest' hsplit'
        apply hunstopped before call' (rest' ++ .onLine call :: rest)
        rw [hsplit, hsplit']
        simp
      have hopen' : ∀ a ∈ earlier, a.endsSession = false := by
        intro a ha
        apply hopen
        rw [hsplit]
        exact List.mem_append_left _ ha
      obtain ⟨hrun, hstep⟩ := (run_unstopped h running earlier hopen').2 hearlier
      have hno : ¬ Stops e'.step e' call := by
        rw [hstep]
        exact hunstopped earlier call rest hsplit
      exact ⟨hstep, onLine_of_not_stops hrun hno⟩
    · intro call e'
      obtain ⟨hrun, hstep⟩ := hactions.2 hunstopped
      refine ⟨hstep, ?_, ?_⟩
      · intro hno
        rw [← hstep] at hno
        exact onLine_of_not_stops hrun hno
      · intro hstops
        rw [← hstep] at hstops ⊢
        obtain ⟨reason, hreason, honLine⟩ := onLine_of_stops hrun hstops
        rw [show e'.act (.onLine call) = _ from honLine]
        refine ⟨reason, hreason.mpr, ?_, rfl, rfl, rfl⟩
        intro hno
        cases reason with
        | breakpoint => rfl
        | step => exact absurd (hreason.mp rfl) hno
  · intro s
    constructor
    · intro hs
      have hrun := h.running_of_step s hs
      exact ⟨hrun, (hstepped.asked hrun s).mp hs⟩
    · rintro ⟨hrun, hs⟩
      exact (hstepped.asked hrun s).mpr hs
  · refine Throughout.imp hstepped.caused ?_
    intro before x hx event listener hsuspended s hs hkind horigin
    have hreason := hx event listener hsuspended
    cases hcase : event.reason with
    | breakpoint => rfl
    | step =>
      obtain ⟨s', hs', hends⟩ := hreason.mp hcase
      rw [asked_unique hs' hs] at hends
      exact absurd hends (PendingStep.not_endsAt_of_outermost hkind horigin _)

-- A step over that a breakpoint in the callee cut short does not end after the return.
example :
    let e : Engine Unit := ((ofSource (.ofLineCount "main" 3) {}).run
      [.setBreakpoint 1 true, .setBreakpoint 2 true, .onLine ⟨1, 0, ()⟩, .submit 0 .stepOver,
        .serve, .onLine ⟨2, 1, ()⟩, .submit 1 .resume, .serve, .onLine ⟨3, 0, ()⟩]).engine
    e.lastStop = some ⟨.breakpoint, "main", 2, 1⟩ ∧ e.runState = .running := by
  decide

end Engine

end ScriptDebugger
