/-
  ScriptDebugger/Proofs/Engine/Notices.lean
  =========================================
  **Notices of suspensions.**

  Four histories belong together here: the notices that were sent, the moments at
  which the run state went from running to suspended (`Engine.suspensions`), the calls
  that the interpreter made then, and the commands that let it go on (`resumptions`).
  `Noticed` is the invariant that ties the notices to the commands and to what the
  engine remembers:

    * `run_announced` — notices and suspensions are the same sequence;
    * `Noticed.step` — between two notices the interpreter was let go on once, and by
      a step if the later notice is one of a step;
    * `notices_of_listener` — what is sent to whom.

  A breakpoint stops the interpreter on an enabled line, and only lines that take
  breakpoints are ever enabled (`Transition.onlyBreakable`).
-/
import Mathlib.Data.List.Forall2
import ScriptDebugger.Proofs.Breakpoints
import ScriptDebugger.Proofs.Engine.Replies
import ScriptDebugger.Proofs.Engine.SlotOrder
import ScriptDebugger.Proofs.Engine.Stepping
import ScriptDebugger.Proofs.Session.Receiver

namespace ScriptDebugger

/-! ### Notices and resumptions in a history -/

def Effect.notice? : Effect → Option StopEvent
  | .suspended event _ => some event
  | _ => none

def Effect.noticeTo? (listener : Nat) : Effect → Option StopEvent
  | .suspended event told => if told = some listener then some event else none
  | _ => none

/-- The notices of a history. -/
def notices (history : List Effect) : List StopEvent := history.filterMap Effect.notice?

/-- The notices that were sent to a listener. -/
def noticesTo (listener : Nat) (history : List Effect) : List StopEvent :=
  history.filterMap (Effect.noticeTo? listener)

/-- The commands that were carried out and let the interpreter go on. -/
def resumptions (history : List Effect) : List PendingCommand :=
  (servedCommands history).filter fun p => p.command.letsRun

@[simp] theorem notices_nil : notices [] = [] := rfl

@[simp] theorem notices_cons (x : Effect) (history : List Effect) :
    notices (x :: history) = x.notice?.toList ++ notices history :=
  filterMap_cons_toList Effect.notice? x history

@[simp] theorem notices_append (history rest : List Effect) :
    notices (history ++ rest) = notices history ++ notices rest :=
  List.filterMap_append

@[simp] theorem noticesTo_nil (listener : Nat) : noticesTo listener [] = [] := rfl

@[simp] theorem noticesTo_cons (listener : Nat) (x : Effect) (history : List Effect) :
    noticesTo listener (x :: history) =
      (x.noticeTo? listener).toList ++ noticesTo listener history :=
  filterMap_cons_toList (Effect.noticeTo? listener) x history

@[simp] theorem noticesTo_append (listener : Nat) (history rest : List Effect) :
    noticesTo listener (history ++ rest) = noticesTo listener history ++ noticesTo listener rest :=
  List.filterMap_append

@[simp] theorem resumptions_nil : resumptions [] = [] := rfl

@[simp] theorem resumptions_append (history rest : List Effect) :
    resumptions (history ++ rest) = resumptions history ++ resumptions rest := by
  simp [resumptions]

theorem notices_of_isAnswer {history : List Effect} (h : ∀ x ∈ history, x.isAnswer) :
    notices history = [] :=
  filterMap_of_isAnswer (fun _ _ => rfl) h

theorem resumptions_of_quiet {history : List Effect} (h : ∀ x ∈ history, x.isHandOver = false) :
    resumptions history = [] := by
  rw [resumptions, (commands_of_quiet h).2]
  rfl

theorem not_letsRun_of_edit {c : Command} (hedits : c.requiresSuspension = false) :
    c.letsRun = false := by
  rw [Bool.eq_false_iff]
  intro hruns
  rw [Command.requiresSuspension_of_letsRun hruns] at hedits
  cases hedits

/-- The last suspension was followed by just these resumptions. -/
def ResumedBy (commands : List PendingCommand) (history : List Effect) : Prop :=
  ∃ before event listener after, history = before ++ .suspended event listener :: after ∧
    notices after = [] ∧ resumptions after = commands

theorem ResumedBy.append {commands : List PendingCommand} {history : List Effect}
    (h : ResumedBy commands history) {rest : List Effect} (hrest : notices rest = []) :
    ResumedBy (commands ++ resumptions rest) (history ++ rest) := by
  obtain ⟨before, event, listener, after, rfl, hafter, hcommands⟩ := h
  refine ⟨before, event, listener, after ++ rest, by simp, ?_, ?_⟩
  · rw [notices_append, hafter, hrest]
    rfl
  · rw [resumptions_append, hcommands]

namespace Engine

variable {χ : Type}

/-- The moments of a run at which the interpreter is suspended: the engine as it was
    then, and the action. -/
def suspensions (e : Engine χ) : List (Action χ) → List (Engine χ × Action χ)
  | [] => []
  | a :: actions =>
    let next := (e.act a).engine
    if e.runState = .running ∧ next.runState = .suspended then (e, a) :: next.suspensions actions
    else next.suspensions actions

/-- A notice tells of the suspension at a moment: of the source unit, of the call that
    the interpreter made, and of an enabled line where it tells of a breakpoint. -/
def Announces (source : Source) (moment : Engine χ × Action χ) (event : StopEvent) : Prop :=
  ∃ call, moment.2 = .onLine call ∧ event.source = source.name ∧ event.line = call.line ∧
    event.callDepth = call.callDepth ∧
    (event.reason = .breakpoint →
      moment.1.breakpoints.isEnabled call.line = true ∧ moment.1.muted = false ∧
        source.isBreakable call.line = true ∧ 1 ≤ call.line ∧ call.line ≤ source.lineCount)

/-! ### One action -/

/-- **An action suspends the interpreter and sends a notice of it, or does neither.** -/
theorem Transition.suspends_iff_notice {e : Engine χ} {a : Action χ} {o : Outcome χ}
    (t : Transition e a o) :
    notices o.effects = [] ∧ o.engine.lastStop = e.lastStop ∧
        ¬ (e.runState = .running ∧ o.engine.runState = .suspended) ∨
      ∃ call reason, a = .onLine call ∧ e.runState = .running ∧ o.engine.runState = .suspended ∧
        e.reason? call = some reason ∧ o.engine.lastStop = some (e.event reason call) ∧
        o.effects =
          [.entered .suspended e.sink, .suspended (e.event reason call) e.listener] := by
  have hstays {s s' : RunState} (hsame : s' = s) : ¬ (s = .running ∧ s' = .suspended) := by
    rintro ⟨hrun, hsuspended⟩
    rw [hsame, hrun] at hsuspended
    cases hsuspended
  cases t with
  | sleep | noAssembly | set | setSink | setListener | refuse | edit | accept | pass | park
  | leave | assemble | serveEdit | finishAssembly =>
    exact .inl ⟨by simp [Effect.notice?], rfl, hstays rfl⟩
  | shutDown =>
    refine .inl ⟨?_, rfl, by simp⟩
    simp [Effect.notice?, notices_of_isAnswer (isAnswer_shutDown e.slot a)]
  | stopAgain => exact .inl ⟨notices_of_isAnswer a.isAnswer_acknowledgement, rfl, hstays rfl⟩
  | resume | exit => exact .inl ⟨by simp [Effect.notice?], rfl, by simp⟩
  | @suspend call reason running because =>
    exact .inr ⟨call, reason, rfl, running, rfl, because, rfl, rfl⟩

/-- **An action lets the interpreter go on by a command, or carries out no such
    command.** -/
theorem Transition.resumes_or_not {e : Engine χ} {a : Action χ} {o : Outcome χ}
    (t : Transition e a o) :
    resumptions o.effects = [] ∧
        (o.engine.runState = .running → e.runState = .running ∧ o.engine.step = e.step) ∧
        (o.engine.runState = .suspended → e.runState = .running ∨ e.runState = .suspended) ∨
      ∃ p, resumptions o.effects = [p] ∧ e.runState = .suspended ∧
        o.engine.runState = .running ∧
        ∀ s, o.engine.step = some s → p.command.stepKind? = some s.kind := by
  cases t with
  | sleep | noAssembly | set | setSink | setListener | refuse | edit | accept | pass | park
  | leave | finishAssembly =>
    exact .inl ⟨by simp [resumptions, Effect.served?], fun hrun => ⟨hrun, rfl⟩, .inr⟩
  | shutDown =>
    refine .inl ⟨resumptions_of_quiet fun x hx => ?_, by simp, by simp⟩
    rcases List.mem_cons.mp hx with rfl | hx
    · rfl
    · exact Effect.not_isHandOver_of_isAnswer (isAnswer_shutDown e.slot a x hx)
  | stopAgain =>
    refine .inl ⟨resumptions_of_quiet fun x hx => ?_, fun hrun => ⟨hrun, rfl⟩, .inr⟩
    exact Effect.not_isHandOver_of_isAnswer (a.isAnswer_acknowledgement x hx)
  | suspend running =>
    exact .inl ⟨by simp [resumptions, Effect.served?], by simp, fun _ => .inl running⟩
  | @resume call pending step text outcome _ suspended _ resumes =>
    have hruns : pending.command.letsRun = true := letsRun_of_resumption resumes
    refine .inr ⟨pending, ?_, suspended, rfl, fun s hs => ?_⟩
    · simp [resumptions, Effect.served?, hruns]
    · exact ((resumption?_step resumes s).mp hs).1
  | exit _ _ _ exits =>
    exact .inl ⟨by simp [resumptions, Effect.served?, exits, Command.letsRun], by simp, by simp⟩
  | assemble _ _ _ reads =>
    exact .inl ⟨by simp [resumptions, Effect.served?, reads, Command.letsRun],
      fun hrun => ⟨hrun, rfl⟩, .inr⟩
  | serveEdit _ _ _ edits =>
    exact .inl ⟨by simp [resumptions, Effect.served?, not_letsRun_of_edit edits],
      fun hrun => ⟨hrun, rfl⟩, .inr⟩

/-! ### What the notices say of the state -/

/-- The first notice, or one that follows another one after a single resumption; a
    notice of a step follows a command for a step. -/
def Follows (before : List Effect) (event : StopEvent) : Prop :=
  notices before = [] ∧ resumptions before = [] ∧ event.reason = .breakpoint ∨
    ∃ p, ResumedBy [p] before ∧
      (event.reason = .step → ∃ kind, p.command.stepKind? = some kind)

theorem Follows.append {before : List Effect} {event : StopEvent} (h : Follows before event)
    {rest : List Effect} (hrest : notices rest = []) (hnone : resumptions rest = []) :
    Follows (before ++ rest) event := by
  rcases h with ⟨hnotices, hresumed, hreason⟩ | ⟨p, hp, hkind⟩
  · refine .inl ⟨?_, ?_, hreason⟩
    · rw [notices_append, hnotices, hrest, List.append_nil]
    · rw [resumptions_append, hresumed, hnone, List.append_nil]
  · have happend := hp.append hrest
    rw [hnone] at happend
    exact .inr ⟨p, happend, hkind⟩

structure Noticed (past : List Effect) (e : Engine χ) : Prop where
  last : e.lastStop = (notices past).getLast?
  /-- The call that is inside sent the last notice, and that suspension lasts. -/
  inside : ∀ call, e.service.call? = some call → ∃ event, e.lastStop = some event ∧
    event.line = call.line ∧ event.callDepth = call.callDepth ∧
    Since (fun _ x => ∃ listener, x = .suspended event listener) (fun y => y.isBoundary) past
  held : e.runState = .suspended → ResumedBy [] past
  released : e.runState = .running →
    notices past = [] ∧ resumptions past = [] ∧ e.step = none ∨
      ∃ p, ResumedBy [p] past ∧ ∀ s, e.step = some s → p.command.stepKind? = some s.kind
  follows : Throughout (fun before x => ∀ event listener, x = .suspended event listener →
    Follows before event) past

namespace Noticed

variable {past : List Effect} {e : Engine χ} {a : Action χ} {o : Outcome χ}

theorem step_last (hpast : Noticed past e) (t : Transition e a o) :
    o.engine.lastStop = (notices (past ++ o.effects)).getLast? := by
  rw [notices_append]
  rcases t.suspends_iff_notice with ⟨hquiet, hlast, _⟩ | ⟨call, reason, _, _, _, _, hlast, heffects⟩
  · rw [hquiet, List.append_nil, hlast]
    exact hpast.last
  · simp [heffects, hlast, Effect.notice?]

theorem step_inside (hpast : Noticed past e) (t : Transition e a o) :
    ∀ call, o.engine.service.call? = some call → ∃ event, o.engine.lastStop = some event ∧
      event.line = call.line ∧ event.callDepth = call.callDepth ∧
      Since (fun _ x => ∃ listener, x = .suspended event listener) (fun y => y.isBoundary)
        (past ++ o.effects) := by
  intro call hcall
  rcases t.suspends_iff_notice with
    ⟨hnone, hlast, _⟩ | ⟨call', reason, ha, _, _, _, hlast, heffects⟩
  · rcases t.inside_or_enters hcall with ⟨hinside, hquiet⟩ | ⟨reason, _, heffects⟩
    · obtain ⟨event, hevent, hline, hdepth, hsince⟩ := hpast.inside call hinside
      exact ⟨event, hlast.trans hevent, hline, hdepth, hsince.append_of_false hquiet⟩
    · simp [heffects, Effect.notice?] at hnone
  · rcases t.inside_or_enters hcall with ⟨_, hquiet⟩ | ⟨reason', ha', heffects'⟩
    · simp [heffects, Effect.isBoundary] at hquiet
    · cases ha.symm.trans ha'
      refine ⟨e.event reason call, hlast, rfl, rfl, ?_⟩
      rw [heffects]
      exact ⟨past ++ [.entered .suspended e.sink], _, [], by simp, ⟨e.listener, rfl⟩, by simp⟩

theorem step_held (hpast : Noticed past e) (t : Transition e a o) :
    o.engine.runState = .suspended → ResumedBy [] (past ++ o.effects) := by
  intro hsuspended
  rcases t.suspends_iff_notice with ⟨hquiet, _, hstays⟩ | ⟨call, reason, _, _, _, _, _, heffects⟩
  · rcases t.resumes_or_not with ⟨hnone, _, hbefore⟩ | ⟨p, _, _, hrunning, _⟩
    · have hheld := hbefore hsuspended
      have hsuspended' : e.runState = .suspended := by
        rcases hheld with hrun | hheld
        · exact absurd ⟨hrun, hsuspended⟩ hstays
        · exact hheld
      have happend := (hpast.held hsuspended').append hquiet
      rw [hnone] at happend
      exact happend
    · rw [hrunning] at hsuspended
      cases hsuspended
  · rw [heffects]
    exact ⟨past ++ [.entered .suspended e.sink], e.event reason call, e.listener, [], by simp, rfl,
      rfl⟩

theorem step_released (hpast : Noticed past e) (t : Transition e a o) :
    o.engine.runState = .running →
      notices (past ++ o.effects) = [] ∧ resumptions (past ++ o.effects) = [] ∧
          o.engine.step = none ∨
        ∃ p, ResumedBy [p] (past ++ o.effects) ∧
          ∀ s, o.engine.step = some s → p.command.stepKind? = some s.kind := by
  intro hrunning
  rcases t.suspends_iff_notice with ⟨hquiet, _⟩ | ⟨_, _, _, _, hsuspended, _⟩
  · rcases t.resumes_or_not with ⟨hnone, hbefore, _⟩ | ⟨p, hp, hsuspended, _, hstep⟩
    · obtain ⟨hrunning', hstep⟩ := hbefore hrunning
      rw [notices_append, resumptions_append, hquiet, hnone, hstep, List.append_nil,
        List.append_nil]
      rcases hpast.released hrunning' with hnever | ⟨p, hp, hkind⟩
      · exact .inl hnever
      · have happend := hp.append hquiet
        rw [hnone] at happend
        exact .inr ⟨p, happend, hkind⟩
    · have happend := (hpast.held hsuspended).append hquiet
      rw [hp] at happend
      exact .inr ⟨p, happend, hstep⟩
  · rw [hrunning] at hsuspended
    cases hsuspended

/-- What suspends a running interpreter follows the last notice. -/
theorem follows_of_reason (hpast : Noticed past e) (running : e.runState = .running)
    {call : LineCall χ} {reason : StopReason} (because : e.reason? call = some reason) :
    Follows past (e.event reason call) := by
  have hreason := (reason?_eq_some because).2
  rcases hpast.released running with ⟨hnotices, hresumed, hstep⟩ | ⟨p, hp, hkind⟩
  · refine .inl ⟨hnotices, hresumed, ?_⟩
    cases reason with
    | breakpoint => rfl
    | step =>
      obtain ⟨s, hs, _⟩ := hreason.mp rfl
      rw [hstep] at hs
      cases hs
  · refine .inr ⟨p, hp, fun hcase => ?_⟩
    obtain ⟨s, hs, _⟩ := hreason.mp hcase
    exact ⟨s.kind, hkind s hs⟩

theorem step_follows (hpast : Noticed past e) (t : Transition e a o) :
    Throughout (fun before x => ∀ event listener, x = .suspended event listener →
      Follows before event) (past ++ o.effects) := by
  refine (throughout_append _ past o.effects).mpr ⟨hpast.follows, ?_⟩
  rcases t.suspends_or_not with hnone | ⟨call, reason, running, because, heffects⟩
  · apply throughout_of_forall
    rintro x hx before event listener rfl
    cases hnone _ hx
  · have hfollows := hpast.follows_of_reason running because
    rw [heffects]
    simp only [throughout_cons, throughout_nil, and_true]
    constructor
    · rintro event listener h
      cases h
    · rintro event listener h
      cases h
      exact hfollows.append rfl rfl

theorem step (hpast : Noticed past e) (t : Transition e a o) :
    Noticed (past ++ o.effects) o.engine where
  last := hpast.step_last t
  inside := hpast.step_inside t
  held := hpast.step_held t
  released := hpast.step_released t
  follows := hpast.step_follows t

end Noticed

theorem noticed_ofSource (source : Source) (config : Config) :
    Noticed [] (ofSource source config : Engine χ) := by
  obtain ⟨table, _, he⟩ := ofSource_eq (χ := χ) source config
  rw [he]
  refine ⟨rfl, ?_, ?_, fun _ => .inl ⟨rfl, rfl, rfl⟩, throughout_nil _⟩
  · intro call hcall
    cases hcall
  · intro hsuspended
    cases hsuspended

theorem run_noticed (source : Source) (config : Config) (actions : List (Action χ)) :
    Noticed ((ofSource source config).run actions).effects
      ((ofSource source config).run actions).engine :=
  ofSource_run_induction source config (noticed_ofSource source config)
    (fun _ hpast t => hpast.step t) actions

/-! ### Notices and suspensions are the same -/

theorem Transition.onlyBreakable {e : Engine χ} {a : Action χ} {o : Outcome χ}
    (h : e.breakpoints.OnlyBreakable) (t : Transition e a o) :
    o.engine.breakpoints.OnlyBreakable := by
  have hedited (c : Command) : (e.breakpoints.edited c).OnlyBreakable := by
    cases c with
    | setBreakpoint line enabled => exact h.attempt line enabled
    | _ => exact h
  cases t with
  | set line enabled => exact h.attempt line enabled
  | edit | serveEdit => exact hedited _
  | _ => exact h

theorem setupBreakpoints_onlyBreakable {e : Engine χ} (h : e.breakpoints.OnlyBreakable)
    (lines : List (UInt32 × Bool)) :
    (e.setupBreakpoints lines).1.breakpoints.OnlyBreakable := by
  induction lines generalizing e with
  | nil => exact h
  | cons entry lines ih =>
    simp only [setupBreakpoints]
    apply ih
    rw [setBreakpoint_engine]
    exact h.attempt entry.1 entry.2

theorem ofSource_onlyBreakable (source : Source) (config : Config) :
    (ofSource source config : Engine χ).breakpoints.OnlyBreakable :=
  setupBreakpoints_onlyBreakable (Breakpoints.onlyBreakable_ofSource source) _

/-- A line that stops the interpreter for a breakpoint is enabled, and takes one. -/
theorem announces_of_reason {e : Engine χ} (h : e.breakpoints.OnlyBreakable)
    {call : LineCall χ} {reason : StopReason} (because : e.reason? call = some reason) :
    Announces e.breakpoints.source (e, .onLine call) (e.event reason call) := by
  refine ⟨call, rfl, rfl, rfl, rfl, fun hreason => ?_⟩
  obtain ⟨hstops, hstep⟩ := reason?_eq_some because
  have hends : ¬ StepEnds e.step call := by
    intro hends
    rw [show (e.event reason call).reason = reason from rfl, hstep.mpr hends] at hreason
    cases hreason
  obtain ⟨henabled, hmuted⟩ := hstops.resolve_left hends
  have hline := h call.line henabled
  simp only [Source.isBreakable, Bool.and_eq_true, decide_eq_true_eq] at hline
  exact ⟨henabled, hmuted, h call.line henabled, hline.1.1, hline.1.2⟩

/-- **Notices and suspensions are the same sequence.** -/
theorem run_announced {e : Engine χ} (h : e.Coherent) (honly : e.breakpoints.OnlyBreakable)
    (actions : List (Action χ)) :
    List.Forall₂ (Announces e.breakpoints.source) (e.suspensions actions)
      (notices (e.run actions).effects) := by
  induction actions generalizing e with
  | nil => exact .nil
  | cons a actions ih =>
    have t := act_transition h a
    have hlater := ih (t.coherent h) (t.onlyBreakable honly)
    rw [t.source] at hlater
    rw [suspensions, run_cons, notices_append]
    rcases t.suspends_iff_notice with ⟨hquiet, _, hstays⟩ | ⟨call, reason, ha, running, hsuspended,
      because, _, heffects⟩
    · rw [if_neg hstays, hquiet]
      exact hlater
    · rw [if_pos ⟨running, hsuspended⟩, heffects, ha]
      exact .cons (announces_of_reason honly because) (ha ▸ hlater)

/-! ### Who is told -/

theorem Transition.listener {e : Engine χ} {a : Action χ} {o : Outcome χ} (t : Transition e a o) :
    (∀ event told, .suspended event told ∈ o.effects → told = e.listener) ∧
      ((∀ listener, a ≠ .setListener listener) → o.engine.listener = e.listener) := by
  constructor
  · intro event told htold
    rcases t.suspends_or_not with hnone | ⟨call, reason, _, _, heffects⟩
    · cases hnone _ htold
    · rw [heffects] at htold
      have hx : event = e.event reason call ∧ told = e.listener := by simpa using htold
      exact hx.2
  · intro hinstalls
    cases t with
    | setListener listener => exact absurd rfl (hinstalls listener)
    | _ => rfl

/-- As long as no other listener is installed, all notices go to the listener. -/
theorem notices_of_listener {e : Engine χ} (h : e.Coherent) {listener : Nat}
    (hlistener : e.listener = some listener) (actions : List (Action χ))
    (hinstalls : ∀ other, .setListener other ∉ actions) :
    noticesTo listener (e.run actions).effects = notices (e.run actions).effects := by
  have hstart : e.listener = some listener ∧ noticesTo listener [] = notices [] :=
    ⟨hlistener, rfl⟩
  have hkept := run_induction_on (Q := fun a => ∀ other, a ≠ .setListener other)
    (P := fun past e => e.listener = some listener ∧ noticesTo listener past = notices past)
    ?_ h hstart actions fun a ha other heq => hinstalls other (heq ▸ ha)
  · exact hkept.2
  · rintro past e a o _ ⟨hlistener, hpast⟩ hother t
    obtain ⟨htold, hkeeps⟩ := t.listener
    refine ⟨(hkeeps hother).trans hlistener, ?_⟩
    rw [noticesTo_append, notices_append, hpast]
    congr 1
    refine List.filterMap_congr fun x hx => ?_
    cases x with
    | suspended event told =>
      simp [Effect.noticeTo?, Effect.notice?, htold event told hx, hlistener]
    | _ => rfl

/-- Who is not the listener gets no notice. -/
theorem notices_of_replaced {e : Engine χ} (h : e.Coherent) {other : Nat}
    (hother : e.listener ≠ some other) (actions : List (Action χ))
    (hinstalls : .setListener other ∉ actions) : noticesTo other (e.run actions).effects = [] := by
  refine run_unaddressed Engine.listener (Effect.noticeTo? other) ?_ h hother actions hinstalls
  intro e a o t hne hlistener
  obtain ⟨htold, hkeeps⟩ := t.listener
  constructor
  · by_cases hsets : ∃ listener, a = .setListener listener
    · obtain ⟨listener, rfl⟩ := hsets
      have hdiffers : listener ≠ other := fun heq => hne (heq ▸ rfl)
      cases t with
      | setListener => simpa using hdiffers
      | shutDown ends | stopAgain ends => cases ends
    · rw [hkeeps fun listener ha => hsets ⟨listener, ha⟩]
      exact hlistener
  · refine List.filterMap_eq_nil_iff.mpr fun x hx => ?_
    cases x with
    | suspended event told => simp [Effect.noticeTo?, htold event told hx, hlistener]
    | _ => rfl

end Engine

namespace Session

theorem receiving_write (s : Session) (sink : Nat) (state : RunState) :
    (s.write sink state).receiving = s.receiving ∧ (s.write sink state).inbox = s.inbox := by
  unfold write
  split <;> exact ⟨rfl, rfl⟩

theorem receiving_note {s : Session} {listener : Nat} (hlistener : s.receiving = some listener)
    (x : Effect) :
    (s.note x).receiving = some listener ∧
      (s.note x).inbox = s.inbox ++ (x.noticeTo? listener).toList := by
  have hwrite (sink : Nat) (state : RunState) :
      (s.write sink state).receiving = some listener ∧
        (s.write sink state).inbox = s.inbox ++ [] := by
    rw [(receiving_write s sink state).1, (receiving_write s sink state).2, List.append_nil]
    exact ⟨hlistener, rfl⟩
  cases x with
  | entered state sink =>
    cases sink with
    | none => exact ⟨hlistener, (List.append_nil _).symm⟩
    | some sink => exact hwrite sink state
  | attached sink state => exact hwrite sink state
  | suspended event told =>
    by_cases htold : told = some listener
    · simp [note, Effect.noticeTo?, htold, hlistener]
    · simp [note, Effect.noticeTo?, htold, hlistener]
  | _ => exact ⟨hlistener, (List.append_nil _).symm⟩

/-- What a session receives is what its listener is sent. -/
theorem inbox_foldl_note {s : Session} {listener : Nat} (hlistener : s.receiving = some listener)
    (effects : List Effect) :
    (effects.foldl note s).inbox = s.inbox ++ noticesTo listener effects := by
  induction effects generalizing s with
  | nil => exact (List.append_nil _).symm
  | cons x effects ih =>
    obtain ⟨hnext, hinbox⟩ := receiving_note hlistener x
    rw [List.foldl_cons, ih hnext, hinbox, noticesTo_cons, List.append_assoc]

end Session

namespace Engine

variable {χ : Type}

/-! ### Notices and suspensions -/

/-- **Every suspension is announced once, in order, as what it is.**  Each notice names
    the source unit and the call that suspended the interpreter, and an enabled line
    that takes breakpoints if it tells of a breakpoint while they are not muted.
    Between two notices just one command let the interpreter go on, and if the later
    notice tells of a step, that command asked for it.  The engine remembers the last
    notice, which during a suspension is the notice of that suspension.  The newest
    listener gets all notices since its installation and no other one gets any; and
    if nobody receives them any more, nothing else changes. -/
theorem suspensions_are_announced (source : Source) (config : Config)
    (actions : List (Action χ)) :
    let start : Engine χ := ofSource source config
    let o := start.run actions
    -- the notices, and what happened between them
    List.Forall₂ (Announces source) (start.suspensions actions) (notices o.effects) ∧
    Throughout (fun before x => ∀ event listener, x = .suspended event listener →
      Follows before event) o.effects ∧
    -- the last stop
    o.engine.lastStop = (notices o.effects).getLast? ∧
    (o.engine.runState = .suspended → ∃ call event, o.engine.service.call? = some call ∧
      o.engine.lastStop = some event ∧ event.line = call.line ∧ event.callDepth = call.callDepth ∧
      Since (fun _ x => ∃ listener, x = .suspended event listener) (fun y => y.isBoundary)
        o.effects) ∧
    -- listeners
    (∀ listener later,
      let told := (o.engine.run (.setListener listener :: later)).effects
      ((∀ other, .setListener other ∉ later) → noticesTo listener told = notices told) ∧
      ∀ other, other ≠ listener → .setListener other ∉ later → noticesTo other told = []) ∧
    (∀ (s : Session) (o : Outcome ContextRef) (listener : Nat), s.receiving = some listener →
      (s.absorb o).inbox = s.inbox ++ noticesTo listener o.effects) ∧
    -- a receiver that is gone
    ∀ (s : Session) (requests : List Request),
      let gone := (s.serve .dropStops).1
      (gone.serveAll requests).1.deaf = (s.serveAll requests).1.deaf ∧
        (gone.serveAll requests).2 = (s.serveAll requests).2 := by
  intro start o
  have hstart : start.Coherent := ofSource_coherent source config
  have h : o.engine.Coherent := run_coherent hstart actions
  have hnoticed : Noticed o.effects o.engine := run_noticed source config actions
  refine ⟨?_, hnoticed.follows, hnoticed.last, ?_, ?_, ?_, Session.serveAll_after_drop⟩
  · have hannounced := run_announced hstart (ofSource_onlyBreakable source config) actions
    rw [ofSource_source] at hannounced
    exact hannounced
  · intro hsuspended
    obtain ⟨call, hcall⟩ := h.call_of_suspended hsuspended
    obtain ⟨event, hevent⟩ := hnoticed.inside call hcall
    exact ⟨call, event, hcall, hevent⟩
  · intro listener later told
    have hinstalled : (o.engine.act (.setListener listener)).engine.Coherent :=
      (act_transition h _).coherent h
    have htold : told =
        ((o.engine.act (.setListener listener)).engine.run later).effects := rfl
    rw [htold]
    refine ⟨notices_of_listener hinstalled rfl later, fun other hne hinstalls => ?_⟩
    refine notices_of_replaced hinstalled ?_ later hinstalls
    simpa [act, setListener] using hne.symm
  · intro s o listener hlistener
    exact Session.inbox_foldl_note (s := { s with rendezvous := s.rendezvous.absorb o }) hlistener _

-- A listener that comes after the first notice; the step that was asked for ends on line 2.
example :
    let o := (ofSource (.ofLineCount "main" 3) {} : Engine Unit).run
      [.setBreakpoint 1 true, .onLine ⟨1, 0, ()⟩, .setListener 5, .submit 0 .stepOver, .serve,
        .onLine ⟨9, 1, ()⟩, .onLine ⟨2, 0, ()⟩]
    notices o.effects = [⟨.breakpoint, "main", 1, 0⟩, ⟨.step, "main", 2, 0⟩] ∧
      noticesTo 5 o.effects = [⟨.step, "main", 2, 0⟩] := by
  decide

end Engine

end ScriptDebugger
