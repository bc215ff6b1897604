/-
  ScriptDebugger/Proofs/Engine/Returns.lean
  =========================================
  **How calls return.**

  A call that has no cause to suspend the interpreter returns at once.  A call that
  has one stays inside until it carries out a command that lets the interpreter go
  on, or finds that the session is over; `Returns` lists these ways out, each with
  what the engine is left in and what controllers are told:

    * `Transition.returns_or_stays` — in every action the call takes one of the ways, or
      it stays inside and the run state changes by the end of the session only;
    * `run_inside` — the same for as long as the call does not return;
    * `Exited` — an exit is returned once, and nothing but an aftermath follows it.
-/
import ScriptDebugger.Proofs.Engine.SlotOrder
import ScriptDebugger.Proofs.Rendezvous.Results

namespace ScriptDebugger

/-- What the suspended call returns after a command, if it returns then. -/
def Command.outcome? : Command → Option Resume
  | .resume => some .go
  | .stepInto => some (.step .into)
  | .stepOver => some (.step .over)
  | .stepOut => some (.step .out)
  | .exit => some .exit
  | _ => none

theorem Command.outcome?_of_edit {c : Command} (hedits : c.requiresSuspension = false) :
    c.outcome? = none := by
  cases c with
  | setBreakpoint line enabled | toggleMute muted | stop => rfl
  | _ => cases hedits

/-- What happens when a call carries out a command and returns. -/
def departure (p : PendingCommand) (state : RunState) (sink : Option Nat) (text : String)
    (outcome : Resume) : List Effect :=
  [.served p, .entered state sink, .answered p.ticket (.ok (.acknowledged text)), .resumed outcome]

@[simp] theorem resumed_mem_departure {p : PendingCommand} {state : RunState} {sink : Option Nat}
    {text : String} {outcome outcome' : Resume} :
    .resumed outcome' ∈ departure p state sink text outcome ↔ outcome' = outcome := by
  simp [departure]

@[simp] theorem served_mem_departure {p p' : PendingCommand} {state : RunState}
    {sink : Option Nat} {text : String} {outcome : Resume} :
    .served p' ∈ departure p state sink text outcome ↔ p' = p := by
  simp [departure]

/-- What happens without a return. -/
def Effect.LetsStay : Effect → Prop
  | .resumed _ => False
  | .served p => p.command.outcome? = none
  | _ => True

theorem Effect.letsStay_of_isAnswer {x : Effect} (h : x.isAnswer) : x.LetsStay := by
  cases x with
  | answered ticket result => trivial
  | _ => cases h

/-- An exit was just carried out and acknowledged. -/
def ExitAcknowledged (history : List Effect) : Prop :=
  ∃ p sink, p.command = .exit ∧
    [.served p, .entered .stopped sink, .answered p.ticket (.ok (.acknowledged "exit"))] <:+ history

namespace Engine

variable {χ : Type}

/-- How the suspended call returns. -/
inductive Returns (call : LineCall χ) (e : Engine χ) (o : Outcome χ) : Resume → Prop
  | resumed {p} (waiting : e.slot = some p) (command : p.command = .resume)
      (runs : o.engine.runState = .running) (no_step : o.engine.step = none)
      (effects : o.effects = departure p .running e.sink "continue run" .go) :
      Returns call e o .go
  | stepped {p kind} (waiting : e.slot = some p) (command : p.command.stepKind? = some kind)
      (runs : o.engine.runState = .running)
      (steps : o.engine.step = some ⟨kind, call.callDepth⟩)
      (effects : o.effects = departure p .running e.sink (stepText kind) (.step kind)) :
      Returns call e o (.step kind)
  | exited {p} (waiting : e.slot = some p) (command : p.command = .exit)
      (ended : o.engine.runState = .stopped)
      (effects : o.effects = departure p .stopped e.sink "exit" .exit) :
      Returns call e o .exit
  /-- The session was ended from outside. -/
  | released (ended : e.runState = .stopped ∧ o.engine.runState = .stopped)
      (effects : o.effects = [.resumed .go]) : Returns call e o .go

variable {e : Engine χ} {a : Action χ} {o : Outcome χ}

/-- What happens when a call returns. -/
theorem Returns.effects_eq {call : LineCall χ} {outcome : Resume} (h : Returns call e o outcome) :
    (∃ p state text, p.command.outcome? = some outcome ∧
      o.effects = departure p state e.sink text outcome) ∨
      e.runState = .stopped ∧ o.effects = [.resumed outcome] := by
  cases h with
  | resumed _ command _ _ effects =>
    exact .inl ⟨_, _, _, by rw [command]; rfl, effects⟩
  | @stepped p kind _ command _ _ effects =>
    refine .inl ⟨p, _, _, ?_, effects⟩
    cases hc : p.command with
    | stepInto | stepOver | stepOut =>
      rw [hc] at command
      cases command
      rfl
    | _ => rw [hc] at command; cases command
  | exited _ command _ effects =>
    exact .inl ⟨_, _, _, by rw [command]; rfl, effects⟩
  | released ended effects => exact .inr ⟨ended.1, effects⟩

theorem Returns.resumed_mem_iff {call : LineCall χ} {outcome outcome' : Resume}
    (h : Returns call e o outcome) : .resumed outcome' ∈ o.effects ↔ outcome' = outcome := by
  rcases h.effects_eq with ⟨p, state, text, _, effects⟩ | ⟨_, effects⟩
  · rw [effects, resumed_mem_departure]
  · rw [effects]
    simp

theorem Returns.outcome?_of_served {call : LineCall χ} {outcome : Resume} {p : PendingCommand}
    (h : Returns call e o outcome) (hserved : .served p ∈ o.effects) :
    p.command.outcome? = some outcome := by
  rcases h.effects_eq with ⟨p', state, text, hleaves, effects⟩ | ⟨_, effects⟩
  · rw [effects, served_mem_departure] at hserved
    rw [hserved]
    exact hleaves
  · rw [effects] at hserved
    simp at hserved

/-! ### One action -/

theorem returns_of_resumption {call : LineCall χ} {p : PendingCommand} {step : Option PendingStep}
    {text : String} {outcome : Resume} (waiting : e.slot = some p)
    (resumes : resumption? call p.command = some (step, text, outcome))
    (runs : o.engine.runState = .running) (hstep : o.engine.step = step)
    (effects : o.effects = departure p .running e.sink text outcome) :
    Returns call e o outcome := by
  cases hc : p.command with
  | resume =>
    rw [hc] at resumes
    cases resumes
    exact .resumed waiting hc runs hstep effects
  | stepInto | stepOver | stepOut =>
    rw [hc] at resumes
    cases resumes
    exact .stepped waiting (by rw [hc]; rfl) runs hstep effects
  | _ => rw [hc] at resumes; cases resumes

/-- **In every action the suspended call returns in one of the ways, or it stays
    inside**, and then only the end of the session changes the run state. -/
theorem Transition.returns_or_stays (h : e.Coherent) (t : Transition e a o) :
    (∃ call outcome, e.service.call? = some call ∧ o.engine.service = .absent ∧
      Returns call e o outcome) ∨
    (∀ x ∈ o.effects, x.LetsStay) ∧ ∀ call, e.service.call? = some call →
      o.engine.service.call? = some call ∧
        o.engine.runState = (if a.endsSession then .stopped else e.runState) := by
  have hready {call call' : LineCall χ} (ready : e.service.ready? = some call)
      (inside : e.service.call? = some call') : call = call' :=
    Option.some.inj ((Service.call?_of_ready? ready).symm.trans inside)
  cases t with
  | leave ready ended =>
    exact .inl ⟨_, _, Service.call?_of_ready? ready, rfl, .released ⟨ended, ended⟩ rfl⟩
  | resume ready _ waiting resumes =>
    exact .inl ⟨_, _, Service.call?_of_ready? ready, rfl,
      returns_of_resumption waiting resumes rfl rfl rfl⟩
  | exit ready _ waiting exits =>
    exact .inl ⟨_, _, Service.call?_of_ready? ready, rfl, .exited waiting exits rfl rfl⟩
  | sleep | noAssembly | set | setSink | setListener | pass =>
    exact .inr ⟨by simp [Effect.LetsStay], fun call inside => ⟨inside, rfl⟩⟩
  | refuse no_stop | edit no_stop | accept no_stop =>
    refine .inr ⟨by simp [Effect.LetsStay], fun call inside => ?_⟩
    rw [if_neg fun ends => no_stop ((Action.endsSession_submit _ _).mp ends)]
    exact ⟨by simpa using inside, rfl⟩
  | shutDown ends =>
    refine .inr ⟨fun x hx => ?_, fun call inside => ?_⟩
    · rcases List.mem_cons.mp hx with rfl | hx
      · trivial
      · exact Effect.letsStay_of_isAnswer (isAnswer_shutDown e.slot a x hx)
    · rw [if_pos ends]
      exact ⟨by simpa using inside, rfl⟩
  | stopAgain ends ended =>
    refine .inr ⟨fun x hx => ?_, fun call inside => ?_⟩
    · exact Effect.letsStay_of_isAnswer (a.isAnswer_acknowledgement x hx)
    · rw [if_pos ends]
      exact ⟨by simpa using inside, ended⟩
  | suspend running =>
    refine .inr ⟨by simp [Effect.LetsStay], fun call inside => ?_⟩
    exact absurd running (h.not_running_of_call inside)
  | park ready =>
    refine .inr ⟨by simp, fun call inside => ?_⟩
    cases hready ready inside
    exact ⟨rfl, rfl⟩
  | assemble ready _ _ reads =>
    refine .inr ⟨by simp [Effect.LetsStay, reads, Command.outcome?], fun call inside => ?_⟩
    cases hready ready inside
    exact ⟨rfl, rfl⟩
  | serveEdit ready _ _ edits =>
    have hedit := Command.outcome?_of_edit edits
    refine .inr ⟨by simp [Effect.LetsStay, hedit], fun call inside => ?_⟩
    cases hready ready inside
    exact ⟨rfl, rfl⟩
  | finishAssembly assembling =>
    refine .inr ⟨by simp [Effect.LetsStay], fun call inside => ?_⟩
    rw [assembling] at inside
    exact ⟨inside, rfl⟩

theorem Transition.returns {outcome : Resume} (h : e.Coherent) (t : Transition e a o)
    (hreturns : .resumed outcome ∈ o.effects) :
    ∃ call, e.service.call? = some call ∧ o.engine.service = .absent ∧
      Returns call e o outcome := by
  rcases t.returns_or_stays h with ⟨call, outcome', inside, habsent, hway⟩ | ⟨hnone, _⟩
  · cases hway.resumed_mem_iff.mp hreturns
    exact ⟨call, inside, habsent, hway⟩
  · exact (hnone _ hreturns).elim

theorem Transition.returns_of_served {p : PendingCommand} {outcome : Resume} (h : e.Coherent)
    (t : Transition e a o) (hserved : .served p ∈ o.effects)
    (hleaves : p.command.outcome? = some outcome) : .resumed outcome ∈ o.effects := by
  rcases t.returns_or_stays h with ⟨call, outcome', _, _, hway⟩ | ⟨hnone, _⟩
  · apply hway.resumed_mem_iff.mpr
    exact Option.some.inj (hleaves.symm.trans (hway.outcome?_of_served hserved))
  · have hstays : p.command.outcome? = none := hnone _ hserved
    rw [hleaves] at hstays
    cases hstays

theorem Transition.stays (h : e.Coherent) {call : LineCall χ} (t : Transition e a o)
    (inside : e.service.call? = some call) (hstays : ∀ outcome, .resumed outcome ∉ o.effects) :
    o.engine.service.call? = some call ∧
      o.engine.runState = (if a.endsSession then .stopped else e.runState) := by
  rcases t.returns_or_stays h with ⟨_, outcome, _, _, hway⟩ | ⟨_, hkeeps⟩
  · exact absurd (hway.resumed_mem_iff.mpr rfl) (hstays outcome)
  · exact hkeeps call inside

/-! ### While a call is inside -/

/-- As long as the call does not return it stays inside, and it carries out nothing
    that would let it go. -/
theorem run_stays {e : Engine χ} (h : e.Coherent) {call : LineCall χ}
    (inside : e.service.call? = some call) (during : List (Action χ))
    (hstays : ∀ outcome, .resumed outcome ∉ (e.run during).effects) :
    (e.run during).engine.service.call? = some call ∧
      (e.run during).engine.runState =
        (if during.any Action.endsSession then .stopped else e.runState) ∧
      ∀ p ∈ servedCommands (e.run during).effects, p.command.outcome? = none := by
  induction during generalizing e with
  | nil => exact ⟨inside, rfl, by simp⟩
  | cons a during ih =>
    have t := act_transition h a
    simp only [run_cons, List.mem_append, not_or] at hstays
    obtain ⟨hcall, hstate⟩ := t.stays h inside fun outcome => (hstays outcome).1
    obtain ⟨hlater, hlaterState, hserved⟩ :=
      ih (t.coherent h) hcall fun outcome => (hstays outcome).2
    refine ⟨hlater, ?_, fun p hp => ?_⟩
    · rw [run_cons, hlaterState, hstate, List.any_cons]
      cases a.endsSession <;> simp
    · rw [run_cons, servedCommands_append] at hp
      rcases List.mem_append.mp hp with hp | hp
      · rw [Option.eq_none_iff_forall_ne_some]
        intro outcome hleaves
        exact (hstays outcome).1 (t.returns_of_served h (mem_servedCommands.mp hp) hleaves)
      · exact hserved p hp

/-- **Commands that do not let the call go leave the interpreter suspended**, as many
    as there may be. -/
theorem run_lasts {e : Engine χ} (h : e.Coherent) {call : LineCall χ}
    (inside : e.service.call? = some call) (suspended : e.runState = .suspended)
    (during : List (Action χ)) (hopen : ∀ a ∈ during, a.endsSession = false)
    (hserved : ∀ p ∈ servedCommands (e.run during).effects, p.command.outcome? = none) :
    (∀ outcome, .resumed outcome ∉ (e.run during).effects) ∧
      (e.run during).engine.runState = .suspended := by
  induction during generalizing e with
  | nil => exact ⟨by simp, suspended⟩
  | cons a during ih =>
    have t := act_transition h a
    obtain ⟨ha, hrest⟩ := List.forall_mem_cons.mp hopen
    simp only [run_cons, servedCommands_append, List.forall_mem_append] at hserved
    have hstays (outcome : Resume) : .resumed outcome ∉ (e.act a).effects := by
      intro hreturns
      obtain ⟨_, _, _, hway⟩ := t.returns h hreturns
      rcases hway.effects_eq with ⟨p, state, text, hleaves, heffects⟩ | ⟨hended, _⟩
      · have hp : .served p ∈ (e.act a).effects := by
          rw [heffects]
          simp
        rw [hserved.1 p (mem_servedCommands.mpr hp)] at hleaves
        cases hleaves
      · rw [suspended] at hended
        cases hended
    obtain ⟨hcall, hstate⟩ := t.stays h inside hstays
    rw [ha, if_neg Bool.false_ne_true, suspended] at hstate
    obtain ⟨hlater, hlast⟩ := ih (t.coherent h) hcall hstate hrest hserved.2
    refine ⟨fun outcome => ?_, hlast⟩
    rw [run_cons, List.mem_append, not_or]
    exact ⟨hstays outcome, hlater outcome⟩

/-- What a run is that begins with a call that suspends the interpreter. -/
theorem run_of_entering {e : Engine χ} {call : LineCall χ} {reason : StopReason}
    (running : e.runState = .running) (because : e.reason? call = some reason)
    (during : List (Action χ)) :
    let entered := (e.act (.onLine call)).engine
    let s := e.run (.onLine call :: during)
    entered.service.call? = some call ∧ entered.runState = .suspended ∧
      (∀ outcome, .resumed outcome ∈ s.effects ↔
        .resumed outcome ∈ (entered.run during).effects) ∧
      servedCommands s.effects = servedCommands (entered.run during).effects := by
  have hact : e.act (.onLine call) = _ := onLine_of_some running because
  simp [run_cons, hact, Service.call?, Effect.served?]

/-- A call that is inside after the end of the session, and takes no snapshot, leaves
    when it looks. -/
theorem serve_of_ended {e : Engine χ} (h : e.Coherent) (hattended : e.Attended)
    {call : LineCall χ} (inside : e.service.call? = some call) (ended : e.runState = .stopped)
    (hfree : ∀ ticket, e.service ≠ .assembling call ticket) :
    e.act .serve = ⟨{ e with service := .absent }, [.resumed .go]⟩ := by
  suffices hinside : e.service = .awake call ∨ ∃ notified, e.service = .parked call notified from
    serve_of_stopped h hattended ended hinside
  cases hservice : e.service with
  | absent => rw [hservice] at inside; cases inside
  | awake call' =>
    rw [hservice] at inside
    cases inside
    exact .inl rfl
  | parked call' notified =>
    rw [hservice] at inside
    cases inside
    exact .inr ⟨notified, rfl⟩
  | assembling call' ticket =>
    rw [hservice] at inside
    cases inside
    exact absurd hservice (hfree ticket)

/-- What is true as long as the call is inside that suspended the interpreter, after the
    actions `during`. -/
structure Inside (call : LineCall χ) (during : List (Action χ)) (s : Outcome χ) : Prop where
  inside : s.engine.service.call? = some call
  runState : s.engine.runState = if during.any Action.endsSession then .stopped else .suspended
  commands : ∀ p ∈ servedCommands s.effects, p.command.outcome? = none
  /-- A command that lets it go does so at once. -/
  leaves : ∀ a p outcome, .served p ∈ (s.engine.act a).effects → p.command.outcome? = some outcome →
    .resumed outcome ∈ (s.engine.act a).effects
  returns : ∀ a outcome, .resumed outcome ∈ (s.engine.act a).effects →
    (s.engine.act a).engine.service = .absent ∧ Returns call s.engine (s.engine.act a) outcome
  /-- After the end of the session it returns when it looks. -/
  released : s.engine.runState = .stopped → (∀ ticket, s.engine.service ≠ .assembling call ticket) →
    s.engine.act .serve = ⟨{ s.engine with service := .absent }, [.resumed .go]⟩

/-- **A call that suspends the interpreter is inside until it returns.** -/
theorem run_inside {e : Engine χ} (h : e.Coherent) (hattended : e.Attended) {call : LineCall χ}
    {reason : StopReason} (running : e.runState = .running) (because : e.reason? call = some reason)
    (during : List (Action χ))
    (hstays : ∀ outcome, .resumed outcome ∉ (e.run (.onLine call :: during)).effects) :
    Inside call during (e.run (.onLine call :: during)) := by
  obtain ⟨hcall, hsuspended, hreturns, hserved⟩ := run_of_entering running because during
  have hentered : (e.act (.onLine call)).engine.Coherent := (act_transition h _).coherent h
  have hs : (e.run (.onLine call :: during)).engine.Coherent :=
    run_coherent h (.onLine call :: during)
  obtain ⟨hinside, hstate, hcommands⟩ := run_stays hentered hcall during fun outcome hreturn =>
    hstays outcome ((hreturns outcome).mpr hreturn)
  rw [hsuspended] at hstate
  refine ⟨hinside, hstate, hserved ▸ hcommands, ?_, ?_, ?_⟩
  · intro a p outcome hp hleaves
    exact (act_transition hs a).returns_of_served hs hp hleaves
  · intro a outcome hreturn
    obtain ⟨call', hinside', habsent, hway⟩ := (act_transition hs a).returns hs hreturn
    cases Option.some.inj (hinside.symm.trans hinside')
    exact ⟨habsent, hway⟩
  · intro ended hfree
    exact serve_of_ended hs (hattended.run h (.onLine call :: during)) hinside ended hfree

/-! ### Exits -/

theorem Transition.exits (h : e.Coherent) (t : Transition e a o)
    (hexit : .resumed .exit ∈ o.effects) :
    ∃ p, p.command = .exit ∧ o.engine.runState = .stopped ∧
      o.effects = departure p .stopped e.sink "exit" .exit := by
  obtain ⟨_, _, _, hway⟩ := t.returns h hexit
  cases hway with
  | exited _ command ended effects => exact ⟨_, command, ended, effects⟩

/-- What the effects so far say of exits. -/
structure Exited (past : List Effect) (e : Engine χ) : Prop where
  ended : .resumed .exit ∈ past → e.runState = .stopped
  served : ∀ p, .served p ∈ past → p.command = .exit →
    .resumed .exit ∈ past ∧ .answered p.ticket (.ok (.acknowledged "exit")) ∈ past
  acknowledged : Throughout (fun before x => x = .resumed .exit → ExitAcknowledged before) past
  aftermath : Throughout (fun before x => .resumed .exit ∈ before → x.IsAftermath) past

namespace Exited

variable {past : List Effect}

theorem step_ended (h : e.Coherent) (hpast : Exited past e) (t : Transition e a o) :
    .resumed .exit ∈ past ++ o.effects → o.engine.runState = .stopped := by
  intro hexit
  rcases List.mem_append.mp hexit with hexit | hexit
  · exact (t.settled (hpast.ended hexit)).1.ended
  · obtain ⟨_, _, ended, _⟩ := t.exits h hexit
    exact ended

theorem step_served (h : e.Coherent) (hpast : Exited past e) (t : Transition e a o) :
    ∀ p, .served p ∈ past ++ o.effects → p.command = .exit →
      .resumed .exit ∈ past ++ o.effects ∧
        .answered p.ticket (.ok (.acknowledged "exit")) ∈ past ++ o.effects := by
  intro p hserved hcommand
  rcases List.mem_append.mp hserved with hserved | hserved
  · obtain ⟨hexit, hanswer⟩ := hpast.served p hserved hcommand
    exact ⟨List.mem_append_left _ hexit, List.mem_append_left _ hanswer⟩
  · have hleaves : p.command.outcome? = some .exit := by rw [hcommand]; rfl
    have hexit := t.returns_of_served h hserved hleaves
    obtain ⟨p', _, _, heffects⟩ := t.exits h hexit
    rw [heffects] at hserved ⊢
    cases served_mem_departure.mp hserved
    exact ⟨by simp, by simp [departure]⟩

theorem step_acknowledged (h : e.Coherent) (hpast : Exited past e) (t : Transition e a o) :
    Throughout (fun before x => x = .resumed .exit → ExitAcknowledged before)
      (past ++ o.effects) := by
  refine (throughout_append _ past o.effects).mpr ⟨hpast.acknowledged, ?_⟩
  by_cases hexit : .resumed .exit ∈ o.effects
  · obtain ⟨p, hcommand, _, heffects⟩ := t.exits h hexit
    rw [heffects]
    simp only [departure, throughout_cons, throughout_nil, reduceCtorEq, false_implies, true_and,
      and_true]
    intro _
    exact ⟨p, e.sink, hcommand, past, rfl⟩
  · apply throughout_of_forall
    rintro x hx before rfl
    exact absurd hx hexit

theorem step_aftermath (h : e.Coherent) (hpast : Exited past e) (t : Transition e a o) :
    Throughout (fun before x => .resumed .exit ∈ before → x.IsAftermath) (past ++ o.effects) := by
  refine (throughout_append _ past o.effects).mpr ⟨hpast.aftermath, ?_⟩
  by_cases hold : .resumed .exit ∈ past
  · obtain ⟨_, heffects, _⟩ := t.settled (hpast.ended hold)
    exact throughout_of_forall fun x hx _ _ => heffects x hx
  by_cases hnew : .resumed .exit ∈ o.effects
  · -- the return is the last effect of the action
    obtain ⟨p, _, _, heffects⟩ := t.exits h hnew
    rw [heffects]
    simp [departure, hold]
  · intro before x after hsplit hmem
    rcases List.mem_append.mp hmem with hmem | hmem
    · exact absurd hmem hold
    · exact absurd (by rw [hsplit]; exact List.mem_append_left _ hmem) hnew

theorem step (h : e.Coherent) (hpast : Exited past e) (t : Transition e a o) :
    Exited (past ++ o.effects) o.engine where
  ended := hpast.step_ended h t
  served := hpast.step_served h t
  acknowledged := hpast.step_acknowledged h t
  aftermath := hpast.step_aftermath h t

end Exited

theorem run_exited (source : Source) (config : Config) (actions : List (Action χ)) :
    Exited ((ofSource source config).run actions).effects
      ((ofSource source config).run actions).engine :=
  ofSource_run_induction source config ⟨by simp, by simp, throughout_nil _, throughout_nil _⟩
    (fun h hpast t => hpast.step h t) actions

end Engine

/-! ### The future of an exit -/

variable {χ : Type}

/-- The future of an exit gets the acknowledgement and nothing else. -/
theorem exit_delivered (source : Source) (config : Config) (moves : List (Move χ)) :
    let log := ((Rendezvous.ofSource source config : Rendezvous χ).play moves).2
    (.caused (.resumed .exit) ∈ log → ∃ ticket, .caused (.served ⟨.exit, ticket⟩) ∈ log) ∧
    ∀ ticket, .caused (.served ⟨.exit, ticket⟩) ∈ log →
      .caused (.resumed .exit) ∈ log ∧
        deliveries ticket log = [.ok (.acknowledged "exit")] := by
  intro log
  have hkept := run_kept source config moves
  obtain ⟨actions, _, heffects⟩ :=
    (Rendezvous.ofSource source config : Rendezvous χ).play_engine moves
  have hexited : Engine.Exited (log.filterMap Entry.caused?) _ :=
    heffects ▸ Engine.run_exited source config actions
  constructor
  · intro hexit
    obtain ⟨before, after, hsplit⟩ := List.append_of_mem (mem_filterMap_caused.mpr hexit)
    obtain ⟨⟨command, ticket⟩, sink, rfl, hsuffix⟩ :=
      hexited.acknowledged before _ after hsplit rfl
    have hserved : .served ⟨.exit, ticket⟩ ∈ before := hsuffix.subset List.mem_cons_self
    refine ⟨ticket, mem_filterMap_caused.mp ?_⟩
    rw [hsplit]
    exact List.mem_append_left _ hserved
  · intro ticket hserved
    obtain ⟨hexit, hanswer⟩ := hexited.served _ (mem_filterMap_caused.mpr hserved) rfl
    exact ⟨mem_filterMap_caused.mp hexit, hkept.deliveries_eq (mem_filterMap_caused.mp hanswer)⟩

/-! ### The way out -/

/-- **A call returns by its cause, and says which.**  A call that comes while the script
    does not run, or has no cause to suspend the interpreter, returns at once and
    changes nothing.  Any other call stays inside until a command lets it go or the
    session is ended from outside, and returns what `Returns` says; edits of
    breakpoints and snapshots, as many as there may be, leave the interpreter
    suspended.  An exit is returned once in a session, by the call that carried it
    out, its controller gets the acknowledgement, and no call after it suspends the
    interpreter. -/
theorem Engine.calls_return_by_their_cause (source : Source) (config : Config)
    (past : List (Action χ)) :
    let o := (ofSource source config : Engine χ).run past
    let e := o.engine
    -- calls that have no cause
    (∀ call, e.runState ≠ .running ∨ e.reason? call = none →
      e.act (.onLine call) = ⟨e, [.passed]⟩) ∧
    -- a call that suspends the interpreter, up to its return
    (∀ call reason during, e.runState = .running → e.reason? call = some reason →
      let s := e.run (.onLine call :: during)
      ((∀ outcome, .resumed outcome ∉ s.effects) → Inside call during s) ∧
      -- what does not let it go
      ((∀ a ∈ during, a.endsSession = false) →
        (∀ p ∈ servedCommands s.effects, p.command.outcome? = none) →
        (∀ outcome, .resumed outcome ∉ s.effects) ∧ s.engine.runState = .suspended)) ∧
    -- exits
    (∀ before after, o.effects = before ++ .resumed .exit :: after →
      ExitAcknowledged before ∧ .resumed .exit ∉ before ∧ ∀ x ∈ after, x.IsAftermath) ∧
    (.resumed .exit ∈ o.effects →
      e.runState = .stopped ∧ ∀ call, e.act (.onLine call) = ⟨e, [.passed]⟩) ∧
    ∀ moves,
      let log := ((Rendezvous.ofSource source config : Rendezvous χ).play moves).2
      (.caused (.resumed .exit) ∈ log → ∃ ticket, .caused (.served ⟨.exit, ticket⟩) ∈ log) ∧
      ∀ ticket, .caused (.served ⟨.exit, ticket⟩) ∈ log →
        .caused (.resumed .exit) ∈ log ∧
          deliveries ticket log = [.ok (.acknowledged "exit")] := by
  intro o e
  have h : e.Coherent := run_coherent (ofSource_coherent source config) past
  have hexited : Exited o.effects e := run_exited source config past
  have hpasses (call : LineCall χ) (hcause : e.runState ≠ .running ∨ e.reason? call = none) :
      e.act (.onLine call) = ⟨e, [.passed]⟩ := by
    by_cases running : e.runState = .running
    · exact onLine_of_none running (hcause.resolve_left fun hne => hne running)
    · exact onLine_of_not_running running call
  refine ⟨hpasses, ?_, ?_, ?_, exit_delivered source config⟩
  · intro call reason during running because s
    refine ⟨run_inside h (run_attended source config past) running because during, ?_⟩
    intro hopen hcommands
    obtain ⟨hcall, hsuspended, hreturns, hserved⟩ := run_of_entering running because during
    have hentered : (e.act (.onLine call)).engine.Coherent := (act_transition h _).coherent h
    obtain ⟨hstays, hlast⟩ :=
      run_lasts hentered hcall hsuspended during hopen (hserved ▸ hcommands)
    exact ⟨fun outcome hreturn => hstays outcome ((hreturns outcome).mp hreturn), hlast⟩
  · intro before after hsplit
    refine ⟨hexited.acknowledged before _ after hsplit rfl, fun hearlier => ?_, fun x hx => ?_⟩
    · exact hexited.aftermath before _ after hsplit hearlier
    · obtain ⟨between, rest, rfl⟩ := List.append_of_mem hx
      refine hexited.aftermath (before ++ .resumed .exit :: between) x rest ?_ (by simp)
      rw [hsplit]
      simp
  · intro hexit
    have ended := hexited.ended hexit
    refine ⟨ended, fun call => hpasses call (.inl ?_)⟩
    rw [ended]
    decide

-- An edit and a snapshot leave the call inside, and a step out lets it go.
example (view : View Unit) :
    let o := (Engine.ofSource (.ofLineCount "main" 3) {} : Engine Unit).run
      [.setBreakpoint 1 true, .onLine ⟨1, 2, ()⟩, .submit 0 (.toggleMute true), .serve,
        .submit 1 .getVariables, .serve, .finishAssembly view, .submit 2 .stepOut, .serve]
    o.engine.step = some ⟨.out, 2⟩ ∧ o.effects.getLast? = some (.resumed (.step .out)) :=
  ⟨rfl, rfl⟩

end ScriptDebugger
