/-
  ScriptDebugger/Proofs/Engine/RunStates.lean
  ===========================================
  **What a sink is told.**

  A sink is told the run state when it is installed, and from then on every change.
  The run states of an engine at all moments of a run are a list of their own
  (`runStates`), in which a state that lasts stands as often as there are actions
  that leave it as it is.  What the sink is told is this list with the repetitions
  dropped (`List.destutter`), so it can neither miss a change nor hear of one twice:

    * `Transition.runState` — an action leaves the run state alone or changes it
      once, along one of the four edges of `Leads`, and tells the sink just then;
    * `told_of_sink` — the same for a run in which no other sink is installed;
    * `silent_of_replaced` — who is not the sink is told nothing.
-/
import Mathlib.Data.List.Destutter
import ScriptDebugger.Proofs.Engine.Invariant
import ScriptDebugger.Proofs.History

namespace ScriptDebugger

/-- The changes of the run state. -/
inductive RunState.Leads : RunState → RunState → Prop
  | suspension : Leads .running .suspended
  | resumption : Leads .suspended .running
  | end_running : Leads .running .stopped
  | end_suspended : Leads .suspended .stopped

theorem RunState.Leads.ne {s s' : RunState} (h : s.Leads s') : s ≠ s' := by
  rintro rfl
  cases h

theorem RunState.leads_stopped {s : RunState} (hopen : s ≠ .stopped) : s.Leads .stopped := by
  cases s with
  | running => exact .end_running
  | suspended => exact .end_suspended
  | stopped => exact absurd rfl hopen

/-! ### What is written -/

/-- What an effect writes to a sink. -/
def Effect.writtenTo? (sink : Nat) : Effect → Option RunState
  | .entered state told => if told = some sink then some state else none
  | .attached told state => if told = sink then some state else none
  | _ => none

/-- What was written to a sink. -/
def writtenTo (sink : Nat) (history : List Effect) : List RunState :=
  history.filterMap (Effect.writtenTo? sink)

@[simp] theorem writtenTo_nil (sink : Nat) : writtenTo sink [] = [] := rfl

@[simp] theorem writtenTo_cons (sink : Nat) (x : Effect) (history : List Effect) :
    writtenTo sink (x :: history) = (x.writtenTo? sink).toList ++ writtenTo sink history :=
  filterMap_cons_toList (Effect.writtenTo? sink) x history

@[simp] theorem writtenTo_append (sink : Nat) (history rest : List Effect) :
    writtenTo sink (history ++ rest) = writtenTo sink history ++ writtenTo sink rest :=
  List.filterMap_append

theorem writtenTo_of_isAnswer (sink : Nat) {history : List Effect}
    (h : ∀ x ∈ history, x.isAnswer) : writtenTo sink history = [] :=
  filterMap_of_isAnswer (fun _ _ => rfl) h

namespace Engine

variable {χ : Type}

/-- The run states at all moments of a run. -/
def runStates (e : Engine χ) : List (Action χ) → List RunState
  | [] => [e.runState]
  | a :: actions => e.runState :: (e.act a).engine.runStates actions

/-- The run states that a run comes through. -/
def course (e : Engine χ) (actions : List (Action χ)) : List RunState :=
  (e.runStates actions).destutter (· ≠ ·)

/-! ### One action -/

/-- **An action leaves the run state alone, or changes it along an edge and tells the
    sink.** -/
theorem Transition.runState {e : Engine χ} {a : Action χ} {o : Outcome χ} (t : Transition e a o)
    (hinstalls : ∀ sink, a ≠ .setSink sink) :
    o.engine.sink = e.sink ∧
      (o.engine.runState = e.runState ∧ (∀ sink, writtenTo sink o.effects = []) ∨
        e.runState.Leads o.engine.runState ∧
          ∀ sink, writtenTo sink o.effects =
            if e.sink = some sink then [o.engine.runState] else []) := by
  cases t with
  | sleep | noAssembly | set | setListener | refuse | edit | accept | pass | park | leave
  | assemble | serveEdit | finishAssembly =>
    exact ⟨rfl, .inl ⟨rfl, by simp [Effect.writtenTo?]⟩⟩
  | setSink sink => exact absurd rfl (hinstalls sink)
  | stopAgain =>
    exact ⟨rfl, .inl ⟨rfl, fun sink => writtenTo_of_isAnswer sink a.isAnswer_acknowledgement⟩⟩
  | shutDown _ open_session =>
    refine ⟨rfl, .inr ⟨RunState.leads_stopped open_session, fun sink => ?_⟩⟩
    have hrest := writtenTo_of_isAnswer sink (isAnswer_shutDown e.slot a)
    by_cases hsink : e.sink = some sink <;> simp [Effect.writtenTo?, hsink, hrest]
  | suspend running =>
    rw [running]
    refine ⟨rfl, .inr ⟨.suspension, fun sink => ?_⟩⟩
    by_cases hsink : e.sink = some sink <;> simp [Effect.writtenTo?, hsink]
  | resume _ suspended =>
    rw [suspended]
    refine ⟨rfl, .inr ⟨.resumption, fun sink => ?_⟩⟩
    by_cases hsink : e.sink = some sink <;> simp [Effect.writtenTo?, hsink]
  | exit _ suspended =>
    rw [suspended]
    refine ⟨rfl, .inr ⟨.end_suspended, fun sink => ?_⟩⟩
    by_cases hsink : e.sink = some sink <;> simp [Effect.writtenTo?, hsink]

/-! ### Runs -/

theorem runStates_eq_cons (e : Engine χ) (actions : List (Action χ)) :
    ∃ rest, e.runStates actions = e.runState :: rest := by
  cases actions with
  | nil => exact ⟨[], rfl⟩
  | cons a actions => exact ⟨_, rfl⟩

/-- A run state that lasts does not stand twice. -/
theorem course_cons (e : Engine χ) (a : Action χ) (actions : List (Action χ)) :
    e.course (a :: actions) =
      if (e.act a).engine.runState = e.runState then (e.act a).engine.course actions
      else e.runState :: (e.act a).engine.course actions := by
  obtain ⟨rest, hrest⟩ := (e.act a).engine.runStates_eq_cons actions
  unfold course
  rw [runStates, hrest, List.destutter_cons_cons, List.destutter_cons']
  by_cases hsame : (e.act a).engine.runState = e.runState
  · rw [if_pos hsame, if_neg fun hne => hne hsame.symm, hsame]
  · rw [if_neg hsame, if_pos fun heq => hsame heq.symm]

theorem course_eq_cons (e : Engine χ) (actions : List (Action χ)) :
    ∃ rest, e.course actions = e.runState :: rest := by
  induction actions generalizing e with
  | nil => exact ⟨[], rfl⟩
  | cons a actions ih =>
    rw [course_cons]
    split
    · rename_i hsame
      rw [← hsame]
      exact ih _
    · exact ⟨_, rfl⟩

theorem act_runState {e : Engine χ} (h : e.Coherent) (a : Action χ) :
    (e.act a).engine.runState = e.runState ∨ e.runState.Leads (e.act a).engine.runState := by
  by_cases hinstalls : ∃ sink, a = .setSink sink
  · obtain ⟨sink, rfl⟩ := hinstalls
    exact .inl rfl
  · rcases ((act_transition h a).runState fun sink ha => hinstalls ⟨sink, ha⟩).2 with hsame | hleads
    · exact .inl hsame.1
    · exact .inr hleads.1

theorem isChain_course {e : Engine χ} (h : e.Coherent) (actions : List (Action χ)) :
    (e.course actions).IsChain RunState.Leads := by
  induction actions generalizing e with
  | nil => exact List.isChain_singleton _
  | cons a actions ih =>
    have hlater := ih ((act_transition h a).coherent h)
    rw [course_cons]
    rcases act_runState h a with hsame | hleads
    · rw [if_pos hsame]
      exact hlater
    · obtain ⟨rest, hrest⟩ := (e.act a).engine.course_eq_cons actions
      rw [if_neg hleads.ne.symm, hrest]
      rw [hrest] at hlater
      exact List.isChain_cons_cons.mpr ⟨hleads, hlater⟩

theorem getLast?_course (e : Engine χ) (actions : List (Action χ)) :
    (e.course actions).getLast? = some (e.run actions).engine.runState := by
  induction actions generalizing e with
  | nil => rfl
  | cons a actions ih =>
    rw [course_cons, run_cons]
    split
    · exact ih _
    · obtain ⟨rest, hrest⟩ := (e.act a).engine.course_eq_cons actions
      have hlater := ih (e.act a).engine
      rw [hrest] at hlater ⊢
      rw [List.getLast?_cons_cons, hlater]

/-- **As long as no other sink is installed, the sink is told the course of the run.** -/
theorem told_of_sink {e : Engine χ} (h : e.Coherent) {sink : Nat} (hsink : e.sink = some sink)
    (actions : List (Action χ)) (hinstalls : ∀ other, .setSink other ∉ actions) :
    e.runState :: writtenTo sink (e.run actions).effects = e.course actions := by
  induction actions generalizing e with
  | nil => rfl
  | cons a actions ih =>
    have t := act_transition h a
    obtain ⟨hkeeps, hstate⟩ := t.runState fun other ha =>
      hinstalls other (by rw [ha]; exact List.mem_cons_self)
    have hlater := ih (t.coherent h) (hkeeps.trans hsink) fun other hother =>
      hinstalls other (List.mem_cons_of_mem a hother)
    rw [course_cons, run_cons, writtenTo_append, ← hlater]
    rcases hstate with ⟨hsame, hquiet⟩ | ⟨hleads, htold⟩
    · rw [if_pos hsame, hquiet, List.nil_append, hsame]
    · rw [if_neg hleads.ne.symm, htold, if_pos hsink, List.singleton_append]

/-- **Who is not the sink is told nothing.** -/
theorem silent_of_replaced {e : Engine χ} (h : e.Coherent) {other : Nat}
    (hother : e.sink ≠ some other) (actions : List (Action χ))
    (hinstalls : .setSink other ∉ actions) : writtenTo other (e.run actions).effects = [] := by
  refine run_unaddressed Engine.sink (Effect.writtenTo? other) ?_ h hother actions hinstalls
  intro e a o t hne hsink
  by_cases hsets : ∃ sink, a = .setSink sink
  · obtain ⟨sink, rfl⟩ := hsets
    have hdiffers : sink ≠ other := fun heq => hne (heq ▸ rfl)
    cases t with
    | setSink => simp [hdiffers, Effect.writtenTo?]
    | shutDown ends | stopAgain ends => cases ends
  · obtain ⟨hkeeps, hstate⟩ := t.runState fun sink ha => hsets ⟨sink, ha⟩
    refine ⟨hkeeps ▸ hsink, ?_⟩
    rcases hstate with ⟨_, hquiet⟩ | ⟨_, htold⟩
    · exact hquiet other
    · exact (htold other).trans (if_neg hsink)

/-! ### The law -/

/-- **A sink is told every change of the run state, once and in order.**  From its
    installation to its replacement it is told the course of the run: the run state
    at its installation first, the present run state last, and in between every run
    state that was entered; each entry follows the one before it along an edge, so
    it differs from it, and nothing follows the end of the session.  Sinks that were
    replaced are told nothing. -/
theorem sink_is_told_every_change (source : Source) (config : Config)
    (past : List (Action χ)) (sink : Nat) (later : List (Action χ)) :
    let e := ((ofSource source config : Engine χ).run past).engine
    let o := e.run (.setSink sink :: later)
    let told := writtenTo sink o.effects
    -- until it is replaced
    ((∀ other, .setSink other ∉ later) →
      told = (e.runStates (.setSink sink :: later)).destutter (· ≠ ·) ∧
      told.head? = some e.runState ∧
      told.getLast? = some o.engine.runState ∧
      told.IsChain (fun s s' => s ≠ s' ∧ s.Leads s') ∧
      ∀ before after, told = before ++ .stopped :: after → after = []) ∧
    -- when it has replaced another one
    ∀ other, other ≠ sink → .setSink other ∉ later → writtenTo other o.effects = [] := by
  intro e o told
  have h : e.Coherent := run_coherent (ofSource_coherent source config) past
  have hinstalled : (e.act (.setSink sink)).engine.Coherent := (act_transition h _).coherent h
  constructor
  · intro hinstalls
    have htold : told = e.course (.setSink sink :: later) := by
      have hsame : (e.act (.setSink sink)).engine.runState = e.runState := rfl
      rw [course_cons, if_pos hsame, ← told_of_sink hinstalled rfl later hinstalls]
      simp only [told, o, run_cons, writtenTo_append]
      simp [act, setSink, Effect.writtenTo?]
    have hchain : told.IsChain RunState.Leads := htold ▸ isChain_course h _
    obtain ⟨rest, hrest⟩ := e.course_eq_cons (.setSink sink :: later)
    refine ⟨htold, by rw [htold, hrest]; rfl, by rw [htold, getLast?_course], ?_, ?_⟩
    · exact hchain.imp fun s s' hleads => ⟨hleads.ne, hleads⟩
    · intro before after hsplit
      cases after with
      | nil => rfl
      | cons next after =>
        rw [hsplit, List.isChain_append_cons_cons] at hchain
        cases hchain.2.1
  · intro other hne hinstalls
    have hsilent := silent_of_replaced hinstalled (by simpa [act, setSink] using hne.symm) later
      hinstalls
    simp only [o, run_cons, writtenTo_append, hsilent, List.append_nil]
    simp [act, setSink, Effect.writtenTo?, hne.symm]

-- A sink that comes during a suspension, and hears of the end through an exit.
example :
    let e : Engine Unit := ((ofSource (.ofLineCount "main" 3) {}).run
      [.setBreakpoint 1 true, .onLine ⟨1, 0, ()⟩]).engine
    let o := e.run [.setSink 7, .submit 0 .resume, .serve, .onLine ⟨2, 0, ()⟩, .onLine ⟨1, 0, ()⟩,
      .submit 1 .exit, .serve, .stop]
    writtenTo 7 o.effects = [.suspended, .running, .suspended, .stopped] := by
  decide

end Engine

end ScriptDebugger
