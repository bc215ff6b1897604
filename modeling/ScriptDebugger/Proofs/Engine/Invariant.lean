/-
  ScriptDebugger/Proofs/Engine/Invariant.lean
  ===========================================
  **What is true of every run.**

  What every case of `Transition` keeps is true of every run, by induction on the
  actions (`run_induction`).  A property may speak of the effects of the run so far,
  so it can tell what happened and in which order.  Nothing after this module
  unfolds an operation of the engine.
-/
import ScriptDebugger.Proofs.Engine.Transition

namespace ScriptDebugger

namespace Engine

variable {χ : Type}

/-! ### Runs -/

@[simp] theorem run_nil (e : Engine χ) : e.run [] = ⟨e, []⟩ := rfl

theorem run_cons (e : Engine χ) (a : Action χ) (actions : List (Action χ)) :
    e.run (a :: actions) =
      ⟨((e.act a).engine.run actions).engine,
        (e.act a).effects ++ ((e.act a).engine.run actions).effects⟩ := rfl

theorem run_append (e : Engine χ) (actions later : List (Action χ)) :
    e.run (actions ++ later) =
      ⟨((e.run actions).engine.run later).engine,
        (e.run actions).effects ++ ((e.run actions).engine.run later).effects⟩ := by
  induction actions generalizing e with
  | nil => rfl
  | cons a actions ih => rw [List.cons_append, run_cons, run_cons, ih, List.append_assoc]

/-- What a run causes is caused by one of its actions. -/
theorem exists_act_of_mem_run {e : Engine χ} {actions : List (Action χ)} {x : Effect}
    (hx : x ∈ (e.run actions).effects) :
    ∃ before a rest, actions = before ++ a :: rest ∧ x ∈ ((e.run before).engine.act a).effects := by
  induction actions generalizing e with
  | nil => cases hx
  | cons a actions ih =>
    rw [run_cons] at hx
    rcases List.mem_append.mp hx with hx | hx
    · exact ⟨[], a, actions, rfl, hx⟩
    · obtain ⟨before, b, rest, hsplit, hb⟩ := ih hx
      exact ⟨a :: before, b, rest, by rw [hsplit]; rfl, hb⟩

theorem run_coherent {e : Engine χ} (h : e.Coherent) (actions : List (Action χ)) :
    (e.run actions).engine.Coherent := by
  induction actions generalizing e with
  | nil => exact h
  | cons a actions ih => exact ih ((act_transition h a).coherent h)

/-- Snapshots are always taken in the same way. -/
theorem run_assembler {e : Engine χ} (h : e.Coherent) (actions : List (Action χ)) :
    (e.run actions).engine.assembler = e.assembler := by
  induction actions generalizing e with
  | nil => rfl
  | cons a actions ih =>
    have t := act_transition h a
    exact (ih (t.coherent h)).trans t.assembler

/-- **A relation between the effects so far and the engine that every case of some
    actions keeps is true of every run of such actions.** -/
theorem run_induction_on {P : List Effect → Engine χ → Prop} {Q : Action χ → Prop}
    (hstep : ∀ {past e a o}, e.Coherent → P past e → Q a → Transition e a o →
      P (past ++ o.effects) o.engine)
    {e : Engine χ} (h : e.Coherent) {past : List Effect} (hpast : P past e)
    (actions : List (Action χ)) (hactions : ∀ a ∈ actions, Q a) :
    P (past ++ (e.run actions).effects) (e.run actions).engine := by
  induction actions generalizing e past with
  | nil => simpa using hpast
  | cons a actions ih =>
    have ht := act_transition h a
    obtain ⟨ha, hrest⟩ := List.forall_mem_cons.mp hactions
    rw [run_cons, ← List.append_assoc]
    exact ih (ht.coherent h) (hstep h hpast ha ht) hrest

/-- **A relation between the effects so far and the engine that every case keeps
    is true of every run.** -/
theorem run_induction {P : List Effect → Engine χ → Prop}
    (hstep : ∀ {past e a o}, e.Coherent → P past e → Transition e a o →
      P (past ++ o.effects) o.engine)
    {e : Engine χ} (h : e.Coherent) {past : List Effect} (hpast : P past e)
    (actions : List (Action χ)) :
    P (past ++ (e.run actions).effects) (e.run actions).engine :=
  run_induction_on (Q := fun _ => True) (fun h hpast _ t => hstep h hpast t) h hpast actions
    fun _ _ => trivial

/-- **Who does not hold a place and is never given it is shown nothing**, if this is so
    in one action. -/
theorem run_unaddressed {β : Type} (holder : Engine χ → Option Nat) (shown : Effect → Option β)
    {other : Nat} {installs : Action χ}
    (hstep : ∀ {e a o}, Transition e a o → a ≠ installs → holder e ≠ some other →
      holder o.engine ≠ some other ∧ o.effects.filterMap shown = [])
    {e : Engine χ} (h : e.Coherent) (hother : holder e ≠ some other) (actions : List (Action χ))
    (hinstalls : installs ∉ actions) : (e.run actions).effects.filterMap shown = [] := by
  have hstart : holder e ≠ some other ∧ ([] : List Effect).filterMap shown = [] := ⟨hother, rfl⟩
  have hkept := run_induction_on (Q := fun a => a ≠ installs)
    (P := fun past e => holder e ≠ some other ∧ past.filterMap shown = []) ?_ h hstart actions
    fun a ha heq => hinstalls (heq ▸ ha)
  · exact hkept.2
  · rintro past e a o _ ⟨hholder, hpast⟩ hne t
    obtain ⟨hnext, hnone⟩ := hstep t hne hholder
    exact ⟨hnext, by rw [List.filterMap_append, hpast, hnone, List.append_nil]⟩

/-! ### The beginning -/

/-- Edits of several lines touch the flags only. -/
theorem setupBreakpoints_engine (e : Engine χ) (lines : List (UInt32 × Bool)) :
    ∃ table : Breakpoints, table.source = e.breakpoints.source ∧
      (e.setupBreakpoints lines).1 = { e with breakpoints := table } := by
  induction lines generalizing e with
  | nil => exact ⟨e.breakpoints, rfl, rfl⟩
  | cons entry lines ih =>
    obtain ⟨line, enabled⟩ := entry
    obtain ⟨table, hsource, htable⟩ := ih (e.setBreakpoint line enabled).1
    rw [setBreakpoint_engine] at hsource htable
    refine ⟨table, hsource.trans (Breakpoints.attempt_source _ line enabled), ?_⟩
    simp only [setupBreakpoints]
    rw [setBreakpoint_engine, htable]

/-- At the beginning the script runs and nothing is pending. -/
theorem ofSource_eq (source : Source) (config : Config) :
    ∃ table : Breakpoints, table.source = source ∧
      (ofSource source config : Engine χ) =
        { breakpoints := table
          assembler := config.assembler
          runState := .running
          muted := config.muteBreakpoints
          slot := none
          step := none
          lastStop := none
          listener := none
          sink := none
          service := .absent } := by
  obtain ⟨table, hsource, htable⟩ := setupBreakpoints_engine (χ := χ)
    { breakpoints := .ofSource source
      assembler := config.assembler
      runState := .running
      muted := config.muteBreakpoints
      slot := none
      step := none
      lastStop := none
      listener := none
      sink := none
      service := .absent }
    config.breakpoints.entries
  exact ⟨table, hsource, htable⟩

theorem ofSource_start (source : Source) (config : Config) :
    let e : Engine χ := ofSource source config
    e.runState = .running ∧ e.slot = none ∧ e.step = none ∧ e.service = .absent := by
  obtain ⟨table, _, he⟩ := ofSource_eq (χ := χ) source config
  rw [he]
  exact ⟨rfl, rfl, rfl, rfl⟩

theorem ofSource_source (source : Source) (config : Config) :
    (ofSource source config : Engine χ).breakpoints.source = source := by
  obtain ⟨table, hsource, he⟩ := ofSource_eq (χ := χ) source config
  rw [he]
  exact hsource

theorem ofSource_assembler (source : Source) (config : Config) :
    (ofSource source config : Engine χ).assembler = config.assembler := by
  obtain ⟨table, _, he⟩ := ofSource_eq (χ := χ) source config
  rw [he]

theorem ofSource_coherent (source : Source) (config : Config) :
    (ofSource source config : Engine χ).Coherent := by
  obtain ⟨hrun, hslot, _, hservice⟩ := ofSource_start (χ := χ) source config
  exact .of_running hrun hslot (by rw [hservice]; rfl)

/-- **What every case keeps, and what is true of an engine at its beginning, is true
    of every run.** -/
theorem ofSource_run_induction {P : List Effect → Engine χ → Prop} (source : Source)
    (config : Config) (hstart : P [] (ofSource source config))
    (hstep : ∀ {past e a o}, e.Coherent → P past e → Transition e a o →
      P (past ++ o.effects) o.engine)
    (actions : List (Action χ)) :
    P ((ofSource source config).run actions).effects
      ((ofSource source config).run actions).engine :=
  run_induction hstep (ofSource_coherent source config) hstart actions

end Engine

end ScriptDebugger
