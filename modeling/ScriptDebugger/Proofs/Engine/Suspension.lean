/-
  ScriptDebugger/Proofs/Engine/Suspension.lean
  ============================================
  **Suspensions, as the effects of a run show them.**

  A suspension begins with the notice of it and ends when the call returns that
  caused it.  The engine keeps one place for a suspended call, and a second call
  that suspended the interpreter would take the place of the first; so it is not
  the state but the effects that can tell how many calls are inside.  They are
  counted here by their notices and their returns.

  `Traced` is the invariant that ties the effects so far to the state: how many
  calls are inside, where the last suspension began, and that a command which
  waits in the slot was put there during the suspension that lasts.
-/
import ScriptDebugger.Proofs.Engine.Invariant
import ScriptDebugger.Proofs.History

namespace ScriptDebugger

/-! ### Kinds of effects -/

namespace Effect

/-- Whether an effect begins a suspension. -/
def isSuspension : Effect → Bool
  | .suspended _ _ => true
  | _ => false

/-- Whether an effect begins a suspension or ends one. -/
def isBoundary : Effect → Bool
  | .suspended _ _ | .resumed _ => true
  | _ => false

/-- Whether an effect begins a suspension or ends one, or puts a command into the
    slot or takes it out to be carried out. -/
def isTurn : Effect → Bool
  | .suspended _ _ | .resumed _ | .accepted _ | .served _ => true
  | _ => false

/-- By how much an effect changes the number of suspended calls. -/
def entering : Effect → Int
  | .suspended _ _ => 1
  | .resumed _ => -1
  | _ => 0

/-- What a delivery is not. -/
theorem of_isAnswer {x : Effect} (h : x.isAnswer) :
    x.isSuspension = false ∧ x.isBoundary = false ∧ x.isTurn = false ∧ x.entering = 0 := by
  cases x with
  | answered ticket result => exact ⟨rfl, rfl, rfl, rfl⟩
  | _ => cases h

end Effect

/-! ### Counting calls -/

/-- The number of calls that suspended the interpreter and have not returned. -/
def callsInside : List Effect → Int
  | [] => 0
  | x :: history => x.entering + callsInside history

@[simp] theorem callsInside_nil : callsInside [] = 0 := rfl

@[simp] theorem callsInside_cons (x : Effect) (history : List Effect) :
    callsInside (x :: history) = x.entering + callsInside history := rfl

@[simp] theorem callsInside_append (history rest : List Effect) :
    callsInside (history ++ rest) = callsInside history + callsInside rest := by
  induction history with
  | nil => simp
  | cons x history ih => rw [List.cons_append, callsInside_cons, callsInside_cons, ih, Int.add_assoc]

theorem callsInside_of_isAnswer {history : List Effect} (h : ∀ x ∈ history, x.isAnswer) :
    callsInside history = 0 := by
  induction history with
  | nil => rfl
  | cons x history ih =>
    have hx : x.entering = 0 := (Effect.of_isAnswer (h x List.mem_cons_self)).2.2.2
    rw [callsInside_cons, hx, ih fun y hy => h y (List.mem_cons_of_mem x hy), Int.add_zero]

namespace Service

variable {χ : Type}

/-- The number of suspended calls that the state shows. -/
def calls (s : Service χ) : Int := s.call?.toList.length

@[simp] theorem calls_absent : (absent : Service χ).calls = 0 := rfl

@[simp] theorem calls_awake (call : LineCall χ) : (awake call).calls = 1 := rfl

@[simp] theorem calls_parked (call : LineCall χ) (notified : Bool) :
    (parked call notified).calls = 1 := rfl

@[simp] theorem calls_assembling (call : LineCall χ) (ticket : Nat) :
    (assembling call ticket).calls = 1 := rfl

theorem calls_of_call? {s : Service χ} {call : LineCall χ} (h : s.call? = some call) :
    s.calls = 1 := by
  simp [calls, h]

@[simp] theorem calls_wake (s : Service χ) : s.wake.calls = s.calls := by
  simp [calls]

theorem calls_zero_or_one (s : Service χ) : s.calls = 0 ∨ s.calls = 1 := by
  unfold calls
  cases s.call? with
  | none => exact .inl rfl
  | some call => exact .inr rfl

end Service

/-! ### What lasts since the last suspension began -/

/-- The interpreter was suspended by a call at the given line and call depth, and
    no suspension has begun or ended since then. -/
def SuspendedAt (line callDepth : UInt32) : List Effect → Prop :=
  Since
    (fun _ x => ∃ event listener, x = .suspended event listener ∧ event.line = line ∧
      event.callDepth = callDepth)
    (fun y => y.isBoundary)

theorem suspendedAt_append_cons_iff {line callDepth : UInt32} (before : List Effect)
    (event : StopEvent) (listener : Option Nat) (after : List Effect)
    (hafter : ∀ y ∈ after, ¬ y.isBoundary) :
    SuspendedAt line callDepth (before ++ .suspended event listener :: after) ↔
      event.line = line ∧ event.callDepth = callDepth := by
  unfold SuspendedAt
  rw [since_append_cons_iff (B := fun y => y.isBoundary = true) ?_ before rfl after hafter]
  · constructor
    · rintro ⟨_, _, h, hplace⟩
      cases h
      exact hplace
    · intro hplace
      exact ⟨event, listener, rfl, hplace⟩
  · rintro _ _ ⟨_, _, rfl, _⟩
    rfl

theorem suspendedAt_unique {history : List Effect} {line line' callDepth callDepth' : UInt32}
    (h : SuspendedAt line callDepth history) (h' : SuspendedAt line' callDepth' history) :
    line = line' ∧ callDepth = callDepth' := by
  obtain ⟨before, x, after, rfl, ⟨event, listener, rfl, hline, hdepth⟩, hafter⟩ := h
  obtain ⟨hline', hdepth'⟩ := (suspendedAt_append_cons_iff before event listener after hafter).mp h'
  exact ⟨hline ▸ hline', hdepth ▸ hdepth'⟩

/-- The command was put into the slot, and since then no suspension has begun or
    ended and the slot was not used again. -/
def AcceptedHere (p : PendingCommand) : List Effect → Prop :=
  Since (fun _ x => x = .accepted p) (fun y => y.isTurn)

namespace Engine

variable {χ : Type}

/-- An action that suspends the interpreter is a call with a cause, while the script
    runs. -/
theorem Transition.suspends_or_not {e : Engine χ} {a : Action χ} {o : Outcome χ}
    (t : Transition e a o) :
    (∀ x ∈ o.effects, x.isSuspension = false) ∨
      ∃ call reason, e.runState = .running ∧ e.reason? call = some reason ∧
        o.effects = [.entered .suspended e.sink, .suspended (e.event reason call) e.listener] := by
  cases t with
  | sleep | noAssembly | set | setSink | setListener | refuse | edit | accept | pass | park
  | leave | resume | exit | assemble | serveEdit | finishAssembly =>
    left
    simp [Effect.isSuspension]
  | shutDown =>
    left
    intro x hx
    rcases List.mem_cons.mp hx with rfl | hx
    · rfl
    · exact (Effect.of_isAnswer (isAnswer_shutDown e.slot a x hx)).1
  | stopAgain =>
    left
    intro x hx
    exact (Effect.of_isAnswer (a.isAnswer_acknowledgement x hx)).1
  | @suspend call reason running because =>
    exact .inr ⟨call, reason, running, because, rfl⟩

/-- The call that is inside after an action was inside before, and no suspension began
    or ended meanwhile, or it is the call that suspended the interpreter just now. -/
theorem Transition.inside_or_enters {e : Engine χ} {a : Action χ} {o : Outcome χ}
    {call : LineCall χ} (t : Transition e a o) (hcall : o.engine.service.call? = some call) :
    e.service.call? = some call ∧ (∀ y ∈ o.effects, y.isBoundary = false) ∨
      ∃ reason, a = .onLine call ∧
        o.effects =
          [.entered .suspended e.sink, .suspended (e.event reason call) e.listener] := by
  cases t with
  | sleep | noAssembly | set | setSink | setListener | refuse | edit | accept | pass =>
    exact .inl ⟨by simpa using hcall, by simp [Effect.isBoundary]⟩
  | shutDown =>
    refine .inl ⟨by simpa using hcall, fun y hy => ?_⟩
    rcases List.mem_cons.mp hy with rfl | hy
    · rfl
    · exact (Effect.of_isAnswer (isAnswer_shutDown e.slot a y hy)).2.1
  | stopAgain =>
    refine .inl ⟨by simpa using hcall, fun y hy => ?_⟩
    exact (Effect.of_isAnswer (a.isAnswer_acknowledgement y hy)).2.1
  | @suspend _ reason =>
    cases hcall
    exact .inr ⟨reason, rfl, rfl⟩
  | park ready | assemble ready | serveEdit ready =>
    cases hcall
    exact .inl ⟨Service.call?_of_ready? ready, by simp [Effect.isBoundary]⟩
  | leave | resume | exit => cases hcall
  | finishAssembly assembling =>
    cases hcall
    exact .inl ⟨by rw [assembling]; rfl, by simp [Effect.isBoundary]⟩

/-- What the effects so far say of the state. -/
structure Traced (past : List Effect) (e : Engine χ) : Prop where
  /-- They count the calls that the state shows. -/
  inside : callsInside past = e.service.calls
  /-- No suspension began while a call was inside. -/
  alone : Throughout (fun before x => x.isSuspension → callsInside before = 0) past
  /-- The call that is inside began the last suspension. -/
  current : ∀ call, e.service.call? = some call → SuspendedAt call.line call.callDepth past
  /-- What waits in the slot was put there during this suspension. -/
  waiting : ∀ p, e.slot = some p → AcceptedHere p past
  /-- What was carried out was put into the slot during the same suspension. -/
  timely : Throughout (fun before x => ∀ p, x = .served p → AcceptedHere p before) past

namespace Traced

variable {past : List Effect} {e : Engine χ} {a : Action χ} {o : Outcome χ}

theorem step_inside (h : e.Coherent) (hpast : Traced past e) (t : Transition e a o) :
    callsInside (past ++ o.effects) = o.engine.service.calls := by
  have hinside := hpast.inside
  have hready {call : LineCall χ} (ready : e.service.ready? = some call) :
      e.service.calls = 1 := Service.calls_of_call? (Service.call?_of_ready? ready)
  cases t with
  | sleep | noAssembly | set | setSink | setListener | refuse | edit | accept | pass =>
    simpa [Effect.entering] using hinside
  | shutDown =>
    have hanswers := callsInside_of_isAnswer (isAnswer_shutDown e.slot a)
    simp only [callsInside_append, callsInside_cons, hanswers, Effect.entering,
      Service.calls_wake, hinside, Int.add_zero]
  | stopAgain =>
    have hanswers := callsInside_of_isAnswer a.isAnswer_acknowledgement
    simp only [callsInside_append, hanswers, Service.calls_wake, hinside, Int.add_zero]
  | suspend running =>
    simp [Effect.entering, hinside, h.absent_of_running running]
  | park ready | assemble ready | serveEdit ready | leave ready | resume ready | exit ready =>
    simp [Effect.entering, hinside, hready ready]
  | finishAssembly assembling =>
    simp [Effect.entering, hinside, assembling]

theorem step_alone (h : e.Coherent) (hpast : Traced past e) (t : Transition e a o) :
    Throughout (fun before x => x.isSuspension → callsInside before = 0) (past ++ o.effects) := by
  refine (throughout_append _ past o.effects).mpr ⟨hpast.alone, ?_⟩
  rcases t.suspends_or_not with hnone | ⟨call, reason, running, _, heffects⟩
  · apply throughout_of_forall
    intro x hx before hsuspends
    rw [hnone x hx] at hsuspends
    cases hsuspends
  · -- the notice follows the change of the run state, and no call was inside before
    rw [heffects]
    simp [Effect.isSuspension, Effect.entering, hpast.inside, h.absent_of_running running]

theorem step_current (hpast : Traced past e) (t : Transition e a o) :
    ∀ call, o.engine.service.call? = some call →
      SuspendedAt call.line call.callDepth (past ++ o.effects) := by
  intro call hcall
  rcases t.inside_or_enters hcall with ⟨hinside, hquiet⟩ | ⟨reason, _, heffects⟩
  · exact (hpast.current call hinside).append_of_false hquiet
  · rw [heffects]
    exact ⟨past ++ [.entered .suspended e.sink], .suspended (e.event reason call) e.listener, [],
      by simp, ⟨e.event reason call, e.listener, rfl, rfl, rfl⟩, by simp⟩

theorem step_waiting (h : e.Coherent) (hpast : Traced past e) (t : Transition e a o) :
    ∀ p, o.engine.slot = some p → AcceptedHere p (past ++ o.effects) := by
  have hstays {p : PendingCommand} (hp : e.slot = some p)
      (hquiet : ∀ y ∈ o.effects, y.isTurn = false) : AcceptedHere p (past ++ o.effects) :=
    (hpast.waiting p hp).append_of_false hquiet
  intro p hp
  cases t with
  | sleep | noAssembly | set | setSink | setListener | refuse | edit | pass | park
  | finishAssembly =>
    exact hstays hp (by simp [Effect.isTurn])
  | stopAgain =>
    refine hstays hp fun y hy => ?_
    exact (Effect.of_isAnswer (a.isAnswer_acknowledgement y hy)).2.2.1
  | accept =>
    cases hp
    exact since_append_cons rfl [] (by simp)
  | suspend running =>
    rw [show e.slot = none from h.slot_none_of_running running] at hp
    cases hp
  | leave _ ended =>
    rw [show e.slot = none from (h.none_of_stopped ended).1] at hp
    cases hp
  | shutDown | resume | exit | assemble | serveEdit => cases hp

theorem step_timely (hpast : Traced past e) (t : Transition e a o) :
    Throughout (fun before x => ∀ p, x = .served p → AcceptedHere p before)
      (past ++ o.effects) := by
  refine (throughout_append _ past o.effects).mpr ⟨hpast.timely, ?_⟩
  cases t with
  | sleep | noAssembly | set | setSink | setListener | refuse | edit | accept | pass | suspend
  | park | leave | finishAssembly =>
    simp
  | shutDown =>
    refine throughout_of_forall fun x hx before p hserved => ?_
    subst hserved
    rcases List.mem_cons.mp hx with hx | hx
    · cases hx
    · cases isAnswer_shutDown e.slot a _ hx
  | stopAgain =>
    refine throughout_of_forall fun x hx before p hserved => ?_
    subst hserved
    cases a.isAnswer_acknowledgement _ hx
  | resume _ _ waiting | exit _ _ waiting | assemble _ _ waiting | serveEdit _ _ waiting =>
    simpa using hpast.waiting _ waiting

theorem step (h : e.Coherent) (hpast : Traced past e) (t : Transition e a o) :
    Traced (past ++ o.effects) o.engine where
  inside := hpast.step_inside h t
  alone := hpast.step_alone h t
  current := hpast.step_current t
  waiting := hpast.step_waiting h t
  timely := hpast.step_timely t

end Traced

theorem traced_ofSource (source : Source) (config : Config) :
    Traced [] (ofSource source config : Engine χ) := by
  obtain ⟨_, hslot, _, hservice⟩ := ofSource_start (χ := χ) source config
  refine ⟨by rw [hservice]; rfl, throughout_nil _, ?_, ?_, throughout_nil _⟩
  · intro call hcall
    rw [hservice] at hcall
    cases hcall
  · intro p hp
    rw [hslot] at hp
    cases hp

/-- **The effects of every run say what the state shows.** -/
theorem run_traced (source : Source) (config : Config) (actions : List (Action χ)) :
    Traced ((ofSource source config).run actions).effects
      ((ofSource source config).run actions).engine :=
  ofSource_run_induction source config (traced_ofSource source config)
    (fun h hpast t => hpast.step h t) actions

/-! ### One call, and what it finds -/

/-- **At every moment of every run:** only a suspended interpreter has a command
    waiting; it is suspended by one call, and calls never begin to suspend it while
    one is inside, but return at once; only while the script runs a step is pending;
    after the end of the session nothing waits and nothing is pending.  So a command
    is carried out in the suspension in which it was put into the slot. -/
theorem one_call_serves_its_own_commands (source : Source) (config : Config)
    (actions : List (Action χ)) :
    let o := (ofSource source config : Engine χ).run actions
    -- the slot
    (∀ p, o.engine.slot = some p → o.engine.runState = .suspended) ∧
    -- the calls
    (o.engine.runState = .suspended → callsInside o.effects = 1) ∧
    (callsInside o.effects = 0 ∨ callsInside o.effects = 1) ∧
    Throughout (fun before x => x.isSuspension → callsInside before = 0) o.effects ∧
    (callsInside o.effects = 1 → ∀ call, o.engine.act (.onLine call) = ⟨o.engine, [.passed]⟩) ∧
    -- the pending step
    (∀ s, o.engine.step = some s → o.engine.runState = .running) ∧
    -- the end
    (o.engine.runState = .stopped → o.engine.slot = none ∧ o.engine.step = none) ∧
    -- the commands
    Throughout (fun before x => ∀ p, x = .served p → AcceptedHere p before) o.effects := by
  intro o
  have h : o.engine.Coherent := run_coherent (ofSource_coherent source config) actions
  have htraced : Traced o.effects o.engine := run_traced source config actions
  have hcount := Service.calls_zero_or_one o.engine.service
  rw [← htraced.inside] at hcount
  refine ⟨h.suspended_of_slot, ?_, hcount, htraced.alone, ?_, h.running_of_step,
    h.none_of_stopped, htraced.timely⟩
  · intro hsuspended
    obtain ⟨call, hcall⟩ := h.call_of_suspended hsuspended
    rw [htraced.inside, Service.calls_of_call? hcall]
  · intro hinside call
    have hrun : o.engine.runState ≠ .running := by
      intro hrunning
      rw [htraced.inside, h.absent_of_running hrunning] at hinside
      cases hinside
    exact onLine_of_not_running hrun call

end Engine

end ScriptDebugger
