/-
  ScriptDebugger/Proofs/Engine/WakeUp.lean
  ========================================
  **No wake-up is lost.**

  The suspended call falls asleep when it has found the slot empty, and from then
  on it does nothing until it is woken.  So every operation that gives it something
  to do has to wake it, and it must not fall asleep on a command that came while it
  took a snapshot.  Both are one invariant (`Attended`): a call that sleeps and was
  not woken is suspended with an empty slot.

  It follows that whatever is due happens: a snapshot that is being taken may have
  to be completed, and then the next look of the call carries out the command that
  waits, or finds that the session is over.
-/
import ScriptDebugger.Proofs.Engine.Invariant

namespace ScriptDebugger

theorem Service.wake_ne_parked {χ : Type} (s : Service χ) (call : LineCall χ) :
    s.wake ≠ .parked call false := by
  cases s <;> simp [wake]

namespace Engine

variable {χ : Type}

/-- A call that sleeps and was not woken has nothing to do. -/
def Attended (e : Engine χ) : Prop :=
  ∀ call, e.service = .parked call false → e.slot = none ∧ e.runState = .suspended

theorem Transition.attended {e : Engine χ} {a : Action χ} {o : Outcome χ} (h : e.Attended)
    (t : Transition e a o) : o.engine.Attended := by
  intro call hsleeps
  cases t with
  | sleep | noAssembly | set | setSink | setListener | refuse | edit | pass =>
    exact h call hsleeps
  -- what gives the call something to do wakes it
  | shutDown | stopAgain | accept => exact absurd hsleeps (Service.wake_ne_parked _ call)
  | park _ suspended free => exact ⟨free, suspended⟩
  | suspend | leave | resume | exit | assemble | serveEdit | finishAssembly => cases hsleeps

theorem Attended.run {e : Engine χ} (hattended : e.Attended) (h : e.Coherent)
    (actions : List (Action χ)) : (e.run actions).engine.Attended :=
  @run_induction χ (fun _ later => later.Attended) (fun _ hlater t => t.attended hlater) e h []
    hattended actions

theorem ofSource_attended (source : Source) (config : Config) :
    (ofSource source config : Engine χ).Attended := by
  intro call hsleeps
  rw [(ofSource_start source config).2.2.2] at hsleeps
  cases hsleeps

theorem run_attended (source : Source) (config : Config) (actions : List (Action χ)) :
    ((ofSource source config).run actions).engine.Attended :=
  (ofSource_attended source config).run (ofSource_coherent source config) actions

/-! ### What a sleeping call waits for -/

/-- Nothing but a wake-up changes what a sleeping call does. -/
theorem Transition.sleeps_or_woken {e : Engine χ} {a : Action χ} {o : Outcome χ}
    {call : LineCall χ} (hsleeps : e.service = .parked call false)
    (suspended : e.runState = .suspended) (t : Transition e a o) :
    o.engine.service = .parked call false ∨ o.engine.service = .parked call true := by
  have hready : e.service.ready? = none := by rw [hsleeps]; rfl
  cases t with
  | sleep | noAssembly | set | setSink | setListener | refuse | edit | pass => exact .inl hsleeps
  | shutDown | stopAgain | accept =>
    right
    simp only [hsleeps, Service.wake]
  | suspend running =>
    rw [suspended] at running
    cases running
  | park ready | leave ready | resume ready | exit ready | assemble ready | serveEdit ready =>
    rw [hready] at ready
    cases ready
  | finishAssembly assembling =>
    rw [hsleeps] at assembling
    cases assembling

/-! ### What is due happens -/

theorem finishAssembly_of_assembling {e : Engine χ} {call : LineCall χ} {ticket : Nat}
    (hservice : e.service = .assembling call ticket) (view : View χ) :
    e.act (.finishAssembly view) =
      ⟨{ e with service := .awake call },
        [.answered ticket
          (.ok (.snapshot (e.assembler.assemble view.heap (view.stack call.context))))]⟩ := by
  simp only [act, finishAssembly, hservice]

/-- Once the snapshot that is being taken is complete, a call that does not sleep
    may look at the slot. -/
theorem finishAssembly_ready {e : Engine χ} {call : LineCall χ}
    (hcall : e.service.call? = some call) (hawake : e.service ≠ .parked call false)
    (view : View χ) :
    let e' := (e.act (.finishAssembly view)).engine
    e'.service.ready? = some call ∧ e'.slot = e.slot ∧ e'.runState = e.runState := by
  have t : Transition e _ (e.act (.finishAssembly view)) := finishAssembly_transition e view
  generalize e.act (.finishAssembly view) = o at t
  cases t with
  | shutDown ends | stopAgain ends => cases ends
  | noAssembly no_call =>
    refine ⟨?_, rfl, rfl⟩
    cases hs : e.service with
    | absent => rw [hs] at hcall; cases hcall
    | awake c => rw [hs] at hcall; exact hcall
    | parked c notified =>
      rw [hs] at hcall hawake
      cases hcall
      cases notified with
      | false => exact absurd rfl hawake
      | true => rfl
    | assembling c ticket => exact absurd hs (no_call c ticket)
  | finishAssembly assembling =>
    rw [assembling] at hcall
    exact ⟨hcall, rfl, rfl⟩

theorem serve_serves {e : Engine χ} (h : e.Coherent) {call : LineCall χ} {p : PendingCommand}
    (hready : e.service.ready? = some call) (hslot : e.slot = some p) :
    .served p ∈ (e.act .serve).effects := by
  have hsuspended : e.runState = .suspended := h.suspended_of_slot p hslot
  have t := act_transition h (.serve : Action χ)
  generalize e.act .serve = o at t
  cases t with
  | sleep no_call =>
    rw [hready] at no_call
    cases no_call
  | stopAgain ends | shutDown ends => cases ends
  | park _ _ free =>
    rw [hslot] at free
    cases free
  | leave _ ended =>
    rw [hsuspended] at ended
    cases ended
  | resume _ _ waiting | exit _ _ waiting | assemble _ _ waiting | serveEdit _ _ waiting =>
    cases hslot.symm.trans waiting
    exact List.mem_cons_self

theorem serve_leaves {e : Engine χ} (h : e.Coherent) {call : LineCall χ}
    (hready : e.service.ready? = some call) (hended : e.runState = .stopped) :
    e.act .serve = ⟨{ e with service := .absent }, [.resumed .go]⟩ := by
  have t := act_transition h (.serve : Action χ)
  generalize e.act .serve = o at t
  cases t with
  | sleep no_call =>
    rw [hready] at no_call
    cases no_call
  | stopAgain ends | shutDown ends => cases ends
  | leave => rfl
  | park _ suspended | resume _ suspended | exit _ suspended | assemble _ suspended
  | serveEdit _ suspended =>
    rw [hended] at suspended
    cases suspended

theorem mem_run_pair {e : Engine χ} {a b : Action χ} {x : Effect}
    (hx : x ∈ ((e.act a).engine.act b).effects) : x ∈ (e.run [a, b]).effects := by
  simp only [run_cons, run_nil, List.append_nil]
  exact List.mem_append_right _ hx

/-- **No wake-up is lost.**  A call that sleeps and was not woken has nothing to do,
    and it stays so until it is woken; so a command that was accepted is carried out
    at the next look of the call, and after the end of the session the next look
    lets the interpreter go on, both also if a snapshot has to be completed first. -/
theorem no_wake_up_is_lost (source : Source) (config : Config) (actions : List (Action χ)) :
    let e := ((ofSource source config : Engine χ).run actions).engine
    -- what a sleeping call waits for
    (∀ call, e.service = .parked call false → e.slot = none ∧ e.runState = .suspended) ∧
    (∀ call a, e.service = .parked call false →
      let e' := (e.act a).engine
      e'.service = .parked call false ∧ e'.slot = none ∧ e'.runState = .suspended ∨
        e'.service = .parked call true) ∧
    -- a command that was accepted
    (∀ p, e.slot = some p → ∀ view,
      .served p ∈ (e.run [.finishAssembly view, .serve]).effects) ∧
    -- the end of the session
    (e.runState = .stopped → ∀ call, e.service.call? = some call → ∀ view,
      .resumed .go ∈ (e.run [.finishAssembly view, .serve]).effects) := by
  intro e
  have h : e.Coherent := run_coherent (ofSource_coherent source config) actions
  have hattended : e.Attended := run_attended source config actions
  refine ⟨hattended, ?_, ?_, ?_⟩
  · intro call a hsleeps e'
    have t := act_transition h a
    rcases t.sleeps_or_woken hsleeps (hattended call hsleeps).2 with hstill | hwoken
    · exact .inl ⟨hstill, t.attended hattended call hstill⟩
    · exact .inr hwoken
  · intro p hslot view
    obtain ⟨call, hcall⟩ := h.call_of_suspended (h.suspended_of_slot p hslot)
    have hawake : e.service ≠ .parked call false := by
      intro hsleeps
      rw [(hattended call hsleeps).1] at hslot
      cases hslot
    obtain ⟨hready, hslot', _⟩ := finishAssembly_ready hcall hawake view
    have h' := (act_transition h (.finishAssembly view)).coherent h
    exact mem_run_pair (serve_serves h' hready (hslot'.trans hslot))
  · intro hended call hcall view
    have hawake : e.service ≠ .parked call false := by
      intro hsleeps
      rw [(hattended call hsleeps).2] at hended
      cases hended
    obtain ⟨hready, _, hrun⟩ := finishAssembly_ready hcall hawake view
    have h' := (act_transition h (.finishAssembly view)).coherent h
    apply mem_run_pair
    rw [serve_leaves h' hready (hrun.trans hended)]
    exact List.mem_singleton.mpr rfl

-- A command that comes while a snapshot is taken is there when the call looks next.
example (view : View Unit) :
    let e : Engine Unit := ((ofSource (.ofLineCount "main" 3) {}).run
      [.setBreakpoint 1 true, .onLine ⟨1, 0, ()⟩, .serve, .submit 0 .getVariables, .serve,
        .submit 1 .resume, .finishAssembly view]).engine
    e.service = .awake ⟨1, 0, ()⟩ ∧ e.slot = some ⟨.resume, 1⟩ :=
  ⟨rfl, rfl⟩

end Engine

end ScriptDebugger
