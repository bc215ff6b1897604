/-
  ScriptDebugger/Proofs/Engine/AfterEnd.lean
  ==========================================
  **After the end of a session.**

  A session ends by a command, by the controller or with the script, and the call by
  which the interpreter is suspended may be doing anything at that moment: it may
  sleep, be about to look at the slot, or take a snapshot.  Whatever happens later,
  the engine keeps what it then remembers (`Settled`), it suspends nobody, hands no
  command over and announces no change of its run state (`Effect.IsAftermath`).
  `Transition.settled` is the statement on one action.
-/
import ScriptDebugger.Session
import ScriptDebugger.Proofs.Engine.WakeUp

namespace ScriptDebugger

/-- What can still happen after the end of a session: answers, calls that return, and
    a new sink that is told of the end. -/
def Effect.IsAftermath : Effect → Prop
  | .answered _ _ | .passed | .resumed .go => True
  | .attached _ state => state = .stopped
  | _ => False

theorem Effect.isAftermath_of_isAnswer {x : Effect} (h : x.isAnswer) : x.IsAftermath := by
  cases x with
  | answered ticket result => trivial
  | _ => cases h

namespace Engine

variable {χ : Type}

/-- The session has ended, and what the engine remembers is what it was in `e`. -/
structure Settled (e later : Engine χ) : Prop where
  ended : later.runState = .stopped
  slot : later.slot = e.slot
  step : later.step = e.step
  lastStop : later.lastStop = e.lastStop
  muted : later.muted = e.muted

namespace Settled

theorem refl {e : Engine χ} (ended : e.runState = .stopped) : Settled e e :=
  ⟨ended, rfl, rfl, rfl, rfl⟩

theorem trans {e e' e'' : Engine χ} (h : Settled e e') (h' : Settled e' e'') : Settled e e'' where
  ended := h'.ended
  slot := h'.slot.trans h.slot
  step := h'.step.trans h.step
  lastStop := h'.lastStop.trans h.lastStop
  muted := h'.muted.trans h.muted

end Settled

/-- **After the end of a session an action changes nothing that the engine remembers,
    and only a flag that is set directly changes the table.** -/
theorem Transition.settled {e : Engine χ} {a : Action χ} {o : Outcome χ}
    (ended : e.runState = .stopped) (t : Transition e a o) :
    Settled e o.engine ∧ (∀ x ∈ o.effects, x.IsAftermath) ∧
      ((∀ line enabled, a ≠ .setBreakpoint line enabled) →
        o.engine.breakpoints = e.breakpoints) := by
  cases t with
  | sleep | noAssembly | setListener | refuse | pass | leave | finishAssembly =>
    exact ⟨⟨ended, rfl, rfl, rfl, rfl⟩, by simp [Effect.IsAftermath], fun _ => rfl⟩
  | set line enabled =>
    exact ⟨⟨ended, rfl, rfl, rfl, rfl⟩, by simp, fun hset => absurd rfl (hset line enabled)⟩
  | setSink sink =>
    exact ⟨⟨ended, rfl, rfl, rfl, rfl⟩, by simp [Effect.IsAftermath, ended], fun _ => rfl⟩
  | stopAgain =>
    refine ⟨⟨ended, rfl, rfl, rfl, rfl⟩, fun x hx => ?_, fun _ => rfl⟩
    exact Effect.isAftermath_of_isAnswer (a.isAnswer_acknowledgement x hx)
  -- the other cases need a session that lasts
  | shutDown _ open_session => exact absurd ended open_session
  | edit _ running | suspend running =>
    rw [ended] at running
    cases running
  | accept _ suspended | park _ suspended | resume _ suspended | exit _ suspended
  | assemble _ suspended | serveEdit _ suspended =>
    rw [ended] at suspended
    cases suspended

theorem run_settled {e : Engine χ} (h : e.Coherent) (ended : e.runState = .stopped)
    (actions : List (Action χ)) :
    Settled e (e.run actions).engine ∧ ∀ x ∈ (e.run actions).effects, x.IsAftermath := by
  have hstart : Settled e e ∧ ∀ x ∈ ([] : List Effect), x.IsAftermath := ⟨.refl ended, by simp⟩
  refine run_induction (P := fun past later => Settled e later ∧ ∀ x ∈ past, x.IsAftermath) ?_ h
    hstart actions
  rintro past later a o _ ⟨hsettled, hpast⟩ t
  obtain ⟨hnext, heffects, _⟩ := t.settled hsettled.ended
  refine ⟨hsettled.trans hnext, fun x hx => ?_⟩
  rcases List.mem_append.mp hx with hx | hx
  · exact hpast x hx
  · exact heffects x hx

/-! ### Answers after the end -/

theorem submit_of_stopped {e : Engine χ} (ended : e.runState = .stopped) (ticket : Nat)
    {c : Command} (hstop : c ≠ .stop) :
    e.act (.submit ticket c) = ⟨e, [.answered ticket (.error .notRunning)]⟩ :=
  submit_of_refusal hstop (by simp [refusal?, ended]) ticket

theorem submit_stop_of_stopped {e : Engine χ} (h : e.Coherent) (ended : e.runState = .stopped)
    (ticket : Nat) :
    e.act (.submit ticket .stop) =
      ⟨{ e with service := e.service.wake }, [.answered ticket stopped]⟩ := by
  simp only [act, submit, stop_of_stopped h ended, List.nil_append]

/-- A call that is inside and takes no snapshot leaves when it looks. -/
theorem serve_of_stopped {e : Engine χ} (h : e.Coherent) (hattended : e.Attended)
    (ended : e.runState = .stopped) {call : LineCall χ}
    (hinside : e.service = .awake call ∨ ∃ notified, e.service = .parked call notified) :
    e.act .serve = ⟨{ e with service := .absent }, [.resumed .go]⟩ := by
  suffices hready : e.service.ready? = some call from serve_leaves h hready ended
  rcases hinside with hawake | ⟨notified, hparked⟩
  · rw [hawake]
    rfl
  · cases notified with
    | true =>
      rw [hparked]
      rfl
    | false =>
      -- nobody ended the session without waking the call
      rw [(hattended call hparked).2] at ended
      cases ended

/-- **The end of a session is final.**  Whatever happens after it, the engine stays
    stopped and keeps what it remembers; only direct edits change the table; nothing
    is suspended, carried out or announced.  Commands are turned away, the end of
    the session is acknowledged again and again, calls return at once, and the call
    that is still inside returns when it looks, after the snapshot that it may be
    taking. -/
theorem end_is_final (source : Source) (config : Config) (past : List (Action χ))
    (ended : ((ofSource source config : Engine χ).run past).engine.runState = .stopped)
    (actions : List (Action χ)) :
    let e := ((ofSource source config : Engine χ).run past).engine
    let o := e.run actions
    let later := o.engine
    -- what the engine remembers
    (later.runState = .stopped ∧ later.slot = e.slot ∧ later.step = e.step ∧
      later.lastStop = e.lastStop ∧ later.muted = e.muted) ∧
    (∀ a, (∀ line enabled, a ≠ .setBreakpoint line enabled) →
      (later.act a).engine.breakpoints = later.breakpoints) ∧
    -- what has happened since the end
    (∀ x ∈ o.effects, x.IsAftermath) ∧
    -- commands, and the end of the session
    (∀ ticket c, c ≠ .stop →
      later.act (.submit ticket c) = ⟨later, [.answered ticket (.error .notRunning)]⟩) ∧
    (∀ ticket, later.act (.submit ticket .stop) =
      ⟨{ later with service := later.service.wake },
        [.answered ticket (.ok (.acknowledged "stopped"))]⟩) ∧
    later.act .stop = ⟨{ later with service := later.service.wake }, []⟩ ∧
    later.act .finish = ⟨{ later with service := later.service.wake }, []⟩ ∧
    (∀ s : Session, (s.serve .stop).2.1 = .result (.ok (.acknowledged "stopped"))) ∧
    -- calls that come, and the call that is still inside
    (∀ call, later.act (.onLine call) = ⟨later, [.passed]⟩) ∧
    (∀ call, (later.service = .awake call ∨ ∃ notified, later.service = .parked call notified) →
      later.act .serve = ⟨{ later with service := .absent }, [.resumed .go]⟩) ∧
    (∀ call ticket view, later.service = .assembling call ticket →
      later.act (.finishAssembly view) =
        ⟨{ later with service := .awake call },
          [.answered ticket
            (.ok (.snapshot (config.assembler.assemble view.heap (view.stack call.context))))]⟩) := by
  intro e o later
  have hcoherent : e.Coherent := run_coherent (ofSource_coherent source config) past
  obtain ⟨hsettled, heffects⟩ := run_settled hcoherent ended actions
  have h : later.Coherent := run_coherent hcoherent actions
  have hstopped : later.runState = .stopped := hsettled.ended
  have hattended : later.Attended := (run_attended source config past).run hcoherent actions
  have hrunning : later.runState ≠ .running := by
    rw [hstopped]
    decide
  refine ⟨⟨hstopped, hsettled.slot, hsettled.step, hsettled.lastStop, hsettled.muted⟩, ?_, heffects,
    ?_, ?_, ?_, ?_, ?_, ?_, ?_, ?_⟩
  · intro a hset
    exact ((act_transition h a).settled hstopped).2.2 hset
  · intro ticket c hstop
    exact submit_of_stopped hstopped ticket hstop
  · intro ticket
    exact submit_stop_of_stopped h hstopped ticket
  · exact stop_of_stopped h hstopped
  · exact stop_of_stopped h hstopped
  · intro s
    rfl
  · intro call
    exact onLine_of_not_running hrunning call
  · intro call hinside
    exact serve_of_stopped h hattended hstopped hinside
  · intro call ticket view hservice
    rw [← ofSource_assembler (χ := χ) source config,
      ← run_assembler (ofSource_coherent source config) past, ← run_assembler hcoherent actions]
    exact finishAssembly_of_assembling hservice view

/-- The session ends while a snapshot is taken and the next command waits. -/
theorem end_is_final_during_snapshot :
    let past : List (Action Unit) := [.setBreakpoint 1 true, .onLine ⟨1, 0, ()⟩,
      .submit 0 .getVariables, .serve, .submit 1 .resume, .stop]
    let actions : List (Action Unit) := [.onLine ⟨1, 0, ()⟩, .submit 2 .stepOver,
      .finishAssembly .empty]
    let e := ((ofSource (.ofLineCount "main" 3) {} : Engine Unit).run past).engine
    let later := (e.run actions).engine
    e.runState = .stopped ∧ e.service = .assembling ⟨1, 0, ()⟩ 0 ∧
      later.lastStop = some ⟨.breakpoint, "main", 1, 0⟩ ∧
      later.act (.submit 3 .exit) = ⟨later, [.answered 3 (.error .notRunning)]⟩ ∧
      later.act .serve = ⟨{ later with service := .absent }, [.resumed .go]⟩ := by
  intro past actions e later
  have hended : e.runState = .stopped := by decide
  obtain ⟨⟨_, _, _, hlast, _⟩, _, _, hsubmit, _, _, _, _, _, hserve, _⟩ :=
    end_is_final (.ofLineCount "main" 3) {} past hended actions
  refine ⟨hended, rfl, hlast.trans rfl, hsubmit 3 .exit (by decide), ?_⟩
  exact hserve ⟨1, 0, ()⟩ (.inl rfl)

end Engine

end ScriptDebugger
