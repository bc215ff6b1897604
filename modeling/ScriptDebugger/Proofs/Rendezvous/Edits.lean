/-
  ScriptDebugger/Proofs/Rendezvous/Edits.lean
  ===========================================
  **The ways by which an edit comes to the engine.**

  A flag can be set directly, alone or among others, by a command while the script
  runs, and by a command that the suspended call takes out of the slot.  Whichever way
  it is, the result and the next table are the same, and nothing else changes
  (`Rendezvous.Edits`).  The same is true of muting, for which there is no direct way,
  and of the end of the session, which never waits in the slot.
-/
import ScriptDebugger.Proofs.Breakpoints.LastWrite
import ScriptDebugger.Proofs.Rendezvous.Submission
import ScriptDebugger.Session

namespace ScriptDebugger

variable {χ : Type}

namespace Engine

/-! ### Direct edits -/

theorem setBreakpoint_eq (e : Engine χ) (line : UInt32) (enabled : Bool) :
    e.setBreakpoint line enabled =
      ({ e with breakpoints := e.breakpoints.attempt line enabled },
        (Command.setBreakpoint line enabled).editResult e.breakpoints.source) :=
  Prod.ext (e.setBreakpoint_engine line enabled) (e.setBreakpoint_result line enabled)

/-- **Several flags are set one after another**, and each result is what its own flag
    alone would have given. -/
theorem setupBreakpoints_eq (e : Engine χ) (lines : List (UInt32 × Bool)) :
    e.setupBreakpoints lines =
      ({ e with breakpoints := (e.breakpoints.setAll lines).1 },
        lines.map fun l => (e.setBreakpoint l.1 l.2).2) := by
  induction lines generalizing e with
  | nil => rfl
  | cons l lines ih =>
    have hrest : lines.map (fun l' => ((e.setBreakpoint l.1 l.2).1.setBreakpoint l'.1 l'.2).2) =
        lines.map fun l' => (e.setBreakpoint l'.1 l'.2).2 := by
      refine List.map_congr_left fun l' _ => ?_
      rw [setBreakpoint_result, setBreakpoint_result, setBreakpoint_engine,
        Breakpoints.attempt_source]
    simp only [setupBreakpoints, ih, hrest]
    rw [setBreakpoint_engine]
    rfl

/-- The direct calls as actions. -/
theorem run_setBreakpoints (e : Engine χ) (lines : List (UInt32 × Bool)) :
    e.run (lines.map fun l => .setBreakpoint l.1 l.2) =
      ⟨{ e with breakpoints := (e.breakpoints.setAll lines).1 }, []⟩ := by
  induction lines generalizing e with
  | nil => rfl
  | cons l lines ih =>
    have hact : e.act (.setBreakpoint l.1 l.2) =
        ⟨{ e with breakpoints := e.breakpoints.attempt l.1 l.2 }, []⟩ := by
      simp only [act, idle, setBreakpoint_engine]
    rw [List.map_cons, run_cons, hact, ih]
    rfl

/-! ### The end of the session -/

theorem stop_eq (e : Engine χ) :
    e.stop =
      ⟨{ e with runState := .stopped, step := none, slot := none, service := e.service.wake },
        (if e.runState = .stopped then [] else [.entered .stopped e.sink]) ++
          cancellation e.slot⟩ := by
  by_cases ended : e.runState = .stopped
  · simp only [stop, shutDown, enter, ended, if_true, idle]
  · simp only [stop, shutDown_of_open ended, if_neg ended, List.singleton_append]

/-- The end of the session answers the command that waits, and no other. -/
theorem slot_of_answered_stop {e : Engine χ} {ticket : Nat} {result : CommandResult}
    (hanswer : .answered ticket result ∈ e.stop.effects) : ∃ c, e.slot = some ⟨c, ticket⟩ := by
  rw [stop_eq, List.mem_append] at hanswer
  rcases hanswer with hanswer | hanswer
  · split at hanswer
    · cases hanswer
    · cases List.mem_singleton.mp hanswer
  · cases hslot : e.slot with
    | none =>
      rw [hslot] at hanswer
      cases hanswer
    | some p =>
      rw [hslot] at hanswer
      cases List.mem_singleton.mp hanswer
      exact ⟨p.command, rfl⟩

end Engine

/-! ### Futures that are handed out -/

namespace Futures

theorem deliver_handOut_of_lt {fs : Futures} {i : Nat} (hi : i < fs.length)
    (result : CommandResult) : fs.handOut.deliver i result = (fs.deliver i result).handOut := by
  apply List.ext_getElem?
  intro j
  simp only [deliver, handOut, List.getElem?_modify, List.getElem?_append, List.length_modify]
  by_cases hj : j < fs.length
  · rw [if_pos hj, if_pos hj]
  · have hne : i ≠ j := by omega
    simp only [if_neg hj, if_neg hne]
    exact id_map _

/-- Results for older futures do not come to a new one. -/
theorem foldl_receive_handOut {fs : Futures} {effects : List Effect}
    (hold : ∀ ticket result, .answered ticket result ∈ effects → ticket < fs.length) :
    effects.foldl receive fs.handOut = (effects.foldl receive fs).handOut := by
  induction effects generalizing fs with
  | nil => rfl
  | cons x effects ih =>
    have hx : fs.handOut.receive x = (fs.receive x).handOut := by
      cases x with
      | answered ticket result =>
        exact deliver_handOut_of_lt (hold ticket result List.mem_cons_self) result
      | _ => rfl
    rw [List.foldl_cons, List.foldl_cons, hx]
    apply ih
    intro ticket result hanswer
    rw [length_receive]
    exact hold ticket result (List.mem_cons_of_mem x hanswer)

theorem length_foldl_receive (fs : Futures) (effects : List Effect) :
    (effects.foldl receive fs).length = fs.length := by
  induction effects generalizing fs with
  | nil => rfl
  | cons x effects ih => rw [List.foldl_cons, ih, length_receive]

end Futures

/-! ### Edits by command -/

/-- By a command an edit leads to the engine `next` and gives the result, and nothing
    else changes: no notice is sent, no sink is written to. -/
structure Rendezvous.Edits (r : Rendezvous χ) (c : Command) (next : Engine χ)
    (result : CommandResult) : Prop where
  /-- While the script runs the edit is made at once. -/
  at_once (running : r.engine.runState = .running) (k : Nat) :
    r.move (.act (.submit k c)) =
      (⟨next, r.futures ++ [some (.ready result)]⟩,
        [.begun r.engine (.submit r.futures.length c), .caused (.answered r.futures.length result)])
  /-- From the slot it is made by the suspended call, which looks at the slot again then. -/
  from_slot {call : LineCall χ} {ticket : Nat} (ready : r.engine.service.ready? = some call)
    (suspended : r.engine.runState = .suspended) (waiting : r.engine.slot = some ⟨c, ticket⟩) :
    r.move (.act .serve) =
      (⟨{ next with slot := none, service := .awake call }, r.futures.deliver ticket result⟩,
        [.begun r.engine .serve, .caused (.served ⟨c, ticket⟩), .caused (.answered ticket result)])
  /-- If the call slept before the command came, it sleeps again after it. -/
  by_slot {call : LineCall χ} (sleeping : r.engine.service = .parked call false)
    (suspended : r.engine.runState = .suspended) (free : r.engine.slot = none) (k : Nat) :
    (r.play [.act (.submit k c), .act .serve, .act .serve]).1 =
      ⟨next, r.futures ++ [some (.ready result)]⟩

namespace Rendezvous

variable {r : Rendezvous χ} {c : Command}

theorem submit_edit (no_stop : c ≠ .stop) (edits : c.requiresSuspension = false)
    (running : r.engine.runState = .running) (k : Nat) :
    r.move (.act (.submit k c)) =
      (⟨{ r.engine with
            breakpoints := r.engine.breakpoints.edited c
            muted := c.mutes r.engine.muted },
          r.futures ++ [some (.ready (c.editResult r.engine.breakpoints.source))]⟩,
        [.begun r.engine (.submit r.futures.length c),
          .caused (.answered r.futures.length (c.editResult r.engine.breakpoints.source))]) := by
  rw [move_submit (Engine.submit_of_edit no_stop running edits r.futures.length),
    ← Futures.deliver_handOut]
  rfl

theorem serve_edit (no_stop : c ≠ .stop) (edits : c.requiresSuspension = false)
    {call : LineCall χ} {ticket : Nat} (ready : r.engine.service.ready? = some call)
    (suspended : r.engine.runState = .suspended) (waiting : r.engine.slot = some ⟨c, ticket⟩) :
    r.move (.act .serve) =
      (⟨{ r.engine with
            breakpoints := r.engine.breakpoints.edited c
            muted := c.mutes r.engine.muted
            slot := none
            service := .awake call },
          r.futures.deliver ticket (c.editResult r.engine.breakpoints.source)⟩,
        [.begun r.engine .serve, .caused (.served ⟨c, ticket⟩),
          .caused (.answered ticket (c.editResult r.engine.breakpoints.source))]) := by
  have hserve := Engine.serve_of_waiting ready suspended waiting
  rw [Engine.execute_of_edit _ call edits no_stop, Engine.edit_engine, Engine.edit_result] at hserve
  rw [move_serve hserve]
  rfl

theorem serve_sleeps {call : LineCall χ} (ready : r.engine.service.ready? = some call)
    (suspended : r.engine.runState = .suspended) (free : r.engine.slot = none) :
    (r.move (.act .serve)).1 =
      ⟨{ r.engine with service := .parked call false }, r.futures⟩ := by
  have hserve : r.engine.act .serve = ⟨{ r.engine with service := .parked call false }, []⟩ := by
    simp only [Engine.act, Engine.serve_of_ready ready, Engine.look, suspended, if_true, free]
  rw [move_serve hserve]
  rfl

/-- **An edit is the same on both ways.** -/
theorem edits_of_command (r : Rendezvous χ) (no_stop : c ≠ .stop)
    (edits : c.requiresSuspension = false) :
    r.Edits c
      { r.engine with
        breakpoints := r.engine.breakpoints.edited c
        muted := c.mutes r.engine.muted }
      (c.editResult r.engine.breakpoints.source) where
  at_once running k := submit_edit no_stop edits running k
  from_slot ready suspended waiting := serve_edit no_stop edits ready suspended waiting
  by_slot {call} sleeping suspended free k := by
    let result := c.editResult r.engine.breakpoints.source
    let asked : Rendezvous χ :=
      ⟨{ r.engine with slot := some ⟨c, r.futures.length⟩, service := .parked call true },
        r.futures ++ [some .waiting]⟩
    let served : Rendezvous χ :=
      ⟨{ r.engine with
          breakpoints := r.engine.breakpoints.edited c
          muted := c.mutes r.engine.muted
          slot := none
          service := .awake call },
        asked.futures.deliver r.futures.length result⟩
    have hasked : (r.move (.act (.submit k c))).1 = asked := by
      rw [submit_accepted no_stop suspended free k, sleeping]
      rfl
    have hserved : (asked.move (.act .serve)).1 = served := by
      rw [serve_edit (r := asked) no_stop edits rfl suspended rfl]
    have hslept : (served.move (.act .serve)).1 =
        ⟨{ served.engine with service := .parked call false }, served.futures⟩ :=
      serve_sleeps rfl suspended rfl
    have hfutures : served.futures = r.futures ++ [some (.ready result)] :=
      Futures.deliver_handOut r.futures result
    show (((r.move (.act (.submit k c))).1.move (.act .serve)).1.move (.act .serve)).1 = _
    rw [hasked, hserved, hslept, hfutures]
    simp only [served, free, sleeping, result]

end Rendezvous

/-- **All ways of an edit agree.**  A flag that is set directly, alone or as the only one
    of a list, by a command while the script runs, or by a command from the slot gives
    the same result and leads to the same table, and nothing else changes; muting is the
    same on both of its ways.  The session ends in the same way directly and by command,
    whether the script runs, is suspended, or has ended, and both say so.  Several flags
    are set one after another, with one result for each; one that fails makes no
    difference to the others. -/
theorem edits_agree_on_all_ways (source : Source) (config : Config) (moves : List (Move χ)) :
    let r := ((Rendezvous.ofSource source config : Rendezvous χ).play moves).1
    let e := r.engine
    -- a flag
    (∀ line enabled,
      let next := { e with breakpoints := e.breakpoints.attempt line enabled }
      let result : CommandResult :=
        if source.Takes line then .ok (.acknowledged (Engine.setText line enabled))
        else .error (.lineResolution line source.name)
      e.setBreakpoint line enabled = (next, result) ∧
      e.setupBreakpoints [(line, enabled)] = (next, [result]) ∧
      r.Edits (.setBreakpoint line enabled) next result) ∧
    -- muting
    (∀ muted, r.Edits (.toggleMute muted) { e with muted := muted }
      (.ok (.acknowledged ("breakpoints muted toggled to " ++ toString muted)))) ∧
    -- the end of the session
    (∀ k,
      let direct := r.move (.act .stop)
      let submitted := r.move (.act (.submit k .stop))
      direct.1.engine =
        { e with runState := .stopped, step := none, slot := none, service := e.service.wake } ∧
      submitted.1.engine = direct.1.engine ∧
      submitted.1.futures = direct.1.futures ++ [some (.ready Engine.stopped)] ∧
      submitted.2.filterMap Entry.caused? =
        direct.2.filterMap Entry.caused? ++ [.answered r.futures.length Engine.stopped]) ∧
    (∀ s : Session, (s.serve .stop).2.1 = .result Engine.stopped) ∧
    -- several flags
    (∀ lines : List (UInt32 × Bool),
      e.setupBreakpoints lines =
        ((e.run (lines.map fun l => .setBreakpoint l.1 l.2)).engine,
          lines.map fun l => (e.setBreakpoint l.1 l.2).2) ∧
      (e.setupBreakpoints (lines.filter fun l => decide (source.Takes l.1))).1 =
        (e.setupBreakpoints lines).1) := by
  intro r e
  have h : Kept source _ r := run_kept source config moves
  have hsource : e.breakpoints.source = source := h.accounted.sameSource
  refine ⟨?_, ?_, ?_, fun s => rfl, ?_⟩
  · intro line enabled next result
    have hresult :
        (Command.setBreakpoint line enabled).editResult e.breakpoints.source = result := by
      rw [hsource]
      by_cases hline : source.Takes line
      · have hbreakable := (source.isBreakable_iff line).mpr hline
        simp only [Command.editResult, hbreakable, if_true, result, if_pos hline]
      · have hbreakable := Breakpoints.not_breakable hline
        rw [Command.editResult_of_not_breakable hbreakable]
        simp only [result, if_neg hline]
    have hset : e.setBreakpoint line enabled = (next, result) := by
      rw [Engine.setBreakpoint_eq, hresult]
    refine ⟨hset, ?_, ?_⟩
    · simp only [Engine.setupBreakpoints, hset]
    · rw [← hresult]
      exact r.edits_of_command (c := .setBreakpoint line enabled) (by simp) rfl
  · intro muted
    exact r.edits_of_command (c := .toggleMute muted) (by simp) rfl
  · intro k direct submitted
    have hold (ticket : Nat) (result : CommandResult)
        (hanswer : .answered ticket result ∈ e.stop.effects) : ticket < r.futures.length := by
      obtain ⟨c, hslot⟩ := Engine.slot_of_answered_stop hanswer
      exact h.lt_of_held ((e.mem_replies_iff ticket).mpr (.inl ⟨c, hslot⟩))
    refine ⟨congrArg Outcome.engine e.stop_eq, rfl, ?_, ?_⟩
    · show (e.stop.effects ++ [Effect.answered r.futures.length Engine.stopped]).foldl
        Futures.receive r.futures.handOut = e.stop.effects.foldl Futures.receive r.futures ++ _
      rw [List.foldl_append, Futures.foldl_receive_handOut hold,
        ← Futures.length_foldl_receive r.futures e.stop.effects]
      exact Futures.deliver_handOut _ Engine.stopped
    · show ((e.stop.effects ++ [Effect.answered r.futures.length Engine.stopped]).map
        Entry.caused).filterMap Entry.caused? = (e.stop.effects.map Entry.caused).filterMap _ ++ _
      rw [List.map_append, List.filterMap_append]
      rfl
  · intro lines
    refine ⟨?_, ?_⟩
    · rw [Engine.run_setBreakpoints]
      exact e.setupBreakpoints_eq lines
    · rw [Engine.setupBreakpoints_eq, Engine.setupBreakpoints_eq, ← hsource,
        Breakpoints.setAll_filter]

end ScriptDebugger
