/-
  ScriptDebugger/Proofs/Rendezvous/Submission.lean
  ================================================
  **What becomes of a command when it is submitted.**

  A command that has to wait is put into the slot, and that is all that happens; every
  other command has its result when `submit` returns.  It fails for the reasons that
  `Engine.Refused` lists, each in exactly the states that are named there, and then the
  engine is as it was (`Engine.act_of_refused`).

  The end of the session may answer another command first, the one that waits; that
  command holds an older future (`Kept.lt_of_held`), so the new future is not mistaken.
-/
import ScriptDebugger.Proofs.Breakpoints
import ScriptDebugger.Proofs.Rendezvous.Results

namespace ScriptDebugger

variable {χ : Type}

theorem Breakpoints.edited_of_not_breakable {table : Breakpoints} {line : UInt32}
    (hline : table.source.isBreakable line = false) (enabled : Bool) :
    table.edited (.setBreakpoint line enabled) = table :=
  attempt_of_not_breakable hline enabled

namespace Engine

variable {e : Engine χ} {c : Command}

/-- **A command that fails leaves the engine as it was.** -/
theorem act_of_refused {error : DebuggerError} (hrefused : e.Refused c error) (ticket : Nat) :
    e.act (.submit ticket c) = ⟨e, [.answered ticket (.error error)]⟩ := by
  cases hrefused with
  | notRunning no_stop ended =>
    exact submit_of_refusal no_stop (by simp [refusal?, ended]) ticket
  | notSuspended needs running =>
    have no_stop : c ≠ .stop := by
      rintro rfl
      cases needs
    exact submit_of_refusal no_stop (by simp [refusal?, running, needs]) ticket
  | commandContention no_stop suspended taken =>
    exact submit_of_refusal no_stop (by simp [refusal?, suspended, taken]) ticket
  | @lineResolution line enabled sets running no_line =>
    subst sets
    have hedit := submit_of_edit (c := .setBreakpoint line enabled) (by simp) running rfl ticket
    rw [Command.editResult_of_not_breakable no_line, Breakpoints.edited_of_not_breakable no_line]
      at hedit
    exact hedit

/-- **A flag that cannot be set when its command is taken out of the slot leaves the
    slot empty, and everything else as it was.** -/
theorem act_serve_of_not_breakable (h : e.Coherent) {call : LineCall χ} {line : UInt32}
    {enabled : Bool} {ticket : Nat} (ready : e.service.ready? = some call)
    (waiting : e.slot = some ⟨.setBreakpoint line enabled, ticket⟩)
    (no_line : e.breakpoints.source.isBreakable line = false) :
    e.act .serve =
      ⟨{ e with slot := none, service := .awake call },
        [.served ⟨.setBreakpoint line enabled, ticket⟩,
          .answered ticket (.error (.lineResolution line e.breakpoints.source.name))]⟩ := by
  have hserve := (Transition.serveEdit ready (h.suspended_of_slot _ waiting) waiting rfl).act_eq h
  rw [Command.editResult_of_not_breakable no_line, Breakpoints.edited_of_not_breakable no_line]
    at hserve
  exact hserve

/-- A command that does not have to wait is answered last, after the command that the
    engine may have held. -/
theorem submit_answers (h : e.Coherent) {result : CommandResult}
    (hanswer : e.atOnce? c = some result) (ticket : Nat) :
    ∃ before, (e.act (.submit ticket c)).effects = before ++ [.answered ticket result] ∧
      ∀ t r, .answered t r ∈ before → t ∈ e.replies := by
  by_cases hstop : c = .stop
  · subst hstop
    cases hanswer
    refine ⟨e.stop.effects, rfl, fun t r hx => ?_⟩
    have hstops : Transition e .stop (e.act .stop) := act_transition h .stop
    rw [mem_replies_iff]
    rcases hstops.answered h hx with
      ⟨_, hsubmits, _⟩ | ⟨c, hslot, _⟩ | ⟨c, hslot, _⟩ | ⟨call, _, hservice, _⟩
    · cases hsubmits
    · exact .inl ⟨c, hslot⟩
    · exact .inl ⟨c, hslot⟩
    · exact .inr ⟨call, hservice⟩
  · refine ⟨[], ?_, by simp⟩
    unfold atOnce? at hanswer
    rw [if_neg hstop] at hanswer
    cases hrefusal : e.refusal? c with
    | some error =>
      rw [hrefusal] at hanswer
      cases hanswer
      exact congrArg Outcome.effects (submit_of_refusal hstop hrefusal ticket)
    | none =>
      rw [hrefusal] at hanswer
      by_cases running : e.runState = .running
      · rw [if_pos running] at hanswer
        cases hanswer
        have hedits : c.requiresSuspension = false := by simpa [refusal?, running] using hrefusal
        exact congrArg Outcome.effects (submit_of_edit hstop running hedits ticket)
      · rw [if_neg running] at hanswer
        cases hanswer

end Engine

/-! ### The future of a command -/

namespace Futures

theorem foldl_receive_of_ne {fs : Futures} {i : Nat} {effects : List Effect}
    (hne : ∀ x ∈ effects, x.answered? ≠ some i) : (effects.foldl receive fs)[i]? = fs[i]? := by
  induction effects generalizing fs with
  | nil => rfl
  | cons x effects ih =>
    obtain ⟨hx, hrest⟩ := List.forall_mem_cons.mp hne
    rw [List.foldl_cons, ih hrest, receive_of_ne hx]

theorem deliver_handOut (fs : Futures) (result : CommandResult) :
    fs.handOut.deliver fs.length result = fs ++ [some (.ready result)] :=
  List.modifyTailIdx_add (List.modifyHead (Option.map (Future.fulfil result))) 0 fs [some .waiting]

end Futures

/-- The engine answers those who were there before. -/
theorem Kept.lt_of_held {source : Source} {log : List (Entry χ)} {r : Rendezvous χ}
    (h : Kept source log r) {ticket : Nat} (hheld : ticket ∈ r.engine.replies) :
    ticket < r.futures.length := by
  rw [h.futures, ← h.wellKept.mem_handedOut_iff]
  exact h.accounted.mem_handedOut hheld

namespace Rendezvous

variable {r : Rendezvous χ} {c : Command}

theorem move_submit {o : Outcome χ} (ho : r.engine.act (.submit r.futures.length c) = o) (k : Nat) :
    r.move (.act (.submit k c)) =
      (⟨o.engine, o.effects.foldl Futures.receive r.futures.handOut⟩,
        .begun r.engine (.submit r.futures.length c) :: o.effects.map .caused) := by
  subst ho
  rfl

theorem move_serve {o : Outcome χ} (ho : r.engine.act .serve = o) :
    r.move (.act .serve) =
      (⟨o.engine, o.effects.foldl Futures.receive r.futures⟩,
        .begun r.engine .serve :: o.effects.map .caused) := by
  subst ho
  rfl

theorem submit_refused {error : DebuggerError} (hrefused : r.engine.Refused c error) (k : Nat) :
    r.move (.act (.submit k c)) =
      (⟨r.engine, r.futures ++ [some (.ready (.error error))]⟩,
        [.begun r.engine (.submit r.futures.length c),
          .caused (.answered r.futures.length (.error error))]) := by
  rw [move_submit (r.engine.act_of_refused hrefused r.futures.length), ← Futures.deliver_handOut]
  rfl

theorem submit_accepted (no_stop : c ≠ .stop) (suspended : r.engine.runState = .suspended)
    (free : r.engine.slot = none) (k : Nat) :
    r.move (.act (.submit k c)) =
      (⟨{ r.engine with
            slot := some ⟨c, r.futures.length⟩
            service := r.engine.service.wake }, r.futures ++ [some .waiting]⟩,
        [.begun r.engine (.submit r.futures.length c),
          .caused (.accepted ⟨c, r.futures.length⟩)]) := by
  rw [move_submit (Engine.submit_of_free no_stop suspended free r.futures.length)]
  rfl

end Rendezvous

namespace Kept

variable {source : Source} {log : List (Entry χ)} {r : Rendezvous χ} {c : Command}

theorem submit_ready (h : Kept source log r) {result : CommandResult}
    (hanswer : r.engine.atOnce? c = some result) (k : Nat) :
    (r.move (.act (.submit k c))).1.futures[r.futures.length]? = some (some (.ready result)) := by
  obtain ⟨before, heffects, hbefore⟩ :=
    Engine.submit_answers h.accounted.coherent hanswer r.futures.length
  rw [Rendezvous.move_submit rfl k, heffects, List.foldl_append]
  -- what comes before its answer is for an older future
  apply Futures.deliver_waiting
  rw [Futures.foldl_receive_of_ne, Futures.handOut]
  · exact List.getElem?_concat_length
  · intro x hx hsame
    cases x with
    | answered t result' =>
      cases hsame
      exact Nat.lt_irrefl _ (h.lt_of_held (hbefore _ result' hx))
    | _ => cases hsame

theorem submit_ready_iff (h : Kept source log r) (result : CommandResult) (k : Nat) :
    (r.move (.act (.submit k c))).1.futures[r.futures.length]? = some (some (.ready result)) ↔
      r.engine.atOnce? c = some result := by
  refine ⟨fun hready => ?_, fun hanswer => h.submit_ready hanswer k⟩
  cases hanswer : r.engine.atOnce? c with
  | some result' =>
    rw [h.submit_ready hanswer k] at hready
    cases hready
    rfl
  | none =>
    obtain ⟨no_stop, suspended, free⟩ := (r.engine.atOnce?_eq_none_iff c).mp hanswer
    rw [Rendezvous.submit_accepted no_stop suspended free, List.getElem?_concat_length] at hready
    cases hready

end Kept

/-- **A command waits, or it has its result when it was submitted.**  It has to wait
    exactly while the interpreter is suspended and the slot is free, unless it ends the
    session, and then it is put into the slot and nothing else changes.  It fails at
    once exactly for the reasons in `Engine.Refused`, and then nothing changes at all
    but that there is one more future, which has the error.  A flag that cannot be set
    when its command is taken out of the slot leaves the slot empty and everything else
    as it was. -/
theorem commands_wait_or_are_answered (source : Source) (config : Config)
    (moves : List (Move χ)) (k : Nat) (c : Command) :
    let r := ((Rendezvous.ofSource source config : Rendezvous χ).play moves).1
    let e := r.engine
    let n := r.futures.length
    let submitted := r.move (.act (.submit k c))
    let future := submitted.1.futures[n]?
    -- a command that waits
    (c ≠ .stop ∧ e.runState = .suspended ∧ e.slot = none →
      submitted =
        (⟨{ e with slot := some ⟨c, n⟩, service := e.service.wake }, r.futures ++ [some .waiting]⟩,
          [.begun e (.submit n c), .caused (.accepted ⟨c, n⟩)])) ∧
    -- every other one has its result
    (¬ (c ≠ .stop ∧ e.runState = .suspended ∧ e.slot = none) ↔
      ∃ result, future = some (some (.ready result))) ∧
    -- errors
    (∀ error, future = some (some (.ready (.error error))) ↔ e.Refused c error) ∧
    (∀ error, future = some (some (.ready (.error error))) →
      submitted =
        (⟨e, r.futures ++ [some (.ready (.error error))]⟩,
          [.begun e (.submit n c), .caused (.answered n (.error error))])) ∧
    -- a flag that cannot be set, from the slot
    (∀ call line enabled ticket, e.service.ready? = some call →
      e.slot = some ⟨.setBreakpoint line enabled, ticket⟩ →
      e.breakpoints.source.isBreakable line = false →
        let error := .lineResolution line e.breakpoints.source.name
        r.move (.act .serve) =
          (⟨{ e with slot := none, service := .awake call },
              r.futures.deliver ticket (.error error)⟩,
            [.begun e .serve, .caused (.served ⟨.setBreakpoint line enabled, ticket⟩),
              .caused (.answered ticket (.error error))])) := by
  intro r e n submitted future
  have h : Kept source _ r := run_kept source config moves
  have hready (result : CommandResult) :
      future = some (some (.ready result)) ↔ e.atOnce? c = some result :=
    h.submit_ready_iff result k
  have herror (error : DebuggerError) :
      future = some (some (.ready (.error error))) ↔ e.Refused c error :=
    (hready _).trans (e.atOnce?_eq_error_iff c error)
  refine ⟨?_, ?_, herror, ?_, ?_⟩
  · rintro ⟨no_stop, suspended, free⟩
    exact Rendezvous.submit_accepted no_stop suspended free k
  · rw [← e.atOnce?_eq_none_iff, ← ne_eq, Option.ne_none_iff_exists']
    exact exists_congr fun result => (hready result).symm
  · intro error hfails
    exact Rendezvous.submit_refused ((herror error).mp hfails) k
  · intro call line enabled ticket ready waiting no_line error
    have hserve := e.act_serve_of_not_breakable h.accounted.coherent ready waiting no_line
    rw [Rendezvous.move_serve hserve]
    rfl

end ScriptDebugger
