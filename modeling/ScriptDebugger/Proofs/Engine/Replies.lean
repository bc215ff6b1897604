/-
  ScriptDebugger/Proofs/Engine/Replies.lean
  =========================================
  **What becomes of a reply.**

  Every command that is submitted brings along a reply that has to be answered.
  The engine holds at most two of them: one in the slot, one for the snapshot that
  is being taken.  Replies are conserved: what the engine held before an action
  together with what the action brings is what it holds afterwards together with
  what was answered (`Transition.replies_perm`).  `Transition.answered` tells where
  the answers come from.
-/
import ScriptDebugger.Engine.Rendezvous
import ScriptDebugger.Proofs.Engine.Invariant
import ScriptDebugger.Proofs.History

namespace ScriptDebugger

/-! ### Replies by their numbers -/

namespace Effect

/-- The number of the future that an effect delivers to. -/
def answered? : Effect → Option Nat
  | .answered ticket _ => some ticket
  | _ => none

end Effect

/-- The numbers of the futures that were delivered to. -/
def answeredTickets (effects : List Effect) : List Nat := effects.filterMap Effect.answered?

@[simp] theorem answeredTickets_nil : answeredTickets [] = [] := rfl

@[simp] theorem answeredTickets_cons (x : Effect) (effects : List Effect) :
    answeredTickets (x :: effects) = x.answered?.toList ++ answeredTickets effects :=
  filterMap_cons_toList Effect.answered? x effects

@[simp] theorem answeredTickets_append (effects rest : List Effect) :
    answeredTickets (effects ++ rest) = answeredTickets effects ++ answeredTickets rest :=
  List.filterMap_append

theorem answeredTickets_acknowledgement {χ : Type} {a : Action χ} (ends : a.endsSession) :
    answeredTickets a.acknowledgement = a.ticket?.toList := by
  cases a with
  | submit ticket c =>
    cases c with
    | stop => rfl
    | _ => cases ends
  | stop | finish => rfl
  | _ => cases ends

namespace Service

variable {χ : Type}

/-- The future that a snapshot is being taken for. -/
def ticket? : Service χ → Option Nat
  | .assembling _ ticket => some ticket
  | _ => none

@[simp] theorem ticket?_absent : (absent : Service χ).ticket? = none := rfl

@[simp] theorem ticket?_awake (call : LineCall χ) : (awake call).ticket? = none := rfl

@[simp] theorem ticket?_parked (call : LineCall χ) (notified : Bool) :
    (parked call notified).ticket? = none := rfl

@[simp] theorem ticket?_assembling (call : LineCall χ) (ticket : Nat) :
    (assembling call ticket).ticket? = some ticket := rfl

@[simp] theorem ticket?_wake (s : Service χ) : s.wake.ticket? = s.ticket? := by
  cases s <;> rfl

theorem ticket?_of_ready? {s : Service χ} {call : LineCall χ} (h : s.ready? = some call) :
    s.ticket? = none := by
  cases s with
  | assembling c ticket => cases h
  | _ => rfl

theorem ticket?_eq_some_iff (s : Service χ) (ticket : Nat) :
    s.ticket? = some ticket ↔ ∃ call, s = .assembling call ticket := by
  cases s <;> simp [ticket?]

end Service

namespace Engine

variable {χ : Type}

/-- The replies that the engine holds. -/
def replies (e : Engine χ) : List Nat :=
  (e.slot.map PendingCommand.ticket).toList ++ e.service.ticket?.toList

theorem answeredTickets_cancellation (slot : Option PendingCommand) :
    answeredTickets (cancellation slot) = (slot.map PendingCommand.ticket).toList := by
  cases slot <;> rfl

theorem mem_replies_iff (e : Engine χ) (ticket : Nat) :
    ticket ∈ e.replies ↔
      (∃ c, e.slot = some ⟨c, ticket⟩) ∨ ∃ call, e.service = .assembling call ticket := by
  unfold replies
  rw [List.mem_append, Option.mem_toList, Option.mem_toList, Service.ticket?_eq_some_iff,
    Option.map_eq_some_iff]
  refine or_congr ?_ Iff.rfl
  constructor
  · rintro ⟨⟨c, t⟩, hslot, rfl⟩
    exact ⟨c, hslot⟩
  · rintro ⟨c, hslot⟩
    exact ⟨⟨c, ticket⟩, hslot, rfl⟩

/-- **Replies are conserved.** -/
theorem Transition.replies_perm {e : Engine χ} {a : Action χ} {o : Outcome χ} (h : e.Coherent)
    (t : Transition e a o) :
    (e.replies ++ a.ticket?.toList).Perm (o.engine.replies ++ answeredTickets o.effects) := by
  cases t with
  | sleep | noAssembly | set | setSink | setListener | refuse | edit | pass =>
    simp [replies, Action.ticket?, Effect.answered?]
  | shutDown ends =>
    have hrest : answeredTickets (cancellation e.slot ++ a.acknowledgement) =
        (e.slot.map PendingCommand.ticket).toList ++ a.ticket?.toList := by
      rw [answeredTickets_append, answeredTickets_cancellation,
        answeredTickets_acknowledgement ends]
    -- the reply in the slot is answered, the one for a snapshot is still held
    have hswap : ((e.slot.map PendingCommand.ticket).toList ++ e.service.ticket?.toList).Perm
        (e.service.ticket?.toList ++ (e.slot.map PendingCommand.ticket).toList) :=
      List.perm_append_comm
    simpa [replies, hrest, Effect.answered?] using hswap.append_right a.ticket?.toList
  | stopAgain ends =>
    simp [replies, answeredTickets_acknowledgement ends]
  | accept _ _ free =>
    simp [replies, free, Action.ticket?, Effect.answered?]
  | suspend running =>
    simp [replies, h.absent_of_running running, Action.ticket?, Effect.answered?]
  | park ready | leave ready =>
    simp [replies, Service.ticket?_of_ready? ready, Action.ticket?, Effect.answered?]
  | resume ready _ waiting | exit ready _ waiting | assemble ready _ waiting
  | serveEdit ready _ waiting =>
    simp [replies, Service.ticket?_of_ready? ready, waiting, Action.ticket?, Effect.answered?]
  | finishAssembly assembling =>
    simp [replies, assembling, Action.ticket?, Effect.answered?]

/-! ### Where answers come from -/

/-- The answer to a command that is not put into the slot. -/
def atOnce? (e : Engine χ) (c : Command) : Option CommandResult :=
  if c = .stop then some stopped
  else
    match e.refusal? c with
    | some error => some (.error error)
    | none => if e.runState = .running then some (c.editResult e.breakpoints.source) else none

/-- The answer to a command that is carried out by the suspended call, but for a
    snapshot, which takes time. -/
def served? (source : Source) : Command → Option CommandResult
  | .resume => some (.ok (.acknowledged "continue run"))
  | .stepInto => some (.ok (.acknowledged (stepText .into)))
  | .stepOver => some (.ok (.acknowledged (stepText .over)))
  | .stepOut => some (.ok (.acknowledged (stepText .out)))
  | .exit => some (.ok (.acknowledged "exit"))
  | .getVariables => none
  | .stop => some stopped
  | c => some (c.editResult source)

/-- Why a command fails that is submitted. -/
inductive Refused (e : Engine χ) (c : Command) : DebuggerError → Prop
  | notRunning (no_stop : c ≠ .stop) (ended : e.runState = .stopped) : Refused e c .notRunning
  | notSuspended (needs : c.requiresSuspension = true) (running : e.runState = .running) :
      Refused e c .notSuspended
  | commandContention (no_stop : c ≠ .stop) (suspended : e.runState = .suspended)
      (taken : e.slot.isSome) : Refused e c .commandContention
  | lineResolution {line : UInt32} {enabled : Bool} (sets : c = .setBreakpoint line enabled)
      (running : e.runState = .running) (no_line : e.breakpoints.source.isBreakable line = false) :
      Refused e c (.lineResolution line e.breakpoints.source.name)

/-- **A command fails at once for these reasons, and for no others.** -/
theorem atOnce?_eq_error_iff (e : Engine χ) (c : Command) (error : DebuggerError) :
    e.atOnce? c = some (.error error) ↔ e.Refused c error := by
  constructor
  · intro h
    by_cases hstop : c = .stop
    · subst hstop
      cases h
    cases hrun : e.runState with
    | stopped =>
      have herror : DebuggerError.notRunning = error := by
        simpa [atOnce?, hstop, refusal?, hrun] using h
      exact herror ▸ .notRunning hstop hrun
    | running =>
      cases hneeds : c.requiresSuspension with
      | true =>
        have herror : DebuggerError.notSuspended = error := by
          simpa [atOnce?, hstop, refusal?, hrun, hneeds] using h
        exact herror ▸ .notSuspended hneeds hrun
      | false =>
        have hedit : c.editResult e.breakpoints.source = .error error := by
          simpa [atOnce?, hstop, refusal?, hrun, hneeds] using h
        obtain ⟨line, enabled, hset, hline, rfl⟩ :=
          (Command.editResult_eq_error_iff hstop hneeds).mp hedit
        exact .lineResolution hset hrun hline
    | suspended =>
      cases htaken : e.slot.isSome with
      | true =>
        have herror : DebuggerError.commandContention = error := by
          simpa [atOnce?, hstop, refusal?, hrun, htaken] using h
        exact herror ▸ .commandContention hstop hrun htaken
      | false => simp [atOnce?, hstop, refusal?, hrun, htaken] at h
  · intro h
    cases h with
    | notRunning no_stop ended => simp [atOnce?, no_stop, refusal?, ended]
    | notSuspended needs running =>
      have no_stop : c ≠ .stop := by
        rintro rfl
        cases needs
      simp [atOnce?, no_stop, refusal?, running, needs]
    | commandContention no_stop suspended taken =>
      simp [atOnce?, no_stop, refusal?, suspended, taken]
    | @lineResolution line enabled sets running no_line =>
      subst sets
      have hrefusal : e.refusal? (.setBreakpoint line enabled) = none := by
        simp only [refusal?, running]
        rfl
      have hedit := Command.editResult_of_not_breakable no_line enabled
      simp only [atOnce?, hrefusal, hedit, running, if_true, reduceCtorEq, if_false]

theorem atOnce?_eq_notRunning_iff (e : Engine χ) (c : Command) :
    e.atOnce? c = some (.error .notRunning) ↔ c ≠ .stop ∧ e.runState = .stopped := by
  rw [atOnce?_eq_error_iff]
  constructor
  · rintro ⟨no_stop, ended⟩
    exact ⟨no_stop, ended⟩
  · rintro ⟨no_stop, ended⟩
    exact .notRunning no_stop ended

/-- A command has to wait while the interpreter is suspended and the slot is free. -/
theorem atOnce?_eq_none_iff (e : Engine χ) (c : Command) :
    e.atOnce? c = none ↔ c ≠ .stop ∧ e.runState = .suspended ∧ e.slot = none := by
  unfold atOnce?
  split
  · rename_i hstop
    simp [hstop]
  · rename_i hstop
    cases hrun : e.runState with
    | stopped => simp [refusal?, hrun]
    | running => cases hneeds : c.requiresSuspension <;> simp [refusal?, hrun, hneeds]
    | suspended => cases hslot : e.slot <;> simp [refusal?, hrun, hslot, hstop]

theorem ne_stop_of_atOnce? {e : Engine χ} {c : Command} (h : e.atOnce? c = none) : c ≠ .stop := by
  rintro rfl
  cases h

theorem served?_ne_notRunning (source : Source) (c : Command) :
    served? source c ≠ some (.error .notRunning) := by
  cases c with
  | setBreakpoint line enabled | toggleMute muted =>
    intro h
    exact Command.editResult_ne _ (by decide) (by simp) (Option.some.inj h)
  | _ => simp [served?, stopped]

theorem served?_of_resumption {call : LineCall χ} {c : Command} {step : Option PendingStep}
    {text : String} {outcome : Resume} (source : Source)
    (h : resumption? call c = some (step, text, outcome)) :
    served? source c = some (.ok (.acknowledged text)) := by
  cases c with
  | resume | stepInto | stepOver | stepOut =>
    cases h
    rfl
  | _ => cases h

/-- **An answer is given at once, by the end of the session to a command that waits,
    by the suspended call to a command that waits, or with a snapshot.** -/
theorem Transition.answered {e : Engine χ} {a : Action χ} {o : Outcome χ} (h : e.Coherent)
    (t : Transition e a o) {ticket : Nat} {result : CommandResult}
    (hanswer : .answered ticket result ∈ o.effects) :
    (∃ c, a = .submit ticket c ∧ e.atOnce? c = some result) ∨
    (∃ c, e.slot = some ⟨c, ticket⟩ ∧ a.endsSession = true ∧ result = .error .notRunning) ∨
    (∃ c, e.slot = some ⟨c, ticket⟩ ∧ .served ⟨c, ticket⟩ ∈ o.effects ∧
      served? e.breakpoints.source c = some result) ∨
    (∃ call view, e.service = .assembling call ticket ∧ a = .finishAssembly view ∧
      result = .ok (.snapshot (e.assembler.assemble view.heap (view.stack call.context)))) := by
  have hacknowledged (hx : .answered ticket result ∈ a.acknowledgement) :
      ∃ c, a = .submit ticket c ∧ e.atOnce? c = some result := by
    unfold Action.acknowledgement at hx
    split at hx
    · cases List.mem_singleton.mp hx
      exact ⟨.stop, rfl, rfl⟩
    · cases hx
  cases t with
  | sleep | noAssembly | set | setSink | setListener | accept | pass | suspend | park | leave
  | assemble => simp at hanswer
  | shutDown ends =>
    rcases List.mem_cons.mp hanswer with hx | hx
    · cases hx
    rcases List.mem_append.mp hx with hx | hx
    · cases hslot : e.slot with
      | none =>
        rw [hslot] at hx
        cases hx
      | some p =>
        rw [hslot] at hx
        cases List.mem_singleton.mp hx
        exact .inr (.inl ⟨p.command, rfl, ends, rfl⟩)
    · exact .inl (hacknowledged hx)
  | stopAgain => exact .inl (hacknowledged hanswer)
  | refuse no_stop refused =>
    cases List.mem_singleton.mp hanswer
    exact .inl ⟨_, rfl, by simp [atOnce?, no_stop, refused]⟩
  | edit no_stop running edits =>
    cases List.mem_singleton.mp hanswer
    exact .inl ⟨_, rfl, by simp [atOnce?, no_stop, refusal?, running, edits]⟩
  | @resume call pending step text outcome _ _ waiting resumes =>
    have hx : ticket = pending.ticket ∧ result = .ok (.acknowledged text) := by
      simpa using hanswer
    obtain ⟨rfl, rfl⟩ := hx
    exact .inr (.inr (.inl ⟨pending.command, waiting, by simp,
      served?_of_resumption _ resumes⟩))
  | @exit call pending _ _ waiting exits =>
    have hx : ticket = pending.ticket ∧ result = .ok (.acknowledged "exit") := by
      simpa using hanswer
    obtain ⟨rfl, rfl⟩ := hx
    exact .inr (.inr (.inl ⟨pending.command, waiting, by simp, by rw [exits]; rfl⟩))
  | @serveEdit call pending _ _ waiting edits =>
    have hx : ticket = pending.ticket ∧
        result = pending.command.editResult e.breakpoints.source := by
      simpa using hanswer
    obtain ⟨rfl, rfl⟩ := hx
    refine .inr (.inr (.inl ⟨pending.command, waiting, by simp, ?_⟩))
    have hno_stop := h.ne_stop_of_slot pending waiting
    cases hc : pending.command with
    | setBreakpoint line enabled | toggleMute muted => rfl
    | stop => exact absurd hc hno_stop
    | _ => rw [hc] at edits; cases edits
  | finishAssembly assembling =>
    cases List.mem_singleton.mp hanswer
    exact .inr (.inr (.inr ⟨_, _, assembling, rfl, rfl⟩))

/-! ### The way of a reply -/

section Way

variable {e : Engine χ} {a : Action χ} {o : Outcome χ} (t : Transition e a o)

include t

/-- What waits has waited, or was submitted just now. -/
theorem Transition.waiting {c : Command} {ticket : Nat}
    (hslot : o.engine.slot = some ⟨c, ticket⟩) :
    e.slot = some ⟨c, ticket⟩ ∨ a = .submit ticket c ∧ e.atOnce? c = none := by
  cases t with
  | sleep | noAssembly | set | setSink | setListener | stopAgain | refuse | edit | pass
  | suspend | park | leave | finishAssembly => exact .inl hslot
  | accept no_stop suspended free =>
    cases hslot
    exact .inr ⟨rfl, by simp [atOnce?, no_stop, refusal?, suspended, free]⟩
  | shutDown | resume | exit | assemble | serveEdit => cases hslot

/-- A snapshot that is being taken was being taken, or its command was taken out of
    the slot just now. -/
theorem Transition.assembling {call : LineCall χ} {ticket : Nat}
    (hservice : o.engine.service = .assembling call ticket) :
    e.service = .assembling call ticket ∨
      e.slot = some ⟨.getVariables, ticket⟩ ∧ .served ⟨.getVariables, ticket⟩ ∈ o.effects := by
  cases t with
  | sleep | noAssembly | set | setSink | setListener | refuse | edit | pass =>
    exact .inl hservice
  | shutDown | stopAgain | accept =>
    exact .inl ((Service.wake_eq_assembling_iff _ call ticket).mp hservice)
  | @assemble _ pending _ _ waiting reads =>
    obtain ⟨c, n⟩ := pending
    cases hservice
    cases reads
    exact .inr ⟨waiting, List.mem_singleton.mpr rfl⟩
  | suspend | park | leave | resume | exit | serveEdit | finishAssembly => cases hservice

/-- A snapshot that is being taken is taken further, or it is delivered. -/
theorem Transition.assembled {call : LineCall χ} {ticket : Nat} (h : e.Coherent)
    (hservice : e.service = .assembling call ticket) :
    o.engine.service = .assembling call ticket ∨
      ∃ snapshot, .answered ticket (.ok (.snapshot snapshot)) ∈ o.effects := by
  cases t with
  | sleep | noAssembly | set | setSink | setListener | refuse | edit | pass =>
    exact .inl hservice
  | shutDown | stopAgain | accept =>
    exact .inl ((Service.wake_eq_assembling_iff _ call ticket).mpr hservice)
  | suspend running =>
    rw [h.absent_of_running running] at hservice
    cases hservice
  | park ready | leave ready | resume ready | exit ready | assemble ready | serveEdit ready =>
    rw [hservice] at ready
    cases ready
  | finishAssembly assembling =>
    rw [hservice] at assembling
    cases assembling
    exact .inr ⟨_, List.mem_singleton.mpr rfl⟩

/-- A command that waits is cancelled by the end of the session. -/
theorem Transition.cancels {c : Command} {ticket : Nat} (h : e.Coherent)
    (hslot : e.slot = some ⟨c, ticket⟩) (ends : a.endsSession = true) :
    .answered ticket (.error .notRunning) ∈ o.effects := by
  cases t with
  | shutDown => simp [hslot, cancellation]
  | stopAgain _ ended =>
    rw [(h.none_of_stopped ended).1] at hslot
    cases hslot
  | refuse no_stop | edit no_stop | accept no_stop =>
    exact absurd (by simpa using ends) no_stop
  | _ => cases ends

/-- A command that is carried out is answered by that, or a snapshot is being taken
    for it. -/
theorem Transition.serves {c : Command} {ticket : Nat}
    (hserved : .served ⟨c, ticket⟩ ∈ o.effects) :
    e.slot = some ⟨c, ticket⟩ ∧
      ((∃ result, .answered ticket result ∈ o.effects ∧ result ≠ .error .notRunning) ∨
        ∃ call, o.engine.service = .assembling call ticket) := by
  cases t with
  | sleep | noAssembly | set | setSink | setListener | refuse | edit | accept | pass | suspend
  | park | leave | finishAssembly => simp at hserved
  | shutDown =>
    rcases List.mem_cons.mp hserved with hx | hx
    · cases hx
    · cases isAnswer_shutDown e.slot a _ hx
  | stopAgain => cases a.isAnswer_acknowledgement _ hserved
  | resume _ _ waiting | exit _ _ waiting =>
    rcases List.mem_cons.mp hserved with hx | hx
    · cases hx
      have hanswer {x y z : Effect} {rest : List Effect} : z ∈ x :: y :: z :: rest := by simp
      exact ⟨waiting, .inl ⟨_, hanswer, by simp⟩⟩
    · simp at hx
  | assemble _ _ waiting =>
    cases List.mem_singleton.mp hserved
    exact ⟨waiting, .inr ⟨_, rfl⟩⟩
  | serveEdit _ _ waiting =>
    rcases List.mem_cons.mp hserved with hx | hx
    · cases hx
      refine ⟨waiting, .inl ⟨_, List.mem_cons_of_mem _ List.mem_cons_self, ?_⟩⟩
      exact Command.editResult_ne c (by decide) (by simp)
    · simp at hx

/-- The source unit stays the same. -/
theorem Transition.source : o.engine.breakpoints.source = e.breakpoints.source := by
  cases t with
  | set => exact Breakpoints.attempt_source _ _ _
  | edit | serveEdit => exact Breakpoints.edited_source _ _
  | _ => rfl

end Way

end Engine

end ScriptDebugger
