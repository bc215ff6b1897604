/-
  ScriptDebugger/Proofs/Engine/SlotOrder.lean
  ===========================================
  **The order of commands.**

  The slot holds one command, and whoever comes second is turned away.  Seen over a
  whole run it is a queue of length one: the commands that were carried out are the
  commands that were put into the slot, in the same order, but for the last one,
  which may still wait or may have been cancelled.  `Queued` is this sentence as an
  invariant; it also knows which command the snapshot belongs to that is being
  taken, while the next command may already be waiting.
-/
import ScriptDebugger.Proofs.Engine.AfterEnd
import ScriptDebugger.Proofs.History

namespace ScriptDebugger

/-! ### Commands in a history -/

namespace Effect

/-- The command that an effect puts into the slot. -/
def accepted? : Effect → Option PendingCommand
  | .accepted p => some p
  | _ => none

/-- The command that an effect takes out of the slot to carry it out. -/
def served? : Effect → Option PendingCommand
  | .served p => some p
  | _ => none

/-- Whether a command is put into the slot or taken out to be carried out. -/
def isHandOver (x : Effect) : Bool := x.accepted?.isSome || x.served?.isSome

theorem not_isHandOver_of_isAnswer {x : Effect} (h : x.isAnswer) : x.isHandOver = false := by
  cases x with
  | answered ticket result => rfl
  | _ => cases h

theorem not_isHandOver_of_isAftermath {x : Effect} (h : x.IsAftermath) : x.isHandOver = false := by
  cases x with
  | accepted p | served p => exact h.elim
  | _ => rfl

end Effect

/-- The commands that were put into the slot, in this order. -/
def acceptedCommands (history : List Effect) : List PendingCommand :=
  history.filterMap Effect.accepted?

/-- The commands that were carried out, in this order. -/
def servedCommands (history : List Effect) : List PendingCommand :=
  history.filterMap Effect.served?

@[simp] theorem acceptedCommands_nil : acceptedCommands [] = [] := rfl

@[simp] theorem servedCommands_nil : servedCommands [] = [] := rfl

@[simp] theorem acceptedCommands_cons (x : Effect) (history : List Effect) :
    acceptedCommands (x :: history) = x.accepted?.toList ++ acceptedCommands history :=
  filterMap_cons_toList Effect.accepted? x history

@[simp] theorem servedCommands_cons (x : Effect) (history : List Effect) :
    servedCommands (x :: history) = x.served?.toList ++ servedCommands history :=
  filterMap_cons_toList Effect.served? x history

@[simp] theorem acceptedCommands_append (history rest : List Effect) :
    acceptedCommands (history ++ rest) = acceptedCommands history ++ acceptedCommands rest :=
  List.filterMap_append

@[simp] theorem servedCommands_append (history rest : List Effect) :
    servedCommands (history ++ rest) = servedCommands history ++ servedCommands rest :=
  List.filterMap_append

theorem mem_servedCommands {p : PendingCommand} {history : List Effect} :
    p ∈ servedCommands history ↔ .served p ∈ history := by
  unfold servedCommands
  rw [List.mem_filterMap]
  constructor
  · rintro ⟨x, hx, hserved⟩
    cases x with
    | served p' =>
      cases hserved
      exact hx
    | _ => cases hserved
  · intro hx
    exact ⟨_, hx, rfl⟩

/-- Where nothing is handed over, the two sequences stay as they are. -/
theorem commands_of_quiet {history : List Effect} (h : ∀ x ∈ history, x.isHandOver = false) :
    acceptedCommands history = [] ∧ servedCommands history = [] := by
  constructor
  · refine List.filterMap_eq_nil_iff.mpr fun x hx => ?_
    have hquiet := h x hx
    simp only [Effect.isHandOver, Bool.or_eq_false_iff] at hquiet
    simpa using hquiet.1
  · refine List.filterMap_eq_nil_iff.mpr fun x hx => ?_
    have hquiet := h x hx
    simp only [Effect.isHandOver, Bool.or_eq_false_iff] at hquiet
    simpa using hquiet.2

/-- The session ended while the command waited, all that came before it had been
    carried out, and nothing was handed over later. -/
def Cancelled (p : PendingCommand) : List Effect → Prop :=
  Since
    (fun before x => x = .answered p.ticket (.error .notRunning) ∧
      (∃ sink, before.getLast? = some (.entered .stopped sink)) ∧
      acceptedCommands before = servedCommands before ++ [p])
    (fun y => y.isHandOver)

theorem Cancelled.accepted {p : PendingCommand} {history : List Effect}
    (h : Cancelled p history) :
    acceptedCommands history = servedCommands history ++ [p] := by
  obtain ⟨before, x, after, rfl, ⟨rfl, _, hbefore⟩, hafter⟩ := h
  obtain ⟨haccepted, hserved⟩ := commands_of_quiet fun y hy => by simpa using hafter y hy
  simp [haccepted, hserved, hbefore, Effect.accepted?, Effect.served?]

theorem commands_of_isAnswer {history : List Effect} (h : ∀ x ∈ history, x.isAnswer) :
    acceptedCommands history = [] ∧ servedCommands history = [] :=
  commands_of_quiet fun x hx => Effect.not_isHandOver_of_isAnswer (h x hx)

namespace Engine

variable {χ : Type}

/-! ### The invariant -/

/-- What the effects so far say of the order of commands. -/
structure Queued (past : List Effect) (e : Engine χ) : Prop where
  /-- All commands that were put into the slot but for the one that waits were
      carried out, or else the last one was cancelled. -/
  order : acceptedCommands past = servedCommands past ++ e.slot.toList ∨
    e.runState = .stopped ∧ e.slot = none ∧ ∃ p, Cancelled p past
  /-- A snapshot is taken for the last command that was carried out. -/
  assembling : ∀ call ticket, e.service = .assembling call ticket →
    (servedCommands past).getLast? = some ⟨.getVariables, ticket⟩
  /-- The end of the session is never put into the slot. -/
  noStop : ∀ p ∈ acceptedCommands past, p.command ≠ .stop

/-- After the end of the session nothing is handed over. -/
theorem Transition.quiet_of_stopped {e : Engine χ} {a : Action χ} {o : Outcome χ}
    (h : e.Coherent) (ended : e.runState = .stopped) (t : Transition e a o) :
    o.engine.runState = .stopped ∧ o.engine.slot = none ∧
      ∀ x ∈ o.effects, x.isHandOver = false := by
  obtain ⟨hsettled, heffects, _⟩ := t.settled ended
  refine ⟨hsettled.ended, hsettled.slot.trans (h.none_of_stopped ended).1, fun x hx => ?_⟩
  exact Effect.not_isHandOver_of_isAftermath (heffects x hx)

namespace Queued

variable {past : List Effect} {e : Engine χ} {a : Action χ} {o : Outcome χ}

theorem step_order (h : e.Coherent) (hpast : Queued past e) (t : Transition e a o) :
    acceptedCommands (past ++ o.effects) =
        servedCommands (past ++ o.effects) ++ o.engine.slot.toList ∨
      o.engine.runState = .stopped ∧ o.engine.slot = none ∧ ∃ p, Cancelled p (past ++ o.effects) := by
  rcases hpast.order with horder | ⟨hended, _, p, hcancelled⟩
  · cases t with
    | sleep | noAssembly | set | setSink | setListener | refuse | edit | pass | suspend | park
    | leave | finishAssembly =>
      left
      simpa [Effect.accepted?, Effect.served?] using horder
    | shutDown =>
      cases hslot : e.slot with
      | none =>
        left
        obtain ⟨haccepted, hserved⟩ := commands_of_isAnswer (isAnswer_shutDown none a)
        simpa [Effect.accepted?, Effect.served?, haccepted, hserved, hslot] using horder
      | some p =>
        -- the command that waits is the last one that was put into the slot
        refine .inr ⟨rfl, rfl, p, past ++ [.entered .stopped e.sink], _, a.acknowledgement,
          by simp [cancellation], ⟨rfl, ⟨e.sink, by simp⟩, ?_⟩, fun y hy => ?_⟩
        · simpa [Effect.accepted?, Effect.served?, hslot] using horder
        · simp [Effect.not_isHandOver_of_isAnswer (a.isAnswer_acknowledgement y hy)]
    | stopAgain =>
      left
      obtain ⟨haccepted, hserved⟩ := commands_of_isAnswer a.isAnswer_acknowledgement
      simpa [haccepted, hserved] using horder
    | accept _ _ free =>
      left
      simpa [Effect.accepted?, Effect.served?, free] using horder
    | resume _ _ waiting | exit _ _ waiting | assemble _ _ waiting | serveEdit _ _ waiting =>
      left
      simpa [Effect.accepted?, Effect.served?, waiting] using horder
  · obtain ⟨hstays, hslot, hquiet⟩ := t.quiet_of_stopped h hended
    exact .inr ⟨hstays, hslot, p, hcancelled.append_of_false hquiet⟩

theorem step_assembling (hpast : Queued past e) (t : Transition e a o) :
    ∀ call ticket, o.engine.service = .assembling call ticket →
      (servedCommands (past ++ o.effects)).getLast? = some ⟨.getVariables, ticket⟩ := by
  intro call ticket hservice
  cases t with
  | sleep | noAssembly | set | setSink | setListener | refuse | edit | pass =>
    simpa [Effect.served?] using hpast.assembling call ticket hservice
  | accept =>
    have hassembling := (Service.wake_eq_assembling_iff _ call ticket).mp hservice
    simpa [Effect.served?] using hpast.assembling call ticket hassembling
  | shutDown =>
    have hassembling := (Service.wake_eq_assembling_iff _ call ticket).mp hservice
    have hquiet := (commands_of_isAnswer (isAnswer_shutDown e.slot a)).2
    rw [servedCommands_append, servedCommands_cons, hquiet]
    simpa [Effect.served?] using hpast.assembling call ticket hassembling
  | stopAgain =>
    have hassembling := (Service.wake_eq_assembling_iff _ call ticket).mp hservice
    have hquiet := (commands_of_isAnswer a.isAnswer_acknowledgement).2
    rw [servedCommands_append, hquiet, List.append_nil]
    exact hpast.assembling call ticket hassembling
  | @assemble _ pending _ _ _ reads =>
    cases hservice
    simp [Effect.served?, ← reads]
  | suspend | park | leave | resume | exit | serveEdit | finishAssembly => cases hservice

theorem step_noStop (hpast : Queued past e) (t : Transition e a o) :
    ∀ p ∈ acceptedCommands (past ++ o.effects), p.command ≠ .stop := by
  intro p hp
  rw [acceptedCommands_append] at hp
  rcases List.mem_append.mp hp with hp | hp
  · exact hpast.noStop p hp
  cases t with
  | accept no_stop =>
    rw [show p = _ by simpa [Effect.accepted?] using hp]
    exact no_stop
  | shutDown =>
    have hquiet := (commands_of_isAnswer (isAnswer_shutDown e.slot a)).1
    simp [Effect.accepted?, hquiet] at hp
  | stopAgain =>
    have hquiet := (commands_of_isAnswer a.isAnswer_acknowledgement).1
    simp [hquiet] at hp
  | _ => simp [Effect.accepted?] at hp

theorem step (h : e.Coherent) (hpast : Queued past e) (t : Transition e a o) :
    Queued (past ++ o.effects) o.engine where
  order := hpast.step_order h t
  assembling := hpast.step_assembling t
  noStop := hpast.step_noStop t

end Queued

theorem queued_ofSource (source : Source) (config : Config) :
    Queued [] (ofSource source config : Engine χ) := by
  obtain ⟨_, hslot, _, hservice⟩ := ofSource_start (χ := χ) source config
  refine ⟨.inl (by rw [hslot]; rfl), ?_, by simp⟩
  intro call ticket hassembling
  rw [hservice] at hassembling
  cases hassembling

/-- **The effects of every run hand the commands over in order.** -/
theorem run_queued (source : Source) (config : Config) (actions : List (Action χ)) :
    Queued ((ofSource source config).run actions).effects
      ((ofSource source config).run actions).engine :=
  ofSource_run_induction source config (queued_ofSource source config)
    (fun h hpast t => hpast.step h t) actions

/-! ### The order of commands -/

/-- What the end of a session delivers does not speak of a command that waits. -/
theorem ne_contention_of_mem_shutDown {slot : Option PendingCommand} {a : Action χ}
    {ticket : Nat} :
    .answered ticket (.error .commandContention) ∉ cancellation slot ++ a.acknowledgement := by
  intro hx
  rcases List.mem_append.mp hx with hx | hx
  · cases slot with
    | none => cases hx
    | some p => simp [cancellation] at hx
  · unfold Action.acknowledgement at hx
    split at hx
    · simp [stopped] at hx
    · cases hx

/-- A command that is turned away because another one waits leaves no trace but its
    answer. -/
theorem submit_of_contention {e : Engine χ} (h : e.Coherent) {ticket : Nat} {c : Command}
    (hanswer : .answered ticket (.error .commandContention) ∈ (e.submit ticket c).effects) :
    e.slot ≠ none ∧ e.submit ticket c = ⟨e, [.answered ticket (.error .commandContention)]⟩ := by
  have t := submit_transition h ticket c
  generalize e.submit ticket c = o at t hanswer
  cases t with
  | shutDown =>
    rcases List.mem_cons.mp hanswer with hx | hx
    · cases hx
    · exact absurd hx ne_contention_of_mem_shutDown
  | stopAgain =>
    exact absurd (List.mem_append_right (cancellation none) hanswer) ne_contention_of_mem_shutDown
  | @refuse _ _ error _ refused =>
    have herror : error = .commandContention := by simpa using (List.mem_singleton.mp hanswer).symm
    subst herror
    refine ⟨?_, rfl⟩
    intro hslot
    unfold refusal? at refused
    split at refused
    · cases refused
    · split at refused <;> cases refused
    · rw [hslot] at refused
      cases refused
  | edit =>
    have hresult := List.mem_singleton.mp hanswer
    injection hresult with _ hresult
    exact absurd hresult.symm (Command.editResult_ne c (by decide) (by simp))
  | accept => cases List.mem_singleton.mp hanswer

/-- **No command is lost, carried out twice or overtaken.** -/
theorem commands_in_order (source : Source) (config : Config) (actions : List (Action χ)) :
    let o := (ofSource source config : Engine χ).run actions
    -- what was carried out is what was put into the slot, but for the last command
    (∃ rest, acceptedCommands o.effects = servedCommands o.effects ++ rest ∧
      (rest = [] ∧ o.engine.slot = none ∨
        ∃ p, rest = [p] ∧ (o.engine.slot = some p ∨ o.engine.slot = none ∧ Cancelled p o.effects))) ∧
    -- a snapshot in progress is the last command that was taken out
    (∀ call ticket, o.engine.service = .assembling call ticket →
      (servedCommands o.effects).getLast? = some ⟨.getVariables, ticket⟩) ∧
    -- whoever is turned away changes nothing, now and later
    (∀ ticket c, .answered ticket (.error .commandContention) ∈
        (o.engine.act (.submit ticket c)).effects →
      (∃ p, o.engine.slot = some p) ∧ ∀ later,
        o.engine.run (.submit ticket c :: later) =
          ⟨(o.engine.run later).engine,
            .answered ticket (.error .commandContention) :: (o.engine.run later).effects⟩) ∧
    -- the end of the session never waits
    (∀ p ∈ acceptedCommands o.effects, p.command ≠ .stop) ∧
    (∀ p, o.engine.slot = some p → p.command ≠ .stop) := by
  intro o
  have h : o.engine.Coherent := run_coherent (ofSource_coherent source config) actions
  have hqueued : Queued o.effects o.engine := run_queued source config actions
  refine ⟨?_, hqueued.assembling, ?_, hqueued.noStop, h.ne_stop_of_slot⟩
  · rcases hqueued.order with horder | ⟨_, hslot, p, hcancelled⟩
    · refine ⟨o.engine.slot.toList, horder, ?_⟩
      cases hslot : o.engine.slot with
      | none => exact .inl ⟨rfl, rfl⟩
      | some p => exact .inr ⟨p, rfl, .inl rfl⟩
    · exact ⟨[p], hcancelled.accepted, .inr ⟨p, rfl, .inr ⟨hslot, hcancelled⟩⟩⟩
  · intro ticket c hanswer
    obtain ⟨hslot, hsubmit⟩ := submit_of_contention h hanswer
    refine ⟨Option.ne_none_iff_exists'.mp hslot, fun later => ?_⟩
    rw [run_cons, show o.engine.act (.submit ticket c) = _ from hsubmit]
    rfl

end Engine

end ScriptDebugger
