/-
  ScriptDebugger/Proofs/Engine/Operation.lean
  ===========================================
  **Parts of the engine's operations.**

  Waking a call leaves it the same call; whoever ends the session is told so if it
  was done by a command; an edit touches the table and the mute flag only, and its
  result hangs on the source unit alone.
-/
import ScriptDebugger.Engine.Run
import ScriptDebugger.Proofs.Breakpoints

namespace ScriptDebugger

/-! ### The suspended call -/

namespace Service

variable {χ : Type}

/-- The call by which the interpreter is suspended. -/
def call? : Service χ → Option (LineCall χ)
  | .absent => none
  | .awake call | .parked call _ | .assembling call _ => some call

/-- The call that may look at the slot. -/
def ready? : Service χ → Option (LineCall χ)
  | .awake call | .parked call true => some call
  | _ => none

@[simp] theorem call?_wake (s : Service χ) : s.wake.call? = s.call? := by
  cases s <;> rfl

theorem call?_of_ready? {s : Service χ} {call : LineCall χ} (h : s.ready? = some call) :
    s.call? = some call := by
  cases s with
  | absent => cases h
  | awake c => exact h
  | parked c notified =>
    cases notified with
    | false => cases h
    | true => exact h
  | assembling c ticket => cases h

/-- A call that takes a snapshot is not disturbed. -/
@[simp] theorem wake_eq_assembling_iff (s : Service χ) (call : LineCall χ) (ticket : Nat) :
    s.wake = .assembling call ticket ↔ s = .assembling call ticket := by
  cases s <;> simp [wake]

end Service

/-! ### Actions that end the session -/

namespace Action

variable {χ : Type}

/-- Whether an action ends the session from outside. -/
def endsSession : Action χ → Bool
  | .stop | .finish | .submit _ .stop => true
  | _ => false

@[simp] theorem endsSession_submit (ticket : Nat) (c : Command) :
    (submit ticket c : Action χ).endsSession = true ↔ c = .stop := by
  cases c <;> simp [endsSession]

/-- What a controller is told that ended the session by a command. -/
def acknowledgement : Action χ → List Effect
  | .submit ticket .stop => [.answered ticket Engine.stopped]
  | _ => []

end Action

namespace Effect

/-- Whether an effect is the delivery of a result. -/
def isAnswer : Effect → Bool
  | .answered _ _ => true
  | _ => false

end Effect

theorem Action.isAnswer_acknowledgement {χ : Type} (a : Action χ) :
    ∀ x ∈ a.acknowledgement, x.isAnswer := by
  intro x hx
  unfold acknowledgement at hx
  split at hx
  · rw [List.mem_singleton.mp hx]
    rfl
  · cases hx

theorem Engine.isAnswer_cancellation (slot : Option PendingCommand) :
    ∀ x ∈ cancellation slot, x.isAnswer := by
  intro x hx
  cases slot with
  | none => cases hx
  | some p =>
    rw [List.mem_singleton.mp hx]
    rfl

/-- The effects that follow the end of a session are deliveries. -/
theorem Engine.isAnswer_shutDown {χ : Type} (slot : Option PendingCommand) (a : Action χ) :
    ∀ x ∈ cancellation slot ++ a.acknowledgement, x.isAnswer := by
  intro x hx
  rcases List.mem_append.mp hx with hx | hx
  · exact isAnswer_cancellation slot x hx
  · exact a.isAnswer_acknowledgement x hx

/-- What does not count deliveries finds nothing in them. -/
theorem filterMap_of_isAnswer {β : Type} {f : Effect → Option β}
    (hf : ∀ ticket result, f (.answered ticket result) = none) {history : List Effect}
    (h : ∀ x ∈ history, x.isAnswer) : history.filterMap f = [] := by
  refine List.filterMap_eq_nil_iff.mpr fun x hx => ?_
  have hanswer := h x hx
  cases x with
  | answered ticket result => exact hf ticket result
  | _ => cases hanswer

/-! ### Edits -/

/-- The table after a command. -/
def Breakpoints.edited (table : Breakpoints) : Command → Breakpoints
  | .setBreakpoint line enabled => table.attempt line enabled
  | _ => table

/-- Whether breakpoints are muted after a command. -/
def Command.mutes (muted : Bool) : Command → Bool
  | .toggleMute m => m
  | _ => muted

/-- The result of an edit hangs on the source unit only. -/
def Command.editResult (source : Source) : Command → CommandResult
  | .setBreakpoint line enabled =>
    if source.isBreakable line then .ok (.acknowledged (Engine.setText line enabled))
    else .error (Breakpoints.refusal source line)
  | .toggleMute muted => .ok (.acknowledged ("breakpoints muted toggled to " ++ toString muted))
  | _ => .error .notSuspended

theorem Command.editResult_of_not_breakable {source : Source} {line : UInt32}
    (hline : source.isBreakable line = false) (enabled : Bool) :
    (setBreakpoint line enabled).editResult source = .error (.lineResolution line source.name) := by
  simp [editResult, hline, Breakpoints.refusal]

/-- An edit fails on a line that takes no breakpoint and nowhere else. -/
theorem Command.editResult_eq_error_iff {source : Source} {error : DebuggerError} {c : Command}
    (no_stop : c ≠ .stop) (edits : c.requiresSuspension = false) :
    c.editResult source = .error error ↔
      ∃ line enabled, c = .setBreakpoint line enabled ∧ source.isBreakable line = false ∧
        error = .lineResolution line source.name := by
  cases c with
  | setBreakpoint line enabled =>
    cases hline : source.isBreakable line with
    | false =>
      rw [editResult_of_not_breakable hline]
      constructor
      · intro h
        cases h
        exact ⟨line, enabled, rfl, hline, rfl⟩
      · rintro ⟨_, _, hset, _, rfl⟩
        cases hset
        rfl
    | true => simp [editResult, hline]
  | toggleMute muted => simp [editResult]
  | stop => exact absurd rfl no_stop
  | _ => cases edits

/-- An edit fails only where it does not apply or on a line that takes no breakpoint. -/
theorem Command.editResult_ne {source : Source} {error : DebuggerError} (c : Command)
    (happlies : error ≠ .notSuspended) (hline : ∀ line name, error ≠ .lineResolution line name) :
    c.editResult source ≠ .error error := by
  intro h
  cases c with
  | setBreakpoint line enabled =>
    by_cases hbreakable : source.isBreakable line
    · simp [editResult, hbreakable] at h
    · simp only [editResult, hbreakable, if_false, Bool.false_eq_true] at h
      injection h with h
      exact hline line source.name h.symm
  | toggleMute muted => cases h
  | _ =>
    injection h with h
    exact happlies h.symm

@[simp] theorem Breakpoints.edited_source (table : Breakpoints) (c : Command) :
    (table.edited c).source = table.source := by
  cases c with
  | setBreakpoint line enabled => exact attempt_source table line enabled
  | _ => rfl

namespace Engine

variable {χ : Type}

theorem setBreakpoint_engine (e : Engine χ) (line : UInt32) (enabled : Bool) :
    (e.setBreakpoint line enabled).1 =
      { e with breakpoints := e.breakpoints.attempt line enabled } := by
  rcases hset : e.breakpoints.set line enabled with refusal | table
  · simp only [setBreakpoint, Breakpoints.attempt, hset]
  · simp only [setBreakpoint, Breakpoints.attempt, hset]

/-- An edit touches the table and the mute flag only. -/
theorem edit_engine (e : Engine χ) (c : Command) :
    (e.edit c).1 =
      { e with breakpoints := e.breakpoints.edited c, muted := c.mutes e.muted } := by
  cases c with
  | setBreakpoint line enabled => exact setBreakpoint_engine e line enabled
  | _ => rfl

theorem setBreakpoint_result (e : Engine χ) (line : UInt32) (enabled : Bool) :
    (e.setBreakpoint line enabled).2 =
      (Command.setBreakpoint line enabled).editResult e.breakpoints.source := by
  simp only [setBreakpoint, Breakpoints.set, Command.editResult]
  by_cases hline : e.breakpoints.source.isBreakable line
  · simp only [hline, if_true]
  · simp only [hline, if_false, Bool.false_eq_true]

theorem edit_result (e : Engine χ) (c : Command) :
    (e.edit c).2 = c.editResult e.breakpoints.source := by
  cases c with
  | setBreakpoint line enabled => exact setBreakpoint_result e line enabled
  | _ => rfl

end Engine

end ScriptDebugger
