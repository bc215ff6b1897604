/-
  ScriptDebugger/Proofs/Session/Receiver.lean
  ===========================================
  **A receiver of notices that is gone.**

  A session may drop the receiver of its newest listener.  The engine goes on to send
  notices to that listener, and nobody hears them.  `Session.deaf` is the session in
  which nobody receives notices: whatever is requested of a session, its deaf twin
  gives the same answer and comes to the deaf twin of the same session, until a new
  listener is installed, which makes the two one again.
-/
import ScriptDebugger.Session

namespace ScriptDebugger

namespace Session

/-- The session in which nobody receives notices. -/
def deaf (s : Session) : Session := { s with receiving := none, inbox := [] }

/-- Serves requests one after another; the answers come in the same order. -/
def serveAll (s : Session) : List Request → Session × List (Answer × Option Resume)
  | [] => (s, [])
  | r :: requests =>
    let (next, answer) := s.serve r
    let (last, answers) := next.serveAll requests
    (last, answer :: answers)

/-! ### Effects and futures -/

theorem deaf_write (s : Session) (sink : Nat) (state : RunState) :
    (s.write sink state).deaf = s.deaf.write sink state := by
  rcases hs : s.sinks[sink]? with _ | _ | _ <;> simp only [write, deaf, hs]

theorem deaf_note (s : Session) (x : Effect) : (s.note x).deaf = s.deaf.note x := by
  cases x with
  | entered state sink =>
    cases sink with
    | none => rfl
    | some sink => exact s.deaf_write sink state
  | attached sink state => exact s.deaf_write sink state
  | suspended event listener =>
    -- nobody is the receiver of the deaf twin
    have hnobody : ¬ (listener = s.deaf.receiving ∧ listener.isSome) := by
      rintro ⟨hlistener, hsome⟩
      rw [hlistener] at hsome
      cases hsome
    simp only [note, if_neg hnobody]
    split <;> rfl
  | _ => rfl

theorem deaf_foldl_note (s : Session) (effects : List Effect) :
    (effects.foldl note s).deaf = effects.foldl note s.deaf := by
  induction effects generalizing s with
  | nil => rfl
  | cons x effects ih => rw [List.foldl_cons, List.foldl_cons, ih, deaf_note]

theorem deaf_absorb (s : Session) (o : Outcome ContextRef) :
    (s.absorb o).deaf = s.deaf.absorb o :=
  deaf_foldl_note _ o.effects

theorem deaf_perform (s : Session) (operation : Engine ContextRef → Outcome ContextRef) :
    s.deaf.perform operation = ((s.perform operation).1.deaf, (s.perform operation).2) := by
  simp only [perform, deaf_absorb]
  rfl

theorem deaf_submit (s : Session) (command : Command) (mode : SubmitMode) :
    s.deaf.submit command mode =
      ((s.submit command mode).1.deaf, (s.submit command mode).2) := by
  have hperform := deaf_perform { s with rendezvous := s.rendezvous.handOut } fun e =>
    e.submit s.rendezvous.futures.length command
  change Session.perform { s.deaf with rendezvous := s.deaf.rendezvous.handOut }
    (fun e => e.submit s.deaf.rendezvous.futures.length command) = _ at hperform
  simp only [submit, hperform]
  cases mode with
  | wait =>
    -- whether the call stack is held does not hang on the receiver
    generalize Session.perform _ _ = performed
    simp only [show performed.1.deaf.isHeld = performed.1.isHeld from rfl]
    split <;> rfl
  | keep | drop => rfl

theorem deaf_install (s : Session) (kind : SinkKind) :
    (s.install kind).deaf = s.deaf.install kind :=
  deaf_absorb _ _

/-! ### Requests -/

@[simp] theorem deaf_deaf (s : Session) : s.deaf.deaf = s.deaf := rfl

/-- **A deaf twin answers the same and stays a twin.** -/
theorem deaf_serve (s : Session) (r : Request) :
    (s.deaf.serve r).1.deaf = (s.serve r).1.deaf ∧ (s.deaf.serve r).2 = (s.serve r).2 := by
  cases r with
  | line call | stop | finish => simp [serve, deaf_perform]
  | release =>
    have hperform := deaf_perform { s with armed := false } Engine.idle
    change Session.perform { s.deaf with armed := false } Engine.idle = _ at hperform
    simp [serve, hperform]
  | submit command mode =>
    cases command with
    | none => exact ⟨rfl, rfl⟩
    | some command => simp [serve, deaf_submit]
  | record =>
    have hinstall := congrArg deaf (s.deaf_install (.recorder s.recorders))
    exact ⟨hinstall.symm, rfl⟩
  | share =>
    have hinstall := congrArg deaf (s.deaf_install .shared)
    exact ⟨hinstall.symm, rfl⟩
  | _ => exact ⟨rfl, rfl⟩

/-- **Twins give the same answers to the same requests.** -/
theorem deaf_serveAll {s s' : Session} (h : s.deaf = s'.deaf) (requests : List Request) :
    (s.serveAll requests).1.deaf = (s'.serveAll requests).1.deaf ∧
      (s.serveAll requests).2 = (s'.serveAll requests).2 := by
  induction requests generalizing s s' with
  | nil => exact ⟨h, rfl⟩
  | cons r requests ih =>
    obtain ⟨hnext, hanswer⟩ := s.deaf_serve r
    obtain ⟨hnext', hanswer'⟩ := s'.deaf_serve r
    rw [h] at hnext hanswer
    obtain ⟨hlast, hanswers⟩ := ih (hnext.symm.trans hnext')
    refine ⟨hlast, ?_⟩
    simp only [serveAll]
    rw [hanswers, ← hanswer, ← hanswer']

/-- **A receiver that is dropped makes no difference but to what is received.** -/
theorem serveAll_after_drop (s : Session) (requests : List Request) :
    let gone := (s.serve .dropStops).1
    (gone.serveAll requests).1.deaf = (s.serveAll requests).1.deaf ∧
      (gone.serveAll requests).2 = (s.serveAll requests).2 := by
  intro gone
  have htwins : gone.deaf = s.deaf := rfl
  exact deaf_serveAll htwins requests

end Session

end ScriptDebugger
