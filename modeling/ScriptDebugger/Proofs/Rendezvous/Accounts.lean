/-
  ScriptDebugger/Proofs/Rendezvous/Accounts.lean
  ==============================================
  **The log of a run accounts for every command.**

  The log of a run tells which commands were submitted, what their states were then,
  and which answers were given.  `Accounted` is the invariant that ties it to the
  engine:

    * the replies that were brought along are the ones that the engine holds
      together with the ones that were answered, each of them once;
    * what the engine holds was submitted under that number, and had to wait;
    * every answer is the one that its command was to get (`Computed`).
-/
import ScriptDebugger.Proofs.Engine.Replies

namespace ScriptDebugger

open scoped List

variable {χ : Type}

/-! ### What a log tells -/

namespace Entry

/-- The future that was handed out. -/
def ticket? : Entry χ → Option Nat
  | .begun _ a => a.ticket?
  | _ => none

/-- The result that was delivered to a future. -/
def delivery? (ticket : Nat) : Entry χ → Option CommandResult
  | .caused (.answered n result) => if n = ticket then some result else none
  | _ => none

/-- The future that was delivered to. -/
def answered? : Entry χ → Option Nat
  | .caused x => x.answered?
  | _ => none

end Entry

/-- The futures that were handed out, in this order. -/
def handedOut (log : List (Entry χ)) : List Nat := log.filterMap Entry.ticket?

/-- The futures that were delivered to, in this order. -/
def answeredIn (log : List (Entry χ)) : List Nat := log.filterMap Entry.answered?

/-- The results that were delivered to a future, in this order. -/
def deliveries (ticket : Nat) (log : List (Entry χ)) : List CommandResult :=
  log.filterMap (Entry.delivery? ticket)

/-- What an action leaves in the log. -/
def entries (e : Engine χ) (a : Action χ) (o : Outcome χ) : List (Entry χ) :=
  .begun e a :: o.effects.map .caused

theorem handedOut_append (log rest : List (Entry χ)) :
    handedOut (log ++ rest) = handedOut log ++ handedOut rest :=
  List.filterMap_append

theorem answeredIn_append (log rest : List (Entry χ)) :
    answeredIn (log ++ rest) = answeredIn log ++ answeredIn rest :=
  List.filterMap_append

theorem deliveries_append (ticket : Nat) (log rest : List (Entry χ)) :
    deliveries ticket (log ++ rest) = deliveries ticket log ++ deliveries ticket rest :=
  List.filterMap_append

theorem handedOut_entries (e : Engine χ) (a : Action χ) (o : Outcome χ) :
    handedOut (entries e a o) = a.ticket?.toList := by
  have heffects : (o.effects.map (.caused : Effect → Entry χ)).filterMap Entry.ticket? = [] := by
    rw [List.filterMap_map]
    exact List.filterMap_eq_nil_iff.mpr fun x _ => rfl
  unfold handedOut entries
  rw [filterMap_cons_toList, heffects, List.append_nil]
  rfl

theorem answeredIn_entries (e : Engine χ) (a : Action χ) (o : Outcome χ) :
    answeredIn (entries e a o) = answeredTickets o.effects := by
  unfold answeredIn entries answeredTickets
  rw [List.filterMap_cons_none rfl, List.filterMap_map]
  rfl

theorem mem_entries_begun {e e' : Engine χ} {a a' : Action χ} {o : Outcome χ} :
    .begun e' a' ∈ entries e a o ↔ e' = e ∧ a' = a := by
  simp [entries]

theorem mem_entries_caused {e : Engine χ} {a : Action χ} {o : Outcome χ} {x : Effect} :
    .caused x ∈ entries e a o ↔ x ∈ o.effects := by
  simp [entries]

theorem mem_handedOut_iff_begun (log : List (Entry χ)) (ticket : Nat) :
    ticket ∈ handedOut log ↔ ∃ e c, .begun e (.submit ticket c) ∈ log := by
  unfold handedOut
  rw [List.mem_filterMap]
  constructor
  · rintro ⟨x, hx, hticket⟩
    cases x with
    | begun e a =>
      cases a with
      | submit n c =>
        cases hticket
        exact ⟨e, c, hx⟩
      | _ => cases hticket
    | _ => cases hticket
  · rintro ⟨e, c, hx⟩
    exact ⟨_, hx, rfl⟩

theorem mem_deliveries_iff (ticket : Nat) (log : List (Entry χ)) (result : CommandResult) :
    result ∈ deliveries ticket log ↔ .caused (.answered ticket result) ∈ log := by
  unfold deliveries
  rw [List.mem_filterMap]
  constructor
  · rintro ⟨x, hx, hdelivery⟩
    unfold Entry.delivery? at hdelivery
    split at hdelivery
    · split at hdelivery
      · rename_i hn
        cases hdelivery
        rw [← hn]
        exact hx
      · cases hdelivery
    · cases hdelivery
  · intro hx
    exact ⟨_, hx, by simp [Entry.delivery?]⟩

/-- A future was delivered to as often as its number was. -/
theorem length_deliveries (ticket : Nat) (log : List (Entry χ)) :
    (deliveries ticket log).length = (answeredIn log).count ticket := by
  unfold deliveries answeredIn
  induction log with
  | nil => rfl
  | cons x log ih =>
    have hx : (x.delivery? ticket).toList.length = x.answered?.toList.count ticket := by
      cases x with
      | caused x =>
        cases x with
        | answered n result =>
          by_cases hn : n = ticket
          · simp [Entry.delivery?, Entry.answered?, Effect.answered?, hn]
          · simp [Entry.delivery?, Entry.answered?, Effect.answered?, hn]
        | _ => rfl
      | _ => rfl
    rw [filterMap_cons_toList, filterMap_cons_toList, List.length_append, List.count_append, hx, ih]

/-! ### The answer that a command is to get -/

/-- The command was in the slot when the session was ended. -/
def CutOff (log : List (Entry χ)) (c : Command) (ticket : Nat) : Prop :=
  ∃ e a, .begun e a ∈ log ∧ e.slot = some ⟨c, ticket⟩ ∧ a.endsSession = true

/-- The result is what a command gets that was submitted to the engine `e`. -/
inductive Computed (source : Source) (log : List (Entry χ)) (e : Engine χ) (c : Command)
    (ticket : Nat) (result : CommandResult) : Prop
  /-- It did not reach the slot. -/
  | atOnce (computes : e.atOnce? c = some result)
  /-- It was not taken out of the slot. -/
  | cancelled (waits : e.atOnce? c = none) (cut : CutOff log c ticket)
      (computes : result = .error .notRunning)
  /-- The suspended call carried it out. -/
  | served (waits : e.atOnce? c = none) (taken : .caused (.served ⟨c, ticket⟩) ∈ log)
      (computes : Engine.served? source c = some result)
  /-- The suspended call took a snapshot for it. -/
  | assembled {e' call view} (waits : e.atOnce? c = none) (reads : c = .getVariables)
      (taken : .caused (.served ⟨c, ticket⟩) ∈ log)
      (begun : .begun e' (.finishAssembly view) ∈ log)
      (assembling : e'.service = .assembling call ticket)
      (computes : result =
        .ok (.snapshot (e'.assembler.assemble view.heap (view.stack call.context))))

section Monotone

variable {log log' : List (Entry χ)} (hlog : ∀ x ∈ log, x ∈ log')

include hlog

theorem CutOff.mono {c : Command} {ticket : Nat} (h : CutOff log c ticket) :
    CutOff log' c ticket := by
  obtain ⟨e, a, hbegun, hslot, ends⟩ := h
  exact ⟨e, a, hlog _ hbegun, hslot, ends⟩

theorem Computed.mono {source : Source} {e : Engine χ} {c : Command} {ticket : Nat}
    {result : CommandResult} (h : Computed source log e c ticket result) :
    Computed source log' e c ticket result := by
  cases h with
  | atOnce computes => exact .atOnce computes
  | cancelled waits cut computes => exact .cancelled waits (cut.mono hlog) computes
  | served waits taken computes => exact .served waits (hlog _ taken) computes
  | assembled waits reads taken begun assembling computes =>
    exact .assembled waits reads (hlog _ taken) (hlog _ begun) assembling computes

end Monotone

/-! ### The invariant -/

/-- What the log of a run says of the engine. -/
structure Accounted (source : Source) (log : List (Entry χ)) (e : Engine χ) : Prop where
  coherent : e.Coherent
  sameSource : e.breakpoints.source = source
  /-- Every reply is held or answered, once. -/
  replies : handedOut log ~ e.replies ++ answeredIn log
  /-- What waits was submitted and had to wait. -/
  waiting : ∀ c ticket, e.slot = some ⟨c, ticket⟩ →
    ∃ e', .begun e' (.submit ticket c) ∈ log ∧ e'.atOnce? c = none
  /-- What a snapshot is taken for was submitted, had to wait, and was taken out of the slot. -/
  assembling : ∀ call ticket, e.service = .assembling call ticket →
    (∃ e', .begun e' (.submit ticket .getVariables) ∈ log ∧ e'.atOnce? .getVariables = none) ∧
      .caused (.served ⟨.getVariables, ticket⟩) ∈ log
  /-- Answers are the right ones. -/
  computed : ∀ ticket result, .caused (.answered ticket result) ∈ log →
    ∃ e' c, .begun e' (.submit ticket c) ∈ log ∧ Computed source log e' c ticket result
  /-- What was in the slot when the session was ended was told so. -/
  cutOff : ∀ c ticket, CutOff log c ticket →
    .caused (.answered ticket (.error .notRunning)) ∈ log
  /-- What was taken out of the slot was answered otherwise, or a snapshot is being taken. -/
  served : ∀ c ticket, .caused (.served ⟨c, ticket⟩) ∈ log →
    (∃ result, .caused (.answered ticket result) ∈ log ∧ result ≠ .error .notRunning) ∨
      ∃ call, e.service = .assembling call ticket
  /-- A future was handed out before it was delivered to. -/
  timely : Throughout (fun before x => ∀ ticket result, x = .caused (.answered ticket result) →
    ticket ∈ handedOut before) log

namespace Accounted

variable {source : Source} {log : List (Entry χ)} {e : Engine χ} {a : Action χ} {o : Outcome χ}

theorem mem_old (x : Entry χ) (hx : x ∈ log) : x ∈ log ++ entries e a o :=
  List.mem_append_left _ hx

theorem begun_new : .begun e a ∈ log ++ entries e a o :=
  List.mem_append_right _ (mem_entries_begun.mpr ⟨rfl, rfl⟩)

theorem caused_new {x : Effect} (hx : x ∈ o.effects) : .caused x ∈ log ++ entries e a o :=
  List.mem_append_right _ (mem_entries_caused.mpr hx)

theorem mem_handedOut (h : Accounted source log e) {ticket : Nat} (hheld : ticket ∈ e.replies) :
    ticket ∈ handedOut log :=
  h.replies.mem_iff.mpr (List.mem_append_left _ hheld)

theorem perm_append_right_comm (xs ys zs : List Nat) : xs ++ ys ++ zs ~ xs ++ zs ++ ys := by
  rw [List.append_assoc, List.append_assoc]
  exact List.perm_append_comm.append_left xs

theorem step_replies (h : Accounted source log e) (t : Engine.Transition e a o) :
    handedOut (log ++ entries e a o) ~ o.engine.replies ++ answeredIn (log ++ entries e a o) := by
  rw [handedOut_append, handedOut_entries, answeredIn_append, answeredIn_entries]
  calc handedOut log ++ a.ticket?.toList
    _ ~ e.replies ++ answeredIn log ++ a.ticket?.toList := h.replies.append_right _
    _ ~ e.replies ++ a.ticket?.toList ++ answeredIn log := perm_append_right_comm _ _ _
    _ ~ o.engine.replies ++ answeredTickets o.effects ++ answeredIn log :=
      (t.replies_perm h.coherent).append_right _
    _ ~ o.engine.replies ++ answeredIn log ++ answeredTickets o.effects :=
      perm_append_right_comm _ _ _
    _ = o.engine.replies ++ (answeredIn log ++ answeredTickets o.effects) :=
      List.append_assoc _ _ _

theorem step_waiting (h : Accounted source log e) (t : Engine.Transition e a o) :
    ∀ c ticket, o.engine.slot = some ⟨c, ticket⟩ →
      ∃ e', .begun e' (.submit ticket c) ∈ log ++ entries e a o ∧ e'.atOnce? c = none := by
  intro c ticket hslot
  rcases t.waiting hslot with hslot | ⟨rfl, hwaits⟩
  · obtain ⟨e', hbegun, hwaits⟩ := h.waiting c ticket hslot
    exact ⟨e', mem_old _ hbegun, hwaits⟩
  · exact ⟨e, begun_new, hwaits⟩

theorem step_assembling (h : Accounted source log e) (t : Engine.Transition e a o) :
    ∀ call ticket, o.engine.service = .assembling call ticket →
      (∃ e', .begun e' (.submit ticket .getVariables) ∈ log ++ entries e a o ∧
        e'.atOnce? .getVariables = none) ∧
        .caused (.served ⟨.getVariables, ticket⟩) ∈ log ++ entries e a o := by
  intro call ticket hservice
  rcases t.assembling hservice with hservice | ⟨hslot, hserved⟩
  · obtain ⟨⟨e', hbegun, hwaits⟩, hserved⟩ := h.assembling call ticket hservice
    exact ⟨⟨e', mem_old _ hbegun, hwaits⟩, mem_old _ hserved⟩
  · obtain ⟨e', hbegun, hwaits⟩ := h.waiting _ ticket hslot
    exact ⟨⟨e', mem_old _ hbegun, hwaits⟩, caused_new hserved⟩

theorem step_computed (h : Accounted source log e) (t : Engine.Transition e a o) :
    ∀ ticket result, .caused (.answered ticket result) ∈ log ++ entries e a o →
      ∃ e' c, .begun e' (.submit ticket c) ∈ log ++ entries e a o ∧
        Computed source (log ++ entries e a o) e' c ticket result := by
  intro ticket result hanswer
  rcases List.mem_append.mp hanswer with hanswer | hanswer
  · obtain ⟨e', c, hbegun, hcomputed⟩ := h.computed ticket result hanswer
    exact ⟨e', c, mem_old _ hbegun, hcomputed.mono mem_old⟩
  -- the answer is a new one
  rcases t.answered h.coherent (mem_entries_caused.mp hanswer) with
    ⟨c, rfl, hatOnce⟩ | ⟨c, hslot, ends, hresult⟩ | ⟨c, hslot, hserved, hresult⟩ |
      ⟨call, view, hservice, rfl, hresult⟩
  · exact ⟨e, c, begun_new, .atOnce hatOnce⟩
  · obtain ⟨e', hbegun, hwaits⟩ := h.waiting c ticket hslot
    exact ⟨e', c, mem_old _ hbegun, .cancelled hwaits ⟨e, a, begun_new, hslot, ends⟩ hresult⟩
  · obtain ⟨e', hbegun, hwaits⟩ := h.waiting c ticket hslot
    rw [h.sameSource] at hresult
    exact ⟨e', c, mem_old _ hbegun, .served hwaits (caused_new hserved) hresult⟩
  · obtain ⟨⟨e', hbegun, hwaits⟩, hserved⟩ := h.assembling call ticket hservice
    exact ⟨e', .getVariables, mem_old _ hbegun,
      .assembled hwaits rfl (mem_old _ hserved) begun_new hservice hresult⟩

theorem step_cutOff (h : Accounted source log e) (t : Engine.Transition e a o) :
    ∀ c ticket, CutOff (log ++ entries e a o) c ticket →
      .caused (.answered ticket (.error .notRunning)) ∈ log ++ entries e a o := by
  rintro c ticket ⟨e', a', hbegun, hslot, ends⟩
  rcases List.mem_append.mp hbegun with hbegun | hbegun
  · exact mem_old _ (h.cutOff c ticket ⟨e', a', hbegun, hslot, ends⟩)
  · obtain ⟨rfl, rfl⟩ := mem_entries_begun.mp hbegun
    exact caused_new (t.cancels h.coherent hslot ends)

theorem step_served (h : Accounted source log e) (t : Engine.Transition e a o) :
    ∀ c ticket, .caused (.served ⟨c, ticket⟩) ∈ log ++ entries e a o →
      (∃ result, .caused (.answered ticket result) ∈ log ++ entries e a o ∧
        result ≠ .error .notRunning) ∨
        ∃ call, o.engine.service = .assembling call ticket := by
  intro c ticket hserved
  rcases List.mem_append.mp hserved with hserved | hserved
  · rcases h.served c ticket hserved with ⟨result, hanswer, hne⟩ | ⟨call, hservice⟩
    · exact .inl ⟨result, mem_old _ hanswer, hne⟩
    · rcases t.assembled h.coherent hservice with hservice | ⟨snapshot, hanswer⟩
      · exact .inr ⟨call, hservice⟩
      · exact .inl ⟨.ok (.snapshot snapshot), caused_new hanswer, by simp⟩
  · rcases (t.serves (mem_entries_caused.mp hserved)).2 with ⟨result, hanswer, hne⟩ | hservice
    · exact .inl ⟨result, caused_new hanswer, hne⟩
    · exact .inr hservice

/-- Whoever is answered was submitted just now or is held by the engine. -/
theorem mem_handedOut_of_answered (h : Accounted source log e) (t : Engine.Transition e a o)
    {ticket : Nat} {result : CommandResult} (hanswer : .answered ticket result ∈ o.effects) :
    ticket ∈ handedOut log ++ a.ticket?.toList := by
  rcases t.answered h.coherent hanswer with
    ⟨c, rfl, _⟩ | ⟨c, hslot, _⟩ | ⟨c, hslot, _⟩ | ⟨call, view, hservice, _⟩
  · exact List.mem_append_right _ (by simp [Action.ticket?])
  · apply List.mem_append_left
    exact h.mem_handedOut ((e.mem_replies_iff ticket).mpr (.inl ⟨c, hslot⟩))
  · apply List.mem_append_left
    exact h.mem_handedOut ((e.mem_replies_iff ticket).mpr (.inl ⟨c, hslot⟩))
  · apply List.mem_append_left
    exact h.mem_handedOut ((e.mem_replies_iff ticket).mpr (.inr ⟨call, hservice⟩))

theorem step_timely (h : Accounted source log e) (t : Engine.Transition e a o) :
    Throughout (fun before x => ∀ ticket result, x = .caused (.answered ticket result) →
      ticket ∈ handedOut before) (log ++ entries e a o) := by
  refine (throughout_append _ log _).mpr ⟨h.timely, ?_⟩
  refine (throughout_cons _ _ _).mpr ⟨by simp, ?_⟩
  intro before x after hsplit ticket result hx
  subst hx
  have hanswer : .answered ticket result ∈ o.effects := by
    have hmem : .caused (.answered ticket result) ∈ o.effects.map (.caused : Effect → Entry χ) := by
      rw [hsplit]
      simp
    simpa using hmem
  -- the beginning of the action comes before all that it causes
  rw [handedOut_append, show handedOut (.begun e a :: before) = a.ticket?.toList ++ handedOut before
    from filterMap_cons_toList _ _ _, ← List.append_assoc]
  exact List.mem_append_left _ (h.mem_handedOut_of_answered t hanswer)

theorem step (h : Accounted source log e) (t : Engine.Transition e a o) :
    Accounted source (log ++ entries e a o) o.engine where
  coherent := t.coherent h.coherent
  sameSource := t.source.trans h.sameSource
  replies := h.step_replies t
  waiting := h.step_waiting t
  assembling := h.step_assembling t
  computed := h.step_computed t
  cutOff := h.step_cutOff t
  served := h.step_served t
  timely := h.step_timely t

/-- What controllers do with their futures does not concern the engine. -/
theorem concat (h : Accounted source log e) {x : Entry χ} (hbegun : ∀ e' a', x ≠ .begun e' a')
    (hcaused : ∀ y, x ≠ .caused y) : Accounted source (log ++ [x]) e := by
  have hshows : x.ticket? = none ∧ x.answered? = none := by
    cases x with
    | begun e' a' => exact absurd rfl (hbegun e' a')
    | caused y => exact absurd rfl (hcaused y)
    | _ => exact ⟨rfl, rfl⟩
  have holdBegun {e' : Engine χ} {a' : Action χ} (hmem : .begun e' a' ∈ log ++ [x]) :
      .begun e' a' ∈ log := by
    rcases List.mem_append.mp hmem with hmem | hmem
    · exact hmem
    · exact absurd (List.mem_singleton.mp hmem).symm (hbegun e' a')
  have holdCaused {y : Effect} (hmem : .caused y ∈ log ++ [x]) : .caused y ∈ log := by
    rcases List.mem_append.mp hmem with hmem | hmem
    · exact hmem
    · exact absurd (List.mem_singleton.mp hmem).symm (hcaused y)
  have hmem (y : Entry χ) (hy : y ∈ log) : y ∈ log ++ [x] := List.mem_append_left _ hy
  refine ⟨h.coherent, h.sameSource, ?_, ?_, ?_, ?_, ?_, ?_, ?_⟩
  · rw [handedOut_append, answeredIn_append]
    simpa [handedOut, answeredIn, hshows] using h.replies
  · intro c ticket hslot
    obtain ⟨e', hbegun, hwaits⟩ := h.waiting c ticket hslot
    exact ⟨e', hmem _ hbegun, hwaits⟩
  · intro call ticket hservice
    obtain ⟨⟨e', hbegun, hwaits⟩, hserved⟩ := h.assembling call ticket hservice
    exact ⟨⟨e', hmem _ hbegun, hwaits⟩, hmem _ hserved⟩
  · intro ticket result hanswer
    obtain ⟨e', c, hbegun, hcomputed⟩ := h.computed ticket result (holdCaused hanswer)
    exact ⟨e', c, hmem _ hbegun, hcomputed.mono hmem⟩
  · rintro c ticket ⟨e', a', hbegun, hslot, ends⟩
    exact hmem _ (h.cutOff c ticket ⟨e', a', holdBegun hbegun, hslot, ends⟩)
  · intro c ticket hserved
    rcases h.served c ticket (holdCaused hserved) with ⟨result, hanswer, hne⟩ | hservice
    · exact .inl ⟨result, hmem _ hanswer, hne⟩
    · exact .inr hservice
  · refine (throughout_concat _ log x).mpr ⟨h.timely, ?_⟩
    intro ticket result hanswer
    exact absurd hanswer (hcaused _)

end Accounted

end ScriptDebugger
