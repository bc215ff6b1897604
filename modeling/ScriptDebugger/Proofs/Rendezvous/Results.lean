/-
  ScriptDebugger/Proofs/Rendezvous/Results.lean
  =============================================
  **Every command is answered once, by its own result.**

  A run of a rendezvous keeps its log (`Kept`): the log accounts for what the engine
  holds, the futures are those that the log leaves, and every reading is the one
  that the futures gave at that moment.  From the conservation of replies it
  follows that a future is delivered to at most once, and that nothing else can
  become of its reply than to be held by the engine.
-/
import Mathlib.Data.List.Nodup
import ScriptDebugger.Proofs.Rendezvous.Readings

namespace ScriptDebugger

variable {χ : Type}

/-! ### Runs -/

/-- What a run keeps of its log. -/
structure Kept (source : Source) (log : List (Entry χ)) (r : Rendezvous χ) : Prop where
  accounted : Accounted source log r.engine
  futures : r.futures = futuresAfter log
  numbered : Numbered log
  read : Throughout (fun before x => ∀ i reply, x = .polled i reply →
    reply = ((futuresAfter before).poll i).1) log

theorem Action.eq_of_ticket?_numbered {a : Action χ} {n m : Nat}
    (h : (a.numbered n).ticket? = some m) : m = n := by
  cases a with
  | submit ticket c => exact (Option.some.inj h).symm
  | _ => cases h

namespace Kept

variable {source : Source} {log : List (Entry χ)} {r : Rendezvous χ}

theorem act (h : Kept source log r) (a : Action χ) :
    Kept source (log ++ (r.act a).2) (r.act a).1 := by
  have hlength : r.futures.length = (handedOut log).length := by
    rw [h.futures, length_futuresAfter]
  have ht := Engine.act_transition h.accounted.coherent (a.numbered r.futures.length)
  refine ⟨h.accounted.step ht, ?_, ?_, ?_⟩
  · have hafter := futuresAfter_entries log r.engine (a.numbered r.futures.length)
      (r.engine.act (a.numbered r.futures.length))
    rw [← h.futures] at hafter
    refine Eq.trans ?_ hafter.symm
    simp only [Rendezvous.act, Rendezvous.absorb]
    split <;> rfl
  · refine (throughout_append _ log _).mpr ⟨h.numbered, (throughout_cons _ _ _).mpr ⟨?_, ?_⟩⟩
    · intro n hn
      rw [List.append_nil, ← hlength]
      exact Action.eq_of_ticket?_numbered hn
    · apply throughout_of_forall
      intro x hx before n hn
      obtain ⟨y, _, rfl⟩ := List.mem_map.mp hx
      cases hn
  · refine (throughout_append _ log _).mpr ⟨h.read, ?_⟩
    apply throughout_of_forall
    intro x hx before i reply hpolled
    rw [hpolled] at hx
    exact absurd hx (by simp [Rendezvous.act])

theorem poll (h : Kept source log r) (i : Nat) :
    Kept source (log ++ [.polled i (r.futures.poll i).1])
      { r with futures := (r.futures.poll i).2 } := by
  refine ⟨h.accounted.concat (by simp) (by simp), ?_, ?_, ?_⟩
  · rw [futuresAfter_concat, ← h.futures]
    rfl
  · refine (throughout_concat _ log _).mpr ⟨h.numbered, ?_⟩
    intro n hn
    cases hn
  · refine (throughout_concat _ log _).mpr ⟨h.read, ?_⟩
    intro i' reply hpolled
    cases hpolled
    rw [h.futures]

theorem discard (h : Kept source log r) (i : Nat) :
    Kept source (log ++ [.discarded i]) { r with futures := r.futures.discard i } := by
  refine ⟨h.accounted.concat (by simp) (by simp), ?_, ?_, ?_⟩
  · rw [futuresAfter_concat, ← h.futures]
    rfl
  · refine (throughout_concat _ log _).mpr ⟨h.numbered, ?_⟩
    intro n hn
    cases hn
  · refine (throughout_concat _ log _).mpr ⟨h.read, ?_⟩
    intro i' reply hpolled
    cases hpolled

theorem move (h : Kept source log r) (m : Move χ) :
    Kept source (log ++ (r.move m).2) (r.move m).1 := by
  cases m with
  | act a => exact h.act a
  | poll i => exact h.poll i
  | discard i => exact h.discard i

theorem play (h : Kept source log r) (moves : List (Move χ)) :
    Kept source (log ++ (r.play moves).2) (r.play moves).1 := by
  induction moves generalizing log r with
  | nil =>
    rw [show (r.play []).2 = [] from rfl, List.append_nil]
    exact h
  | cons m moves ih =>
    have hlater := ih (h.move m)
    rw [List.append_assoc] at hlater
    exact hlater

end Kept

theorem kept_ofSource (source : Source) (config : Config) :
    Kept source [] (Rendezvous.ofSource source config : Rendezvous χ) := by
  obtain ⟨_, hslot, _, hservice⟩ := Engine.ofSource_start (χ := χ) source config
  refine ⟨?_, rfl, throughout_nil _, throughout_nil _⟩
  refine ⟨Engine.ofSource_coherent source config, Engine.ofSource_source source config, ?_, ?_, ?_,
    ?_, ?_, ?_, throughout_nil _⟩
  · simp [Rendezvous.ofSource, Engine.replies, hslot, hservice, handedOut, answeredIn]
  · intro c ticket hwaits
    rw [show (Rendezvous.ofSource source config : Rendezvous χ).engine.slot = none from hslot] at hwaits
    cases hwaits
  · intro call ticket hassembling
    rw [show (Rendezvous.ofSource source config : Rendezvous χ).engine.service = .absent
      from hservice] at hassembling
    cases hassembling
  · intro ticket result hanswer
    cases hanswer
  · rintro c ticket ⟨e, a, hbegun, _⟩
    cases hbegun
  · intro c ticket hserved
    cases hserved

theorem run_kept (source : Source) (config : Config) (moves : List (Move χ)) :
    Kept source ((Rendezvous.ofSource source config).play moves).2
      ((Rendezvous.ofSource source config).play moves).1 :=
  (kept_ofSource source config).play moves

namespace Kept

variable {source : Source} {log : List (Entry χ)} {r : Rendezvous χ}

/-! ### Once -/

theorem handedOut_nodup (h : Kept source log r) : (handedOut log).Nodup := by
  rw [h.numbered.handedOut_eq]
  exact List.nodup_range

theorem answeredIn_nodup (h : Kept source log r) : (answeredIn log).Nodup := by
  have hall := h.accounted.replies.nodup h.handedOut_nodup
  exact (List.nodup_append.mp hall).2.1

theorem once (h : Kept source log r) :
    Throughout (fun before x => ∀ ticket result, x = .caused (.answered ticket result) →
      deliveries ticket before = []) log := by
  intro before x after hlog ticket result hx
  have hnodup := h.answeredIn_nodup
  rw [hlog, answeredIn_append, List.nodup_append] at hnodup
  have hnew : ticket ∈ answeredIn (x :: after) := by
    subst hx
    exact List.mem_filterMap.mpr ⟨_, List.mem_cons_self, rfl⟩
  have hold : ticket ∉ answeredIn before := by
    intro hin
    exact hnodup.2.2 ticket hin ticket hnew rfl
  apply List.eq_nil_of_length_eq_zero
  rw [length_deliveries]
  exact List.count_eq_zero_of_not_mem hold

theorem wellKept (h : Kept source log r) : WellKept log where
  numbered := h.numbered
  timely := h.accounted.timely
  once := h.once

theorem begun_unique (h : Kept source log r) {ticket : Nat} {e e' : Engine χ} {c c' : Command}
    (hbegun : .begun e (.submit ticket c) ∈ log) (hbegun' : .begun e' (.submit ticket c') ∈ log) :
    e = e' ∧ c = c' := by
  have hsame := eq_of_nodup_filterMap h.handedOut_nodup hbegun hbegun' (b := ticket) rfl rfl
  injection hsame with hengine haction
  injection haction with _ hcommand
  exact ⟨hengine, hcommand⟩

theorem not_answered_of_held (h : Kept source log r) {ticket : Nat}
    (hheld : ticket ∈ r.engine.replies) : deliveries ticket log = [] := by
  have hall := h.accounted.replies.nodup h.handedOut_nodup
  have hno : ticket ∉ answeredIn log := by
    intro hanswered
    exact (List.nodup_append.mp hall).2.2 ticket hheld ticket hanswered rfl
  apply List.eq_nil_of_length_eq_zero
  rw [length_deliveries]
  exact List.count_eq_zero_of_not_mem hno

theorem exists_delivery (h : Kept source log r) {ticket : Nat}
    (hanswered : ticket ∈ answeredIn log) : ∃ result, deliveries ticket log = [result] := by
  apply List.length_eq_one_iff.mp
  rw [length_deliveries]
  exact List.count_eq_one_of_mem h.answeredIn_nodup hanswered

theorem deliveries_eq (h : Kept source log r) {ticket : Nat} {result : CommandResult}
    (hanswer : .caused (.answered ticket result) ∈ log) : deliveries ticket log = [result] := by
  have hmem := (mem_deliveries_iff ticket log result).mpr hanswer
  have hanswered : ticket ∈ answeredIn log := List.mem_filterMap.mpr ⟨_, hanswer, rfl⟩
  obtain ⟨first, hfirst⟩ := h.exists_delivery hanswered
  rw [hfirst] at hmem ⊢
  rw [List.mem_singleton.mp hmem]

/-- A reply is answered, or it is held where its command is. -/
theorem answered_or_held (h : Kept source log r) {ticket : Nat} {e : Engine χ} {c : Command}
    (hbegun : .begun e (.submit ticket c) ∈ log) :
    (∃ result, deliveries ticket log = [result]) ∨
      deliveries ticket log = [] ∧
        (r.engine.slot = some ⟨c, ticket⟩ ∨
          c = .getVariables ∧ ∃ call, r.engine.service = .assembling call ticket) := by
  have hhanded : ticket ∈ handedOut log := (mem_handedOut_iff_begun log ticket).mpr ⟨e, c, hbegun⟩
  rcases List.mem_append.mp (h.accounted.replies.mem_iff.mp hhanded) with hheld | hanswered
  · refine .inr ⟨h.not_answered_of_held hheld, ?_⟩
    rcases (r.engine.mem_replies_iff ticket).mp hheld with ⟨c', hslot⟩ | ⟨call, hservice⟩
    · obtain ⟨e', hbegun', _⟩ := h.accounted.waiting c' ticket hslot
      rw [(h.begun_unique hbegun hbegun').2]
      exact .inl hslot
    · obtain ⟨⟨e', hbegun', _⟩, _⟩ := h.accounted.assembling call ticket hservice
      exact .inr ⟨(h.begun_unique hbegun hbegun').2, call, hservice⟩
  · exact .inl (h.exists_delivery hanswered)

/-! ### By its own result -/

theorem computed (h : Kept source log r) {ticket : Nat} {e : Engine χ} {c : Command}
    (hbegun : .begun e (.submit ticket c) ∈ log) {result : CommandResult}
    (hresult : deliveries ticket log = [result]) : Computed source log e c ticket result := by
  have hanswer : .caused (.answered ticket result) ∈ log := by
    rw [← mem_deliveries_iff, hresult]
    exact List.mem_singleton.mpr rfl
  obtain ⟨e', c', hbegun', hcomputed⟩ := h.accounted.computed ticket result hanswer
  obtain ⟨rfl, rfl⟩ := h.begun_unique hbegun hbegun'
  exact hcomputed

/-- A command that was taken out of the slot is not told that the session is over. -/
theorem ne_notRunning_of_served (h : Kept source log r) {ticket : Nat} {c : Command}
    (hserved : .caused (.served ⟨c, ticket⟩) ∈ log) {result : CommandResult}
    (hresult : deliveries ticket log = [result]) : result ≠ .error .notRunning := by
  rcases h.accounted.served c ticket hserved with ⟨result', hanswer, hne⟩ | ⟨call, hservice⟩
  · rw [← mem_deliveries_iff, hresult] at hanswer
    rw [← List.mem_singleton.mp hanswer]
    exact hne
  · -- the snapshot is still being taken, so nothing was delivered
    have hheld : ticket ∈ r.engine.replies :=
      (r.engine.mem_replies_iff ticket).mpr (.inr ⟨call, hservice⟩)
    rw [h.not_answered_of_held hheld] at hresult
    cases hresult

theorem notRunning_iff (h : Kept source log r) {ticket : Nat} {e : Engine χ} {c : Command}
    (hbegun : .begun e (.submit ticket c) ∈ log) {result : CommandResult}
    (hresult : deliveries ticket log = [result]) :
    result = .error .notRunning ↔
      c ≠ .stop ∧ (e.runState = .stopped ∨ CutOff log c ticket) := by
  have hcomputed := h.computed hbegun hresult
  constructor
  · rintro rfl
    cases hcomputed with
    | atOnce computes =>
      obtain ⟨hstop, hstopped⟩ := (e.atOnce?_eq_notRunning_iff c).mp computes
      exact ⟨hstop, .inl hstopped⟩
    | cancelled waits cut => exact ⟨Engine.ne_stop_of_atOnce? waits, .inr cut⟩
    | served _ _ computes => exact absurd computes (Engine.served?_ne_notRunning source c)
    | assembled _ _ _ _ _ computes => cases computes
  · rintro ⟨hstop, hstopped | hcut⟩
    · have hatOnce := (e.atOnce?_eq_notRunning_iff c).mpr ⟨hstop, hstopped⟩
      cases hcomputed with
      | atOnce computes => exact Option.some.inj (computes.symm.trans hatOnce)
      | cancelled waits | served waits | assembled waits =>
        rw [waits] at hatOnce
        cases hatOnce
    · have hanswer := h.accounted.cutOff c ticket hcut
      rw [← mem_deliveries_iff, hresult] at hanswer
      exact (List.mem_singleton.mp hanswer).symm

end Kept

/-! ### What the engine does -/

def Entry.caused? : Entry χ → Option Effect
  | .caused x => some x
  | _ => none

theorem mem_filterMap_caused {log : List (Entry χ)} {x : Effect} :
    x ∈ log.filterMap Entry.caused? ↔ .caused x ∈ log := by
  rw [List.mem_filterMap]
  constructor
  · rintro ⟨y, hy, hcaused⟩
    cases y with
    | caused x' =>
      cases hcaused
      exact hy
    | _ => cases hcaused
  · intro hx
    exact ⟨_, hx, rfl⟩

/-- What the engine does in a run of a rendezvous is a run of the engine. -/
theorem Rendezvous.play_engine (r : Rendezvous χ) (moves : List (Move χ)) :
    ∃ actions, (r.play moves).1.engine = (r.engine.run actions).engine ∧
      (r.play moves).2.filterMap Entry.caused? = (r.engine.run actions).effects := by
  induction moves generalizing r with
  | nil => exact ⟨[], rfl, rfl⟩
  | cons m moves ih =>
    obtain ⟨actions, hengine, heffects⟩ := ih (r.move m).1
    have hplay : r.play (m :: moves) =
        (((r.move m).1.play moves).1, (r.move m).2 ++ ((r.move m).1.play moves).2) := rfl
    rw [hplay, List.filterMap_append, heffects, hengine]
    cases m with
    | act a =>
      refine ⟨a.numbered r.futures.length :: actions, rfl, ?_⟩
      simp only [Rendezvous.move, Rendezvous.act, Engine.run_cons]
      rw [List.filterMap_cons_none rfl, List.filterMap_map]
      exact congrArg (· ++ _) List.filterMap_some
    | poll i => exact ⟨actions, rfl, rfl⟩
    | discard i => exact ⟨actions, rfl, rfl⟩

/-! ### What controllers get -/

/-- **Every command is answered once, by its own result, and that is what is read.** -/
theorem every_command_is_answered_once (source : Source) (config : Config)
    (moves : List (Move χ)) :
    let run := (Rendezvous.ofSource source config : Rendezvous χ).play moves
    let r := run.1
    let log := run.2
    -- the futures are those of the submitted commands
    (∀ ticket, ticket < r.futures.length ↔ ∃ e c, .begun e (.submit ticket c) ∈ log) ∧
    (∀ ticket e c, .begun e (.submit ticket c) ∈ log →
      -- a reply is answered once, or it is held
      ((∃ result, deliveries ticket log = [result]) ∨
        deliveries ticket log = [] ∧
          (r.engine.slot = some ⟨c, ticket⟩ ∨
            c = .getVariables ∧ ∃ call, r.engine.service = .assembling call ticket)) ∧
      -- the answer is the one that the command was to get
      ∀ result, deliveries ticket log = [result] →
        Computed source log e c ticket result ∧
        (result = .error .notRunning ↔
          c ≠ .stop ∧ (e.runState = .stopped ∨ CutOff log c ticket)) ∧
        (.caused (.served ⟨c, ticket⟩) ∈ log → result ≠ .error .notRunning)) ∧
    -- no delivery comes too early or second
    Throughout (fun before x => ∀ ticket result, x = .caused (.answered ticket result) →
      (∃ e c, .begun e (.submit ticket c) ∈ before) ∧ deliveries ticket before = []) log ∧
    -- readings before the delivery, and the first one after it
    Throughout (fun before x => ∀ ticket reply, x = .polled ticket reply →
      (∃ e c, .begun e (.submit ticket c) ∈ before) → .discarded ticket ∉ before →
        (deliveries ticket before = [] → reply = .pending) ∧
        ∀ result, Unread ticket result before → reply = .result result) log := by
  intro run r log
  have h : Kept source log r := run_kept source config moves
  have hwell : WellKept log := h.wellKept
  refine ⟨?_, ?_, ?_, ?_⟩
  · intro ticket
    rw [h.futures, ← hwell.mem_handedOut_iff, mem_handedOut_iff_begun]
  · intro ticket e c hbegun
    refine ⟨h.answered_or_held hbegun, ?_⟩
    intro result hresult
    refine ⟨h.computed hbegun hresult, h.notRunning_iff hbegun hresult, ?_⟩
    intro hserved
    exact h.ne_notRunning_of_served hserved hresult
  · intro before x after hlog ticket result hx
    constructor
    · exact (mem_handedOut_iff_begun before ticket).mp
        (hwell.timely before x after hlog ticket result hx)
    · exact hwell.once before x after hlog ticket result hx
  · intro before x after hlog ticket reply hx hbegun hkept
    have hbefore : WellKept before := (hlog ▸ hwell).of_append
    have hhanded := (mem_handedOut_iff_begun before ticket).mpr hbegun
    have htells := hbefore.tells hhanded hkept
    rw [h.read before x after hlog ticket reply hx]
    constructor
    · intro hnone
      exact (Futures.poll_waiting (htells.waiting hnone)).1
    · intro result hunread
      exact Futures.poll_ready (htells.ready result hunread)

-- The session ends while a snapshot is being taken and the next command waits.
example (view : View Unit) :
    let log := ((Rendezvous.ofSource (.ofLineCount "main" 3) {} : Rendezvous Unit).play
      [.act (.setBreakpoint 1 true), .act (.onLine ⟨1, 0, ()⟩), .act (.submit 0 .getVariables),
        .act .serve, .act (.submit 0 .resume), .act .stop,
        .act (.finishAssembly view)]).2
    deliveries 0 log =
        [.ok (.snapshot ((Config.assembler {}).assemble view.heap (view.stack ())))] ∧
      deliveries 1 log = [.error .notRunning] :=
  ⟨rfl, rfl⟩

end ScriptDebugger
