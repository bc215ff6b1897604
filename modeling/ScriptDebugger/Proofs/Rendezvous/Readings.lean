/-
  ScriptDebugger/Proofs/Rendezvous/Readings.lean
  ==============================================
  **What is read from a future.**

  The futures of a rendezvous can be told from its log alone: they are handed out,
  delivered to, read and dropped by its entries, one after another
  (`futuresAfter`).  So what a reading gives is a question about logs.  In a log
  where futures are handed out by their numbers and no future is delivered to
  before it was handed out or for a second time (`WellKept`), a future waits until
  its delivery and keeps the result until the first reading after it (`Tells`).
-/
import Mathlib.Data.List.Induction
import ScriptDebugger.Proofs.Rendezvous.Accounts

namespace ScriptDebugger

variable {χ : Type}

/-! ### Futures from logs -/

/-- The futures after an entry of the log. -/
def Futures.after (fs : Futures) : Entry χ → Futures
  | .begun _ a => if a.ticket?.isSome then fs.handOut else fs
  | .caused x => fs.receive x
  | .polled i _ => (fs.poll i).2
  | .discarded i => fs.discard i

/-- The futures that a log leaves. -/
def futuresAfter (log : List (Entry χ)) : Futures := log.foldl Futures.after []

@[simp] theorem futuresAfter_concat (log : List (Entry χ)) (x : Entry χ) :
    futuresAfter (log ++ [x]) = (futuresAfter log).after x := by
  simp [futuresAfter]

theorem futuresAfter_entries (log : List (Entry χ)) (e : Engine χ) (a : Action χ)
    (o : Outcome χ) :
    futuresAfter (log ++ entries e a o) =
      o.effects.foldl Futures.receive
        (if a.ticket?.isSome then (futuresAfter log).handOut else futuresAfter log) := by
  simp only [futuresAfter, entries, List.foldl_append, List.foldl_cons, List.foldl_map]
  rfl

@[simp] theorem Futures.length_handOut (fs : Futures) : fs.handOut.length = fs.length + 1 := by
  simp [handOut]

@[simp] theorem Futures.length_receive (fs : Futures) (x : Effect) :
    (fs.receive x).length = fs.length := by
  cases x with
  | answered ticket result => simp [receive, deliver]
  | _ => rfl

@[simp] theorem Futures.length_poll (fs : Futures) (i : Nat) : (fs.poll i).2.length = fs.length := by
  unfold poll
  split
  · simp
  · rfl

@[simp] theorem Futures.length_discard (fs : Futures) (i : Nat) :
    (fs.discard i).length = fs.length := by
  simp [discard]

/-- There are as many futures as were handed out. -/
theorem length_futuresAfter (log : List (Entry χ)) :
    (futuresAfter log).length = (handedOut log).length := by
  induction log using List.reverseRecOn with
  | nil => rfl
  | append_singleton log x ih =>
    rw [futuresAfter_concat, handedOut_append, List.length_append, ← ih]
    cases x with
    | begun e a =>
      cases hticket : a.ticket? with
      | none => simp [Futures.after, handedOut, Entry.ticket?, hticket]
      | some n => simp [Futures.after, handedOut, Entry.ticket?, hticket]
    | caused x => simp [Futures.after, handedOut, Entry.ticket?]
    | polled i reply => simp [Futures.after, handedOut, Entry.ticket?]
    | discarded i => simp [Futures.after, handedOut, Entry.ticket?]

/-! ### One future -/

namespace Futures

variable {fs : Futures} {i : Nat}

theorem deliver_waiting (h : fs[i]? = some (some .waiting)) (result : CommandResult) :
    (fs.deliver i result)[i]? = some (some (.ready result)) := by
  simp [deliver, List.getElem?_modify_eq, h, Future.fulfil]

theorem poll_waiting (h : fs[i]? = some (some .waiting)) :
    (fs.poll i).1 = .pending ∧ (fs.poll i).2[i]? = some (some .waiting) := by
  have hlt : i < fs.length := (List.getElem?_eq_some_iff.mp h).1
  unfold poll
  rw [h]
  exact ⟨rfl, List.getElem?_set_self hlt⟩

theorem poll_ready {result : CommandResult} (h : fs[i]? = some (some (.ready result))) :
    (fs.poll i).1 = .result result := by
  unfold poll
  rw [h]
  rfl

end Futures

namespace Entry

/-- The future that an entry may change. -/
def future? : Entry χ → Option Nat
  | .begun _ _ => none
  | .caused x => x.answered?
  | .polled i _ => some i
  | .discarded i => some i

end Entry

theorem Futures.receive_of_ne {fs : Futures} {ticket : Nat} {x : Effect}
    (hx : x.answered? ≠ some ticket) : (fs.receive x)[ticket]? = fs[ticket]? := by
  cases x with
  | answered n result =>
    have hn : n ≠ ticket := fun hn => hx (congrArg some hn)
    exact List.getElem?_modify_ne _ fs hn
  | _ => rfl

/-- An entry leaves the other futures alone. -/
theorem Futures.after_of_ne {fs : Futures} {ticket : Nat} (hticket : ticket < fs.length)
    {x : Entry χ} (hx : x.future? ≠ some ticket) : (fs.after x)[ticket]? = fs[ticket]? := by
  cases x with
  | begun e a =>
    simp only [after]
    split
    · exact List.getElem?_append_left hticket
    · rfl
  | caused x => exact receive_of_ne hx
  | polled i reply =>
    have hi : i ≠ ticket := fun hi => hx (congrArg some hi)
    simp only [after, poll]
    split
    · exact List.getElem?_set_ne hi
    · rfl
  | discarded i =>
    have hi : i ≠ ticket := fun hi => hx (congrArg some hi)
    exact List.getElem?_set_ne hi

/-- The result was delivered, and the future was not read since then. -/
def Unread (ticket : Nat) (result : CommandResult) : List (Entry χ) → Prop :=
  Since (fun _ y => y = .caused (.answered ticket result))
    (fun y => ∃ reply, y = .polled ticket reply)

theorem Unread.delivered {ticket : Nat} {result : CommandResult} {log : List (Entry χ)}
    (h : Unread ticket result log) : .caused (.answered ticket result) ∈ log := by
  obtain ⟨before, y, after, rfl, rfl, _⟩ := h
  simp

/-- The future waits until its delivery, and then holds the result until it is read. -/
structure Tells (ticket : Nat) (log : List (Entry χ)) (fs : Futures) : Prop where
  waiting : deliveries ticket log = [] → fs[ticket]? = some (some .waiting)
  ready : ∀ result, Unread ticket result log → fs[ticket]? = some (some (.ready result))

namespace Tells

variable {ticket : Nat} {log : List (Entry χ)} {fs : Futures}

theorem handOut {e : Engine χ} {a : Action χ} (hnumber : ticket = fs.length)
    (hnew : ∀ result, .caused (.answered ticket result) ∉ log) :
    Tells ticket (log ++ [.begun e a]) fs.handOut := by
  constructor
  · intro _
    rw [hnumber]
    exact List.getElem?_concat_length
  · intro result hunread
    rcases (since_concat _ _ log _).mp hunread with hsame | ⟨hbefore, _⟩
    · cases hsame
    · exact absurd (Unread.delivered hbefore) (hnew result)

theorem deliver (h : Tells ticket log fs) (hfirst : deliveries ticket log = [])
    (result : CommandResult) :
    Tells ticket (log ++ [.caused (.answered ticket result)]) (fs.deliver ticket result) := by
  constructor
  · intro hnone
    rw [deliveries_append, List.append_eq_nil_iff] at hnone
    exact absurd hnone.2 (by simp [deliveries, Entry.delivery?])
  · intro result' hunread
    rcases (since_concat _ _ log _).mp hunread with hsame | ⟨hbefore, _⟩
    · cases hsame
      exact Futures.deliver_waiting (h.waiting hfirst) result
    · -- it would be the second delivery
      have hmem := (mem_deliveries_iff ticket log result').mpr (Unread.delivered hbefore)
      rw [hfirst] at hmem
      cases hmem

theorem poll (h : Tells ticket log fs) (reply : Reply) :
    Tells ticket (log ++ [.polled ticket reply]) (fs.poll ticket).2 := by
  constructor
  · intro hnone
    rw [deliveries_append, List.append_eq_nil_iff] at hnone
    exact (Futures.poll_waiting (h.waiting hnone.1)).2
  · intro result hunread
    rcases (since_concat _ _ log _).mp hunread with hsame | ⟨_, hno⟩
    · cases hsame
    · exact absurd ⟨reply, rfl⟩ hno

theorem other (h : Tells ticket log fs) (hticket : ticket < fs.length) {x : Entry χ}
    (hx : x.future? ≠ some ticket) : Tells ticket (log ++ [x]) (fs.after x) := by
  constructor
  · intro hnone
    rw [deliveries_append, List.append_eq_nil_iff] at hnone
    rw [Futures.after_of_ne hticket hx]
    exact h.waiting hnone.1
  · intro result hunread
    rw [Futures.after_of_ne hticket hx]
    rcases (since_concat _ _ log x).mp hunread with rfl | ⟨hbefore, _⟩
    · exact absurd rfl hx
    · exact h.ready result hbefore

end Tells

/-! ### Logs -/

/-- Futures are handed out by their numbers. -/
def Numbered (log : List (Entry χ)) : Prop :=
  Throughout (fun before x => ∀ n, x.ticket? = some n → n = (handedOut before).length) log

theorem Numbered.handedOut_eq {log : List (Entry χ)} (h : Numbered log) :
    handedOut log = List.range (handedOut log).length := by
  induction log using List.reverseRecOn with
  | nil => rfl
  | append_singleton log x ih =>
    obtain ⟨hbefore, hlast⟩ := (throughout_concat _ log x).mp h
    have hnew : handedOut [x] = x.ticket?.toList := by
      rw [handedOut, filterMap_cons_toList]
      simp
    rw [handedOut_append, hnew]
    cases hticket : x.ticket? with
    | none => simpa using ih hbefore
    | some n =>
      have hn : n = (handedOut log).length := hlast n hticket
      simp only [Option.toList_some, List.length_append, List.length_singleton, List.range_succ]
      rw [← ih hbefore, hn]

/-- Futures are handed out by their numbers, and delivered to after that and once. -/
structure WellKept (log : List (Entry χ)) : Prop where
  numbered : Numbered log
  timely : Throughout (fun before x => ∀ ticket result, x = .caused (.answered ticket result) →
    ticket ∈ handedOut before) log
  once : Throughout (fun before x => ∀ ticket result, x = .caused (.answered ticket result) →
    deliveries ticket before = []) log

namespace WellKept

variable {log rest : List (Entry χ)}

theorem of_append (h : WellKept (log ++ rest)) : WellKept log where
  numbered := ((throughout_append _ log rest).mp h.numbered).1
  timely := ((throughout_append _ log rest).mp h.timely).1
  once := ((throughout_append _ log rest).mp h.once).1

theorem mem_handedOut_iff (h : WellKept log) (ticket : Nat) :
    ticket ∈ handedOut log ↔ ticket < (futuresAfter log).length := by
  rw [length_futuresAfter, h.numbered.handedOut_eq, List.length_range, List.mem_range]

theorem mem_handedOut_of_answered (h : WellKept log) {ticket : Nat} {result : CommandResult}
    (hanswer : .caused (.answered ticket result) ∈ log) : ticket ∈ handedOut log := by
  obtain ⟨before, after, rfl⟩ := List.append_of_mem hanswer
  rw [handedOut_append]
  exact List.mem_append_left _ (h.timely before _ after rfl ticket result rfl)

/-- **A log tells every future that was handed out and not dropped.** -/
theorem tells (h : WellKept log) {ticket : Nat} (hticket : ticket ∈ handedOut log)
    (hkept : .discarded ticket ∉ log) : Tells ticket log (futuresAfter log) := by
  induction log using List.reverseRecOn with
  | nil => cases hticket
  | append_singleton log x ih =>
    have hlog : WellKept log := h.of_append
    rw [futuresAfter_concat]
    by_cases hold : ticket ∈ handedOut log
    · have htells := ih hlog hold fun hx => hkept (List.mem_append_left _ hx)
      by_cases hx : x.future? = some ticket
      · cases x with
        | begun e a => cases hx
        | caused x =>
          cases x with
          | answered n result =>
            cases hx
            exact htells.deliver (h.once log _ [] rfl ticket result rfl) result
          | _ => cases hx
        | polled i reply =>
          cases hx
          exact htells.poll reply
        | discarded i =>
          cases hx
          exact absurd (by simp) hkept
      · exact htells.other ((hlog.mem_handedOut_iff ticket).mp hold) hx
    · -- the future is handed out by the last entry
      have hnew : x.ticket? = some ticket := by
        rw [handedOut_append] at hticket
        rcases List.mem_append.mp hticket with hin | hin
        · exact absurd hin hold
        · simpa [handedOut] using hin
      have hnumber : ticket = (futuresAfter log).length := by
        rw [length_futuresAfter]
        exact h.numbered log x [] rfl ticket hnew
      cases x with
      | begun e a =>
        have hsubmits : a.ticket?.isSome := by
          rw [show a.ticket? = some ticket from hnew]
          rfl
        simp only [Futures.after, hsubmits, if_true]
        apply Tells.handOut hnumber
        intro result hanswer
        exact hold (hlog.mem_handedOut_of_answered hanswer)
      | _ => cases hnew

end WellKept

end ScriptDebugger
