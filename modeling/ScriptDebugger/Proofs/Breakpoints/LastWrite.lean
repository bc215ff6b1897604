/-
  ScriptDebugger/Proofs/Breakpoints/LastWrite.lean
  ================================================
  **A breakpoint table is a map in which the last write wins.**

  A controller sees a table through the results of its calls, the flag of a line, and
  the list of the enabled lines.  After any calls these are as if the table were a map
  from the lines that take breakpoints to flags:

    * `setAll_results` — what a call gives hangs on its line alone;
    * `isEnabled_setAll` — a line has the flag of the last call on it that succeeded;
    * `enabledLines_eq` — the list is determined by the flags.

  The order in which lines were first written stays in the table and cannot be seen.
-/
import Mathlib.Data.List.Sort
import ScriptDebugger.Proofs.Breakpoints
import ScriptDebugger.Proofs.OrderedMap
import ScriptDebugger.Proofs.Source

namespace ScriptDebugger

/-- What is stored already is stored without effect. -/
theorem OrderedMap.insert_insert_self {α β : Type} [DecidableEq α] (m : OrderedMap α β) (k : α)
    (v : β) : (m.insert k v).insert k v = m.insert k v := by
  apply OrderedMap.ext
  apply put_of_lookup
  exact (lookup_put k k v m.entries).trans (if_pos rfl)

namespace Breakpoints

/-! ### One call -/

theorem set_of_takes {table : Breakpoints} {line : UInt32} (hline : table.source.Takes line)
    (enabled : Bool) : table.set line enabled = .ok (table.attempt line enabled) := by
  have hbreakable := (table.source.isBreakable_iff line).mpr hline
  rw [attempt_of_breakable hbreakable]
  simp only [set, hbreakable, if_true]

theorem not_breakable {source : Source} {line : UInt32} (hline : ¬ source.Takes line) :
    source.isBreakable line = false := by
  rw [← source.isBreakable_iff, Bool.not_eq_true] at hline
  exact hline

theorem set_of_not_takes {table : Breakpoints} {line : UInt32}
    (hline : ¬ table.source.Takes line) (enabled : Bool) :
    table.set line enabled = .error (.lineResolution line table.source.name) := by
  simp only [set, not_breakable hline, Bool.false_eq_true, if_false]
  rfl

theorem attempt_attempt_self (table : Breakpoints) (line : UInt32) (enabled : Bool) :
    (table.attempt line enabled).attempt line enabled = table.attempt line enabled := by
  rcases hline : table.source.isBreakable line with _ | _
  · rw [attempt_of_not_breakable hline, attempt_of_not_breakable hline]
  · have hagain :=
      @attempt_of_breakable ⟨table.source, table.flags.insert line enabled⟩ line hline enabled
    rw [attempt_of_breakable hline, hagain, OrderedMap.insert_insert_self]

/-! ### Calls one after another -/

/-- Sets several flags, one after another.  The results come in the same order. -/
def setAll (table : Breakpoints) :
    List (UInt32 × Bool) → Breakpoints × List (Except DebuggerError Unit)
  | [] => (table, [])
  | (line, enabled) :: calls =>
    let (last, results) := (table.attempt line enabled).setAll calls
    (last, (table.set line enabled).map (fun _ => ()) :: results)

theorem setAll_cons (table : Breakpoints) (call : UInt32 × Bool) (calls : List (UInt32 × Bool)) :
    (table.setAll (call :: calls)).1 = ((table.attempt call.1 call.2).setAll calls).1 := rfl

theorem setAll_append (table : Breakpoints) (calls later : List (UInt32 × Bool)) :
    (table.setAll (calls ++ later)).1 = ((table.setAll calls).1.setAll later).1 := by
  induction calls generalizing table with
  | nil => rfl
  | cons call calls ih => rw [List.cons_append, setAll_cons, setAll_cons, ih]

@[simp] theorem setAll_source (table : Breakpoints) (calls : List (UInt32 × Bool)) :
    (table.setAll calls).1.source = table.source := by
  induction calls generalizing table with
  | nil => rfl
  | cons call calls ih => rw [setAll_cons, ih, attempt_source]

/-- **A call on a line gives the same whatever was set before.** -/
theorem setAll_results (table : Breakpoints) (calls : List (UInt32 × Bool)) :
    (table.setAll calls).2 = calls.map fun call =>
      if table.source.Takes call.1 then .ok ()
      else .error (.lineResolution call.1 table.source.name) := by
  induction calls generalizing table with
  | nil => rfl
  | cons call calls ih =>
    have hcall : (table.set call.1 call.2).map (fun _ => ()) =
        if table.source.Takes call.1 then .ok ()
        else .error (.lineResolution call.1 table.source.name) := by
      split
      · rename_i hline
        rw [set_of_takes hline]
        rfl
      · rename_i hline
        rw [set_of_not_takes hline]
        rfl
    rw [List.map_cons, ← hcall, ← attempt_source table call.1 call.2, ← ih]
    rfl

/-- Calls that fail make no difference. -/
theorem setAll_filter (table : Breakpoints) (calls : List (UInt32 × Bool)) :
    (table.setAll (calls.filter fun call => decide (table.source.Takes call.1))).1 =
      (table.setAll calls).1 := by
  induction calls generalizing table with
  | nil => rfl
  | cons call calls ih =>
    have hrest := ih (table.attempt call.1 call.2)
    rw [attempt_source] at hrest
    by_cases hline : table.source.Takes call.1
    · rw [List.filter_cons_of_pos (by rwa [decide_eq_true_eq]), setAll_cons, setAll_cons, hrest]
    · rw [List.filter_cons_of_neg (by rwa [decide_eq_true_eq]), setAll_cons, ← hrest,
        attempt_of_not_breakable (not_breakable hline)]

theorem onlyBreakable_setAll {table : Breakpoints} (h : table.OnlyBreakable)
    (calls : List (UInt32 × Bool)) : (table.setAll calls).1.OnlyBreakable := by
  induction calls generalizing table with
  | nil => exact h
  | cons call calls ih => exact ih (h.attempt call.1 call.2)

/-! ### The flag of a line -/

/-- The flags that some calls set on a line, in order.  A call sets its flag if the
    line takes a breakpoint. -/
def flagsSet (source : Source) (calls : List (UInt32 × Bool)) (line : UInt32) : List Bool :=
  (calls.filter fun call => decide (call.1 = line ∧ source.Takes line)).map Prod.snd

theorem flagsSet_append (source : Source) (calls later : List (UInt32 × Bool)) (line : UInt32) :
    flagsSet source (calls ++ later) line =
      flagsSet source calls line ++ flagsSet source later line := by
  rw [flagsSet, List.filter_append, List.map_append]
  rfl

/-- **The last call on a line that succeeded counts.** -/
theorem isEnabled_setAll (table : Breakpoints) (calls : List (UInt32 × Bool)) (line : UInt32) :
    (table.setAll calls).1.isEnabled line =
      (flagsSet table.source calls line).getLast?.getD (table.isEnabled line) := by
  induction calls generalizing table with
  | nil => rfl
  | cons call calls ih =>
    rw [setAll_cons, ih, attempt_source, isEnabled_attempt]
    by_cases hcall : call.1 = line ∧ table.source.Takes line
    · have hset : flagsSet table.source (call :: calls) line =
          call.2 :: flagsSet table.source calls line := by
        simp only [flagsSet, List.filter_cons, hcall, and_self, decide_true, if_true, List.map_cons]
      have hbreakable := (table.source.isBreakable_iff line).mpr hcall.2
      rw [hset, List.getLast?_cons, Option.getD_some, if_pos ⟨hcall.1, hcall.1 ▸ hbreakable⟩]
    · have hset : flagsSet table.source (call :: calls) line =
          flagsSet table.source calls line := by
        simp only [flagsSet, List.filter_cons, hcall, decide_false, Bool.false_eq_true, if_false]
      rw [hset, if_neg]
      rintro ⟨rfl, hbreakable⟩
      exact hcall ⟨rfl, (table.source.isBreakable_iff _).mp hbreakable⟩

/-- Calls on different lines set the same flags in either order. -/
theorem flagsSet_swap (source : Source) {call other : UInt32 × Bool} (hne : call.1 ≠ other.1)
    (line : UInt32) : flagsSet source [call, other] line = flagsSet source [other, call] line := by
  by_cases hcall : call.1 = line
  · have hother : other.1 ≠ line := fun h => hne (hcall.trans h.symm)
    simp only [flagsSet, List.filter_cons, List.filter_nil, hother, false_and, decide_false,
      Bool.false_eq_true, if_false]
  · simp only [flagsSet, List.filter_cons, List.filter_nil, hcall, false_and, decide_false,
      Bool.false_eq_true, if_false]

/-! ### The enabled lines -/

theorem mem_enabledLines_iff (table : Breakpoints) (line : UInt32) :
    line ∈ table.enabledLines ↔ table.isEnabled line = true := by
  have hflag : table.isEnabled line = true ↔ table.flags.get? line = some true := by
    unfold isEnabled
    cases table.flags.get? line with
    | none => simp
    | some enabled => simp
  rw [hflag, ← OrderedMap.mem_entries_iff, enabledLines, List.mem_mergeSort, List.mem_map]
  constructor
  · rintro ⟨⟨line, enabled⟩, hentry, rfl⟩
    obtain ⟨hmem, henabled⟩ := List.mem_filter.mp hentry
    cases (show enabled = true from henabled)
    exact hmem
  · intro hmem
    exact ⟨(line, true), List.mem_filter.mpr ⟨hmem, rfl⟩, rfl⟩

/-- The enabled lines are listed in ascending order, each of them once. -/
theorem ascending_enabledLines (table : Breakpoints) : table.enabledLines.Pairwise (· < ·) := by
  have hordered : table.enabledLines.Pairwise (· ≤ ·) := by
    have hsorted : table.enabledLines.Pairwise fun a b => decide (a ≤ b) = true := by
      apply List.pairwise_mergeSort
      · intro a b c hab hbc
        rw [decide_eq_true_eq] at hab hbc ⊢
        exact UInt32.le_trans hab hbc
      · intro a b
        rw [Bool.or_eq_true, decide_eq_true_eq, decide_eq_true_eq]
        exact UInt32.le_total a b
    exact hsorted.imp fun h => of_decide_eq_true h
  have hdistinct : table.enabledLines.Nodup := by
    have hsublist := (List.filter_sublist (p := Prod.snd) (l := table.flags.entries)).map Prod.fst
    exact (List.mergeSort_perm _ _).nodup_iff.mpr (table.flags.nodup.sublist hsublist)
  exact (hordered.and hdistinct).imp fun h => UInt32.lt_of_le_of_ne h.1 h.2

/-- **The list of the enabled lines is determined by the flags.** -/
theorem enabledLines_eq {table table' : Breakpoints}
    (h : ∀ line, table'.isEnabled line = table.isEnabled line) :
    table'.enabledLines = table.enabledLines := by
  refine table'.ascending_enabledLines.eq_of_mem_iff table.ascending_enabledLines fun line => ?_
  rw [mem_enabledLines_iff, mem_enabledLines_iff, h]

/-! ### The table after some calls -/

/-- **The last write wins.**  A call on a line succeeds just if the line takes a
    breakpoint, whatever was set before, and else it gives the reason; every line of a
    text is one that can.  After any calls a line has the flag of the last call on it
    that succeeded, and is disabled if there was none; the enabled lines are listed in
    ascending order, each of them once, and all of them take breakpoints.  A call that
    fails and a call that is made twice make no difference to the table, and calls on
    different lines may change places: no flag is another one and the list is the same. -/
theorem last_write_wins (source : Source) (calls : List (UInt32 × Bool)) :
    let after := fun calls => ((ofSource source).setAll calls).1
    let table := after calls
    -- which calls succeed
    (∀ line enabled, (∃ written, table.set line enabled = .ok written) ↔ source.Takes line) ∧
    ((ofSource source).setAll calls).2 = (calls.map fun call =>
      if source.Takes call.1 then .ok () else .error (.lineResolution call.1 source.name)) ∧
    (∀ name text line, line ≤ (Source.ofText name text).lineCount ↔
      line.toNat ≤ text.toList.count '\n' + (Text.endsOpen text.toList).toNat) ∧
    -- the flags
    (∀ line, table.isEnabled line = (flagsSet source calls line).getLast?.getD false) ∧
    -- the enabled lines
    (table.enabledLines.Pairwise (· < ·) ∧
      (∀ line, line ∈ table.enabledLines ↔ table.isEnabled line = true) ∧
      ∀ line ∈ table.enabledLines, source.Takes line) ∧
    -- what makes no difference
    (∀ line enabled later, ¬ source.Takes line →
      after (calls ++ (line, enabled) :: later) = after (calls ++ later)) ∧
    (∀ call later, after (calls ++ call :: call :: later) = after (calls ++ call :: later)) ∧
    (∀ call other later, call.1 ≠ other.1 →
      let one := after (calls ++ call :: other :: later)
      let two := after (calls ++ other :: call :: later)
      (∀ line, two.isEnabled line = one.isEnabled line) ∧ two.enabledLines = one.enabledLines) := by
  intro after table
  have hsource : table.source = source := setAll_source (ofSource source) calls
  have hflag (calls : List (UInt32 × Bool)) (line : UInt32) :
      (after calls).isEnabled line = (flagsSet source calls line).getLast?.getD false :=
    isEnabled_setAll (ofSource source) calls line
  refine ⟨?_, setAll_results (ofSource source) calls, Source.le_lineCount_ofText_iff, hflag calls,
    ⟨table.ascending_enabledLines, table.mem_enabledLines_iff, ?_⟩, ?_, ?_, ?_⟩
  · intro line enabled
    by_cases hline : source.Takes line
    · exact iff_of_true ⟨_, set_of_takes (hsource ▸ hline) enabled⟩ hline
    · refine iff_of_false ?_ hline
      rintro ⟨written, hset⟩
      rw [set_of_not_takes (hsource ▸ hline)] at hset
      cases hset
  · intro line hmem
    have honly := onlyBreakable_setAll (onlyBreakable_ofSource source) calls
    have hbreakable := honly line ((table.mem_enabledLines_iff line).mp hmem)
    rw [setAll_source] at hbreakable
    exact (source.isBreakable_iff line).mp hbreakable
  · intro line enabled later hline
    have hnone : table.attempt line enabled = table :=
      attempt_of_not_breakable (not_breakable (hsource ▸ hline)) enabled
    show (setAll _ _).1 = (setAll _ _).1
    rw [setAll_append, setAll_append, setAll_cons]
    exact congrArg (fun t => (setAll t later).1) hnone
  · intro call later
    show (setAll _ _).1 = (setAll _ _).1
    rw [setAll_append, setAll_append, setAll_cons, setAll_cons, setAll_cons, attempt_attempt_self]
  · intro call other later hne one two
    have hflags (line : UInt32) : two.isEnabled line = one.isEnabled line := by
      rw [hflag, hflag]
      have hsplit (a b : UInt32 × Bool) :
          calls ++ a :: b :: later = calls ++ ([a, b] ++ later) := rfl
      rw [hsplit, hsplit, flagsSet_append, flagsSet_append, flagsSet_append, flagsSet_append,
        flagsSet_swap source hne]
    exact ⟨hflags, enabledLines_eq hflags⟩

-- Lines with code are known; one call is refused, and line 2 is disabled again.
example :
    let source := (Source.ofText "main" "a\nb\nc").withCodeLines [2, 3]
    let calls := [(3, true), (1, true), (2, true), (4, true), (2, false)]
    let table := ((ofSource source).setAll calls).1
    source.lineCount = 3 ∧ table.isEnabled 3 = true ∧ table.isEnabled 2 = false ∧
      table.isEnabled 1 = false := by decide

end Breakpoints

end ScriptDebugger
