/-
  ScriptDebugger/Proofs/Breakpoints.lean
  ======================================
  **The flags of the lines.**

  An attempt to set a flag is read back on its own line and only if the line takes a
  breakpoint (`isEnabled_attempt`).  So a table that began empty never enables a line
  that takes none (`OnlyBreakable`), whatever attempts are made.
-/
import ScriptDebugger.Breakpoints

namespace ScriptDebugger

namespace Breakpoints

theorem attempt_of_breakable {table : Breakpoints} {line : UInt32}
    (hline : table.source.isBreakable line = true) (enabled : Bool) :
    table.attempt line enabled = { table with flags := table.flags.insert line enabled } := by
  simp only [attempt, set, hline, if_true]

theorem attempt_of_not_breakable {table : Breakpoints} {line : UInt32}
    (hline : table.source.isBreakable line = false) (enabled : Bool) :
    table.attempt line enabled = table := by
  simp only [attempt, set, hline, Bool.false_eq_true, if_false]

@[simp] theorem attempt_source (table : Breakpoints) (line : UInt32) (enabled : Bool) :
    (table.attempt line enabled).source = table.source := by
  rcases hline : table.source.isBreakable line with _ | _
  · rw [attempt_of_not_breakable hline]
  · rw [attempt_of_breakable hline]

/-- **The last attempt on a line counts, if the line takes a breakpoint.** -/
theorem isEnabled_attempt (table : Breakpoints) (line : UInt32) (enabled : Bool) (other : UInt32) :
    (table.attempt line enabled).isEnabled other =
      if line = other ∧ table.source.isBreakable line = true then enabled
      else table.isEnabled other := by
  rcases hline : table.source.isBreakable line with _ | _
  · rw [attempt_of_not_breakable hline, if_neg (by simp)]
  · rw [attempt_of_breakable hline]
    unfold isEnabled
    rw [OrderedMap.get?_insert]
    by_cases hsame : line = other
    · rw [if_pos hsame, if_pos ⟨hsame, rfl⟩, Option.getD_some]
    · rw [if_neg hsame, if_neg fun h => hsame h.1]

/-- Only lines that take breakpoints are enabled. -/
def OnlyBreakable (table : Breakpoints) : Prop :=
  ∀ line, table.isEnabled line = true → table.source.isBreakable line = true

theorem onlyBreakable_ofSource (source : Source) : (ofSource source).OnlyBreakable := by
  intro line henabled
  cases henabled

theorem OnlyBreakable.attempt {table : Breakpoints} (h : table.OnlyBreakable) (line : UInt32)
    (enabled : Bool) : (table.attempt line enabled).OnlyBreakable := by
  rcases hline : table.source.isBreakable line with _ | _
  · rw [attempt_of_not_breakable hline]
    exact h
  · intro other henabled
    rw [isEnabled_attempt] at henabled
    rw [attempt_of_breakable hline]
    show table.source.isBreakable other = true
    split at henabled
    · rename_i hsame
      exact hsame.1 ▸ hsame.2
    · exact h other henabled

end Breakpoints

end ScriptDebugger
