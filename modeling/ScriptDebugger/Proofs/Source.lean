/-
  ScriptDebugger/Proofs/Source.lean
  =================================
  **Which lines of a source unit take breakpoints.**

  A line does if it exists and, where the lines with code are known, is one of them
  (`Source.Takes`).  A text has a line for each of its line feeds, and one more if
  something follows the last of them (`Text.lineCount_eq`).  Line numbers are bounded
  and texts are not, but no line of a text that has a number is lost
  (`Source.le_lineCount_ofText_iff`).
-/
import ScriptDebugger.Source

namespace ScriptDebugger

namespace Text

/-- Whether something follows the last line feed of a text. -/
def endsOpen (cs : List Char) : Bool := cs.getLast?.any fun c => c ≠ '\n'

/-- A line that is being read is counted once it ends. -/
theorem length_linesFrom {current : List Char} (hcurrent : '\n' ∉ current) (cs : List Char) :
    (linesFrom current cs).length =
      cs.count '\n' + (endsOpen (current.reverse ++ cs)).toNat := by
  induction cs generalizing current with
  | nil =>
    cases current with
    | nil => rfl
    | cons c rest =>
      have hc : c ≠ '\n' := fun h => hcurrent (h ▸ List.mem_cons_self)
      simp [linesFrom, endsOpen, hc]
  | cons c cs ih =>
    rw [linesFrom]
    split
    · rename_i hc
      subst hc
      -- what was read before the line feed does not count any more
      have hopen : endsOpen (current.reverse ++ '\n' :: cs) = endsOpen cs := by
        cases cs with
        | nil => simp [endsOpen]
        | cons c cs => simp [endsOpen, List.getLast?_append, List.getLast?_cons]
      rw [List.length_cons, ih (by simp), List.count_cons_self, hopen]
      simp only [List.reverse_nil, List.nil_append]
      omega
    · rename_i hc
      have hnext : '\n' ∉ c :: current := by
        rw [List.mem_cons, not_or]
        exact ⟨fun h => hc h.symm, hcurrent⟩
      rw [ih hnext, List.count_cons_of_ne hc, List.reverse_cons, List.append_assoc,
        List.singleton_append]

/-- **A text has a line for each line feed, and one for a rest that is not empty.** -/
theorem lineCount_eq (s : String) :
    lineCount s = s.toList.count '\n' + (endsOpen s.toList).toNat :=
  length_linesFrom (by simp) s.toList

end Text

namespace Source

/-- A line takes a breakpoint: lines are counted from one, and if the lines with code
    are known it is one of them. -/
structure Takes (source : Source) (line : UInt32) : Prop where
  pos : 1 ≤ line
  le : line ≤ source.lineCount
  code : ∀ lines, source.codeLines = some lines → line ∈ lines

theorem isBreakable_iff (source : Source) (line : UInt32) :
    source.isBreakable line = true ↔ source.Takes line := by
  constructor
  · intro h
    rw [isBreakable, Bool.and_eq_true, Bool.and_eq_true, decide_eq_true_eq, decide_eq_true_eq] at h
    obtain ⟨⟨hpos, hle⟩, hcode⟩ := h
    refine ⟨hpos, hle, fun lines hlines => ?_⟩
    simpa [hlines] using hcode
  · intro h
    cases hlines : source.codeLines with
    | none => simp [isBreakable, hlines, h.pos, h.le]
    | some lines => simp [isBreakable, hlines, h.pos, h.le, h.code lines hlines]

instance (source : Source) (line : UInt32) : Decidable (source.Takes line) :=
  decidable_of_iff _ (source.isBreakable_iff line)

theorem lineCount_ofText (name text : String) :
    (ofText name text).lineCount.toNat = min (Text.lineCount text) (lineBound - 1) := by
  apply UInt32.toNat_ofNat_of_lt'
  have hmin := Nat.min_le_right (Text.lineCount text) (lineBound - 1)
  simp only [lineBound, UInt32.size] at hmin ⊢
  omega

/-- **Every line of a text that has a number is counted.** -/
theorem le_lineCount_ofText_iff (name text : String) (line : UInt32) :
    line ≤ (ofText name text).lineCount ↔
      line.toNat ≤ text.toList.count '\n' + (Text.endsOpen text.toList).toNat := by
  -- a number is below the bound, so the bound on the count takes nothing away
  have hnumber := line.toNat_lt
  rw [UInt32.le_iff_toNat_le, lineCount_ofText, Text.lineCount_eq]
  simp only [lineBound]
  omega

end Source

end ScriptDebugger
