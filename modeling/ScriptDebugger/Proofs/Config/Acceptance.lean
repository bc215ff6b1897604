/-
  ScriptDebugger/Proofs/Config/Acceptance.lean
  ============================================
  **Which settings are accepted, and as which configuration.**

  Settings can break four rules (`Settings.Breaks`).  The rules are checked in a fixed
  order, so the fault that is reported is the first one in this order
  (`Settings.toConfig_eq`), wherever it stands in the document.  Settings that break no
  rule are filled up with the defaults (`Settings.filled`), and the lines of both lists
  become a table in which a line has one place and a line to disable is disabled, in
  whatever order and however often it is given (`Settings.entries_flagged`).
-/
import Mathlib.Data.List.TakeWhile
import ScriptDebugger.Config
import ScriptDebugger.Proofs.OrderedMap

namespace ScriptDebugger

/-- Stripping leaves nothing of a text if it has nothing but white space. -/
theorem Text.isBlank_iff (s : String) :
    isBlank s = true ↔ ∀ c ∈ s.toList, isWhite c = true := by
  have hfront : ∀ c ∈ s.toList.takeWhile isWhite, isWhite c = true :=
    fun c hc => List.mem_takeWhile_imp hc
  rw [isBlank, strip, List.isEmpty_iff, List.reverse_eq_nil_iff, List.dropWhile_eq_nil_iff]
  simp only [List.mem_reverse]
  rw [← List.takeWhile_append_dropWhile (p := isWhite) (l := s.toList), List.forall_mem_append,
    List.takeWhile_append_dropWhile]
  exact (and_iff_right hfront).symm

namespace Config

namespace Fault

/-- The faults of settings, in the order in which they are looked for. -/
def checked : List Fault := [.blankTopLevelName, .zeroDepth, .zeroLength, .zeroLine]

/-- The report of a fault tells which one it is. -/
theorem error_injective {f g : Fault} (h : f.error = g.error) : f = g := by
  cases f <;> cases g <;> first | rfl | exact absurd h (by decide)

end Fault

namespace Settings

/-! ### What settings give -/

/-- The name that is given. -/
def givenName (s : Settings) : Option String := s.engine.bind EngineSettings.topLevelName

/-- Whether to mute, if that is given. -/
def givenMute (s : Settings) : Option Bool := s.engine.bind EngineSettings.muteBreakpoints

/-- The depth that is given. -/
def givenDepth (s : Settings) : Option Nat := s.render.bind RenderSettings.maxDepth

/-- The length that is given. -/
def givenLength (s : Settings) : Option Nat := s.render.bind RenderSettings.maxStringLen

/-- The lines to enable; none if they are not given. -/
def givenLines (s : Settings) : List UInt32 :=
  (s.breakpoints.bind BreakpointSettings.lines).getD []

/-- The lines to disable; none if they are not given. -/
def givenDisabled (s : Settings) : List UInt32 :=
  (s.breakpoints.bind BreakpointSettings.disabled).getD []

/-- Settings have a fault. -/
def Breaks (s : Settings) : Fault → Prop
  | .unreadable => False
  | .blankTopLevelName => ∃ name, s.givenName = some name ∧ ∀ c ∈ name.toList, Text.isWhite c = true
  | .zeroDepth => s.givenDepth = some 0
  | .zeroLength => s.givenLength = some 0
  | .zeroLine => 0 ∈ s.givenLines ∨ 0 ∈ s.givenDisabled

/-- The entries of the table: first the lines to enable, then the lines to disable. -/
def flagged (lines disabled : List UInt32) : List (UInt32 × Bool) :=
  lines.map (fun line => (line, true)) ++ disabled.map fun line => (line, false)

/-- The configuration of settings without a fault. -/
def filled (s : Settings) : Config where
  topLevelName := s.givenName.getD "BTMain"
  muteBreakpoints := s.givenMute.getD false
  render := { maxDepth := s.givenDepth.getD 16, maxStringLen := s.givenLength }
  breakpoints := .ofList (flagged s.givenLines s.givenDisabled)

variable (s : Settings)

/-! ### The checks -/

theorem nameOk_iff : nameOk (s.engine.getD {}) = true ↔ ¬ s.Breaks .blankTopLevelName := by
  have hname : (s.engine.getD {}).topLevelName = s.givenName := by
    unfold givenName
    cases s.engine <;> rfl
  rw [nameOk, hname, Breaks]
  cases s.givenName with
  | none => simp
  | some name => simp [← Text.isBlank_iff]

theorem depthOk_iff : depthOk (s.render.getD {}) = true ↔ ¬ s.Breaks .zeroDepth := by
  have hdepth : (s.render.getD {}).maxDepth = s.givenDepth := by
    unfold givenDepth
    cases s.render <;> rfl
  rw [depthOk, hdepth, Breaks]
  cases s.givenDepth with
  | none => simp
  | some n => simp

theorem lengthOk_iff : lengthOk (s.render.getD {}) = true ↔ ¬ s.Breaks .zeroLength := by
  have hlength : (s.render.getD {}).maxStringLen = s.givenLength := by
    unfold givenLength
    cases s.render <;> rfl
  rw [lengthOk, hlength, Breaks]
  cases s.givenLength with
  | none => simp
  | some n => simp

theorem linesOk_iff : linesOk (s.breakpoints.getD {}) = true ↔ ¬ s.Breaks .zeroLine := by
  have hlines : mentioned (s.breakpoints.getD {}) = s.givenLines ++ s.givenDisabled := by
    unfold mentioned givenLines givenDisabled
    cases s.breakpoints <;> rfl
  rw [linesOk, hlines, Breaks, ← List.mem_append, List.all_eq_true]
  simp only [bne_iff_ne, ne_eq]
  exact ⟨fun h hzero => h 0 hzero rfl, fun h line hline hzero => h (hzero ▸ hline)⟩

/-- The check for a fault. -/
def passes : Fault → Bool
  | .unreadable => true
  | .blankTopLevelName => nameOk (s.engine.getD {})
  | .zeroDepth => depthOk (s.render.getD {})
  | .zeroLength => lengthOk (s.render.getD {})
  | .zeroLine => linesOk (s.breakpoints.getD {})

theorem passes_eq_false_iff (f : Fault) : s.passes f = false ↔ s.Breaks f := by
  rw [← Bool.not_eq_true, not_iff_comm]
  cases f with
  | unreadable => simp [passes, Breaks]
  | blankTopLevelName => exact s.nameOk_iff.symm
  | zeroDepth => exact s.depthOk_iff.symm
  | zeroLength => exact s.lengthOk_iff.symm
  | zeroLine => exact s.linesOk_iff.symm

instance (f : Fault) : Decidable (s.Breaks f) := decidable_of_iff _ (s.passes_eq_false_iff f)

theorem require_bind {α : Type} (ok : Bool) (fault : Fault) (next : Except Fault α) :
    (require ok fault >>= fun _ => next) = if ok then next else .error fault := by
  cases ok <;> rfl

theorem toConfig_eq_ite :
    s.toConfig =
      if s.passes .blankTopLevelName then
        if s.passes .zeroDepth then
          if s.passes .zeroLength then
            if s.passes .zeroLine then .ok s.filled else .error .zeroLine
          else .error .zeroLength
        else .error .zeroDepth
      else .error .blankTopLevelName := by
  have hfilled : s.toConfig = (do
      require (s.passes .blankTopLevelName) .blankTopLevelName
      require (s.passes .zeroDepth) .zeroDepth
      require (s.passes .zeroLength) .zeroLength
      require (s.passes .zeroLine) .zeroLine
      return s.filled) := by
    obtain ⟨engine, render, breakpoints⟩ := s
    cases engine <;> cases render <;> cases breakpoints <;> rfl
  rw [hfilled]
  simp only [require_bind]
  rfl

/-- **The first fault is reported, and without a fault the defaults fill up what is missing.** -/
theorem toConfig_eq :
    s.toConfig =
      match Fault.checked.find? fun f => decide (s.Breaks f) with
      | some f => .error f
      | none => .ok s.filled := by
  have hdecide (f : Fault) : decide (s.Breaks f) = !s.passes f := by
    rw [Bool.eq_iff_iff]
    simp [passes_eq_false_iff]
  simp only [toConfig_eq_ite, Fault.checked, List.find?_cons, List.find?_nil, hdecide]
  cases s.passes .blankTopLevelName <;> cases s.passes .zeroDepth <;>
    cases s.passes .zeroLength <;> cases s.passes .zeroLine <;> rfl

theorem toConfig_eq_error_iff (f : Fault) :
    s.toConfig = .error f ↔
      s.Breaks f ∧ ∃ before after, Fault.checked = before ++ f :: after ∧
        ∀ g ∈ before, ¬ s.Breaks g := by
  have hfind : s.toConfig = .error f ↔
      (Fault.checked.find? fun g => decide (s.Breaks g)) = some f := by
    rw [toConfig_eq]
    cases Fault.checked.find? fun g => decide (s.Breaks g) <;> simp
  rw [hfind, List.find?_eq_some_iff_append]
  simp only [decide_eq_true_eq, Bool.not_eq_true', decide_eq_false_iff_not]

theorem toConfig_eq_ok_iff (c : Config) :
    s.toConfig = .ok c ↔ (∀ f, ¬ s.Breaks f) ∧ s.filled = c := by
  have hchecked (f : Fault) (hf : s.Breaks f) : f ∈ Fault.checked := by
    cases f with
    | unreadable => exact hf.elim
    | _ => decide
  have hnone : (∀ f, ¬ s.Breaks f) ↔
      (Fault.checked.find? fun g => decide (s.Breaks g)) = none := by
    rw [List.find?_eq_none]
    simp only [decide_eq_true_eq]
    exact ⟨fun h f _ => h f, fun h f hf => h f (hchecked f hf) hf⟩
  rw [toConfig_eq, hnone]
  cases Fault.checked.find? fun g => decide (s.Breaks g) <;> simp

/-! ### The table -/

theorem getLast?_stored_map (lines : List UInt32) (flag : Bool) (line : UInt32) :
    (OrderedMap.stored (lines.map fun l => (l, flag)) line).getLast? =
      if line ∈ lines then some flag else none := by
  induction lines with
  | nil => rfl
  | cons l lines ih =>
    rw [List.map_cons, OrderedMap.stored_cons]
    by_cases hl : l = line
    · have hmem : line ∈ l :: lines := hl ▸ List.mem_cons_self
      rw [if_pos hl, if_pos hmem, List.getLast?_cons, ih]
      split <;> rfl
    · rw [if_neg hl, ih]
      simp [Ne.symm hl]

theorem get?_flagged (lines disabled : List UInt32) (line : UInt32) :
    (OrderedMap.ofList (flagged lines disabled)).get? line =
      if line ∈ disabled then some false else if line ∈ lines then some true else none := by
  rw [OrderedMap.get?_ofList_eq, flagged, OrderedMap.stored_append, List.getLast?_append,
    getLast?_stored_map, getLast?_stored_map]
  split <;> rfl

/-- A line has one place, and a line to disable is disabled. -/
theorem entries_flagged (lines disabled : List UInt32) :
    (OrderedMap.ofList (flagged lines disabled)).entries =
      (lines ++ disabled).eraseDups.map fun line => (line, decide (line ∉ disabled)) := by
  have hkeys : (OrderedMap.ofList (flagged lines disabled)).keys = (lines ++ disabled).eraseDups := by
    rw [OrderedMap.keys_ofList, flagged, List.map_append, List.map_map, List.map_map]
    exact congrArg List.eraseDups (congrArg₂ (· ++ ·) (List.map_id lines) (List.map_id disabled))
  rw [← hkeys]
  apply OrderedMap.entries_eq_map
  intro line hline
  rw [hkeys, List.mem_eraseDups, List.mem_append] at hline
  rw [get?_flagged]
  by_cases hdisabled : line ∈ disabled
  · simp [hdisabled]
  · simp [hdisabled, hline.resolve_right hdisabled]

/-- **Settings are checked in order and taken over as they are.**  Whatever a document gives
    and leaves out, its settings are accepted exactly if a given name has a character that is
    no white space, a given depth and a given length are not zero, and zero is in neither list
    of lines; otherwise the first fault in this order is reported, and the report tells which
    one it is.  In the configuration everything that is given is what was given, the rest is
    the default, and the breakpoints are the different lines of both lists, those to enable
    before those to disable, in the order of their first occurrences; a line is enabled
    exactly if it is not to be disabled. -/
theorem settings_are_checked_in_order (s : Settings) :
    -- acceptance
    ((∃ c, s.toConfig = .ok c) ↔
      (∀ name, s.givenName = some name → ∃ ch ∈ name.toList, Text.isWhite ch = false) ∧
      s.givenDepth ≠ some 0 ∧ s.givenLength ≠ some 0 ∧
      0 ∉ s.givenLines ∧ 0 ∉ s.givenDisabled) ∧
    -- the first fault
    (∀ f, s.toConfig = .error f ↔
      s.Breaks f ∧ ∃ before after, Fault.checked = before ++ f :: after ∧
        ∀ g ∈ before, ¬ s.Breaks g) ∧
    (∀ f g : Fault, f.error = g.error ↔ f = g) ∧
    -- the configuration
    ∀ c, s.toConfig = .ok c →
      c.topLevelName = s.givenName.getD "BTMain" ∧
      c.muteBreakpoints = s.givenMute.getD false ∧
      c.render.maxDepth = s.givenDepth.getD 16 ∧
      c.render.maxStringLen = s.givenLength ∧
      c.breakpoints.entries = (s.givenLines ++ s.givenDisabled).eraseDups.map fun line =>
        (line, decide (line ∉ s.givenDisabled)) := by
  refine ⟨?_, s.toConfig_eq_error_iff, fun f g => ⟨Fault.error_injective, congrArg Fault.error⟩,
    ?_⟩
  · have hname : (∀ name, s.givenName = some name → ∃ ch ∈ name.toList, Text.isWhite ch = false) ↔
        ¬ s.Breaks .blankTopLevelName := by
      simp only [Breaks, not_exists, not_and, not_forall, Bool.not_eq_true, exists_prop]
    have hlines : (0 ∉ s.givenLines ∧ 0 ∉ s.givenDisabled) ↔ ¬ s.Breaks .zeroLine :=
      not_or.symm
    simp only [toConfig_eq_ok_iff, exists_and_left, exists_eq', and_true, hname, hlines]
    constructor
    · exact fun h => ⟨h .blankTopLevelName, h .zeroDepth, h .zeroLength, h .zeroLine⟩
    · rintro ⟨hn, hd, hl, hz⟩ f
      cases f with
      | unreadable => exact id
      | blankTopLevelName => exact hn
      | zeroDepth => exact hd
      | zeroLength => exact hl
      | zeroLine => exact hz
  · intro c hc
    obtain ⟨-, rfl⟩ := (s.toConfig_eq_ok_iff c).mp hc
    exact ⟨rfl, rfl, rfl, rfl, entries_flagged s.givenLines s.givenDisabled⟩

-- Of three faults the first in the order of the checks is reported.
example : toConfig ⟨some ⟨some "\t\u3000", none⟩, some ⟨none, some 0⟩, some ⟨some [7], some [0]⟩⟩ =
    .error .blankTopLevelName := rfl

end Settings

end Config

end ScriptDebugger
