/-
  ScriptDebugger/Proofs/Breakpoints/Configured.lean
  =================================================
  **The breakpoints with which an engine begins.**

  The lines of a configuration are set one after another, and those that take no
  breakpoint are refused one by one.  As the configuration has every line once, the flag of
  a line is what the configuration says of it (`Engine.isEnabled_ofSource_iff`), and with
  what the configuration is made from this is a difference of sets: the lines to enable
  without the lines to disable, as far as they take breakpoints.  So in which order and how
  often lines are given makes no difference, and neither do lines that take none
  (`configured_lines_are_enabled`).
-/
import ScriptDebugger.Proofs.Config.Acceptance
import ScriptDebugger.Proofs.Rendezvous.Edits

namespace ScriptDebugger

namespace OrderedMap

variable {α β : Type} [DecidableEq α]

/-- A map stores under a key what is found there. -/
theorem getLast?_stored_entries (m : OrderedMap α β) (k : α) :
    (stored m.entries k).getLast? = m.get? k := by
  rw [← get?_ofList_eq, ofList_entries]

end OrderedMap

namespace Breakpoints

theorem flagsSet_eq (source : Source) (calls : List (UInt32 × Bool)) (line : UInt32) :
    flagsSet source calls line = if source.Takes line then OrderedMap.stored calls line else [] := by
  by_cases hline : source.Takes line
  · simp [flagsSet, OrderedMap.stored, hline]
  · simp [flagsSet, hline]

/-- The flags of a map are set on the lines that take breakpoints. -/
theorem isEnabled_setAll_entries_iff (source : Source) (flags : OrderedMap UInt32 Bool)
    (line : UInt32) :
    ((ofSource source).setAll flags.entries).1.isEnabled line = true ↔
      source.Takes line ∧ flags.get? line = some true := by
  have hnever : (ofSource source).isEnabled line = false := rfl
  have hsource : (ofSource source).source = source := rfl
  rw [isEnabled_setAll, hnever, hsource, flagsSet_eq]
  split
  · rename_i hline
    rw [OrderedMap.getLast?_stored_entries]
    cases flags.get? line <;> simp [hline]
  · rename_i hline
    simp [hline]

end Breakpoints

namespace Engine

variable {χ : Type}

/-- An engine begins with the flags of the configuration, and nothing has happened yet. -/
theorem ofSource_eq_setAll (source : Source) (config : Config) :
    (ofSource source config : Engine χ) =
      { breakpoints := ((Breakpoints.ofSource source).setAll config.breakpoints.entries).1
        assembler := config.assembler
        runState := .running
        muted := config.muteBreakpoints
        slot := none
        step := none
        lastStop := none
        listener := none
        sink := none
        service := .absent } := by
  rw [ofSource, setupBreakpoints_eq]

theorem isEnabled_ofSource_iff (source : Source) (config : Config) (line : UInt32) :
    (ofSource source config : Engine χ).breakpoints.isEnabled line = true ↔
      source.Takes line ∧ config.breakpoints.get? line = some true := by
  rw [ofSource_eq_setAll]
  exact Breakpoints.isEnabled_setAll_entries_iff source config.breakpoints line

end Engine

namespace Config.Settings

variable {s : Settings} {config : Config}

/-- The lines to enable are those of the first list that are not in the second one. -/
theorem get?_breakpoints_iff (accepted : s.toConfig = .ok config) (line : UInt32) :
    config.breakpoints.get? line = some true ↔ line ∈ s.givenLines ∧ line ∉ s.givenDisabled := by
  obtain ⟨-, rfl⟩ := (s.toConfig_eq_ok_iff config).mp accepted
  rw [filled, get?_flagged]
  by_cases hdisabled : line ∈ s.givenDisabled
  · simp [hdisabled]
  · simp [hdisabled]

/-- The settings with other lines to enable and to disable. -/
def withLines (s : Settings) (lines disabled : List UInt32) : Settings :=
  { s with breakpoints := some ⟨some lines, some disabled⟩ }

/-- The lines do not matter for the acceptance, except that none of them is zero. -/
theorem toConfig_withLines (accepted : s.toConfig = .ok config) {lines disabled : List UInt32}
    (hlines : 0 ∉ lines) (hdisabled : 0 ∉ disabled) :
    (s.withLines lines disabled).toConfig =
      .ok { config with breakpoints := .ofList (flagged lines disabled) } := by
  obtain ⟨hfaults, rfl⟩ := (s.toConfig_eq_ok_iff config).mp accepted
  refine (toConfig_eq_ok_iff _ _).mpr ⟨fun f => ?_, rfl⟩
  cases f with
  | unreadable => exact hfaults .unreadable
  | blankTopLevelName => exact hfaults .blankTopLevelName
  | zeroDepth => exact hfaults .zeroDepth
  | zeroLength => exact hfaults .zeroLength
  | zeroLine => exact not_or.mpr ⟨hlines, hdisabled⟩

end Config.Settings

/-- **The configured lines are enabled when the engine begins.**  With accepted settings the
    engine runs, nothing waits or is pending and nothing has happened yet, and breakpoints are
    muted as configured.  The enabled lines are the lines to enable that are not to be disabled
    and that take breakpoints, listed in ascending order, each of them once.  So the engine is
    the same to its users if the lines are given in another order or several times, and if
    lines that take no breakpoint are added or left out. -/
theorem configured_lines_are_enabled {χ : Type} (source : Source) {s : Config.Settings}
    {config : Config} (accepted : s.toConfig = .ok config) :
    let e : Engine χ := .ofSource source config
    -- the beginning
    (e.runState = .running ∧ e.slot = none ∧ e.step = none ∧ e.lastStop = none ∧
      e.muted = s.givenMute.getD false ∧ e.breakpoints.source = source) ∧
    -- the enabled lines
    (∀ line, e.breakpoints.isEnabled line = true ↔
      line ∈ s.givenLines ∧ line ∉ s.givenDisabled ∧ source.Takes line) ∧
    (∀ line, line ∈ e.breakpoints.enabledLines ↔
      line ∈ s.givenLines ∧ line ∉ s.givenDisabled ∧ source.Takes line) ∧
    e.breakpoints.enabledLines.Pairwise (· < ·) ∧
    -- order, repetitions, and lines that take no breakpoint
    ∀ lines disabled : List UInt32, 0 ∉ lines → 0 ∉ disabled →
      (∀ line, source.Takes line →
        ((line ∈ lines ↔ line ∈ s.givenLines) ∧ (line ∈ disabled ↔ line ∈ s.givenDisabled))) →
      ∃ other, (s.withLines lines disabled).toConfig = .ok other ∧
        let e' : Engine χ := .ofSource source other
        e' = { e with breakpoints := e'.breakpoints } ∧ e'.breakpoints.source = source ∧
        (∀ line, e'.breakpoints.isEnabled line = e.breakpoints.isEnabled line) ∧
        e'.breakpoints.enabledLines = e.breakpoints.enabledLines := by
  intro e
  have henabled (line : UInt32) : e.breakpoints.isEnabled line = true ↔
      line ∈ s.givenLines ∧ line ∉ s.givenDisabled ∧ source.Takes line := by
    rw [Engine.isEnabled_ofSource_iff, Config.Settings.get?_breakpoints_iff accepted, and_comm,
      and_assoc]
  have hmuted : config.muteBreakpoints = s.givenMute.getD false := by
    obtain ⟨-, rfl⟩ := (s.toConfig_eq_ok_iff config).mp accepted
    rfl
  refine ⟨?_, henabled, fun line => (e.breakpoints.mem_enabledLines_iff line).trans (henabled line),
    e.breakpoints.ascending_enabledLines, ?_⟩
  · have hbegin : e = _ := Engine.ofSource_eq_setAll source config
    rw [hbegin]
    exact ⟨rfl, rfl, rfl, rfl, hmuted, Breakpoints.setAll_source _ _⟩
  · intro lines disabled hlines hdisabled hsame
    have haccepted := Config.Settings.toConfig_withLines accepted hlines hdisabled
    refine ⟨_, haccepted, ?_⟩
    intro e'
    have hflags (line : UInt32) : e'.breakpoints.isEnabled line = e.breakpoints.isEnabled line := by
      rw [Bool.eq_iff_iff, henabled, Engine.isEnabled_ofSource_iff,
        Config.Settings.get?_breakpoints_iff haccepted]
      show source.Takes line ∧ line ∈ lines ∧ line ∉ disabled ↔ _
      by_cases hline : source.Takes line
      · obtain ⟨hsameLines, hsameDisabled⟩ := hsame line hline
        simp only [hline, hsameLines, hsameDisabled, true_and, and_true]
      · simp only [hline, false_and, and_false]
    have hbegin : e' = _ := Engine.ofSource_eq_setAll source _
    refine ⟨?_, ?_, hflags, Breakpoints.enabledLines_eq hflags⟩
    · simp only [e, e', Engine.ofSource_eq_setAll]
      rfl
    · rw [hbegin]
      exact Breakpoints.setAll_source _ _

/-- A line given twice, a line that is also to be disabled, and a line that does not exist. -/
theorem configured_lines_are_enabled_with_overlap :
    let s : Config.Settings := ⟨none, none, some ⟨some [3, 1, 3, 9, 2], some [1, 5]⟩⟩
    ∃ config, s.toConfig = .ok config ∧
      let e : Engine Unit := .ofSource (.ofLineCount "main" 4) config
      e.runState = .running ∧ (2 ∈ e.breakpoints.enabledLines ∧ 3 ∈ e.breakpoints.enabledLines) ∧
        1 ∉ e.breakpoints.enabledLines ∧ 9 ∉ e.breakpoints.enabledLines := by
  intro s
  refine ⟨s.filled, rfl, ?_⟩
  obtain ⟨⟨hrun, _⟩, _, henabled, _⟩ :=
    configured_lines_are_enabled (χ := Unit) (.ofLineCount "main" 4) (s := s) rfl
  exact ⟨hrun, ⟨(henabled 2).mpr (by decide), (henabled 3).mpr (by decide)⟩,
    fun h => absurd ((henabled 1).mp h) (by decide),
    fun h => absurd ((henabled 9).mp h) (by decide)⟩

end ScriptDebugger
