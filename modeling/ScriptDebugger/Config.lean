/-
  ScriptDebugger/Config.lean
  ==========================
  **The configuration of the debugger, and the settings it is made from.**

  A document gives optional settings; what it leaves out keeps its default.
  `Settings.toConfig` checks the settings in a fixed order and stops at the first
  fault.
-/
import ScriptDebugger.Rendering
import ScriptDebugger.Stack.Assembly
import ScriptDebugger.Text.Blank

namespace ScriptDebugger

/-- The configuration of the debugger. -/
structure Config where
  /-- What code outside of all functions is called. -/
  topLevelName : String := "BTMain"
  /-- Whether breakpoints are muted at the start. -/
  muteBreakpoints : Bool := false
  render : RenderOptions := {}
  /-- The breakpoints that are set at the start, one line after another. -/
  breakpoints : OrderedMap UInt32 Bool := .empty
  deriving DecidableEq, Repr

/-- How a configuration takes snapshots. -/
def Config.assembler (c : Config) : Assembler := ⟨c.render, c.topLevelName⟩

namespace Config

/-- Why a configuration is refused. -/
inductive Fault
  /-- The document cannot be read, or a setting has the wrong type. -/
  | unreadable
  | blankTopLevelName
  | zeroDepth
  | zeroLength
  | zeroLine
  deriving DecidableEq, Repr

/-- The wording of a fault. -/
def Fault.detail : Fault → String
  | .unreadable => "debugger.toml"
  | .blankTopLevelName => "engine.top_level_name must not be empty"
  | .zeroDepth => "render.max_depth must be at least 1"
  | .zeroLength => "render.max_string_len must be at least 1"
  | .zeroLine => "breakpoint lines start at 1"

/-- A fault as the refusal that is reported. -/
def Fault.error (f : Fault) : DebuggerError := .invalidConfig f.detail

/-- The settings of the engine. -/
structure EngineSettings where
  topLevelName : Option String := none
  muteBreakpoints : Option Bool := none
  deriving DecidableEq, Repr

/-- The settings for showing values. -/
structure RenderSettings where
  maxDepth : Option Nat := none
  maxStringLen : Option Nat := none
  deriving DecidableEq, Repr

/-- The settings for breakpoints: lines to enable, and lines to disable. -/
structure BreakpointSettings where
  lines : Option (List UInt32) := none
  disabled : Option (List UInt32) := none
  deriving DecidableEq, Repr

/-- What a document sets; each section may be missing. -/
structure Settings where
  engine : Option EngineSettings := none
  render : Option RenderSettings := none
  breakpoints : Option BreakpointSettings := none
  deriving DecidableEq, Repr

namespace Settings

/-- Refuses settings in which a condition fails. -/
def require (ok : Bool) (fault : Fault) : Except Fault Unit :=
  if ok then .ok () else .error fault

/-- Whether a given name is more than white space. -/
def nameOk (s : EngineSettings) : Bool := (s.topLevelName.map fun n => !Text.isBlank n).getD true

/-- Whether a given depth is not zero. -/
def depthOk (s : RenderSettings) : Bool := (s.maxDepth.map fun n => n != 0).getD true

/-- Whether a given length is not zero. -/
def lengthOk (s : RenderSettings) : Bool := (s.maxStringLen.map fun n => n != 0).getD true

/-- All lines that are mentioned, the enabled ones first. -/
def mentioned (s : BreakpointSettings) : List UInt32 := s.lines.getD [] ++ s.disabled.getD []

/-- Whether all mentioned lines exist in some source unit. -/
def linesOk (s : BreakpointSettings) : Bool := (mentioned s).all fun n => n != 0

/-- The table of the mentioned lines: first the lines to enable, then the lines to
    disable, so a line in both is disabled and keeps its place. -/
def table (s : BreakpointSettings) : OrderedMap UInt32 Bool :=
  .ofList ((s.lines.getD []).map (fun n => (n, true)) ++
    (s.disabled.getD []).map (fun n => (n, false)))

/-- Checks settings and fills up what they leave out. -/
def toConfig (s : Settings) : Except Fault Config := do
  let engine := s.engine.getD {}
  let render := s.render.getD {}
  let breakpoints := s.breakpoints.getD {}
  require (nameOk engine) .blankTopLevelName
  require (depthOk render) .zeroDepth
  require (lengthOk render) .zeroLength
  require (linesOk breakpoints) .zeroLine
  let standard : Config := {}
  return {
    topLevelName := engine.topLevelName.getD standard.topLevelName
    muteBreakpoints := engine.muteBreakpoints.getD standard.muteBreakpoints
    render := {
      maxDepth := render.maxDepth.getD standard.render.maxDepth
      maxStringLen := render.maxStringLen }
    breakpoints := table breakpoints }

end Settings

end Config

end ScriptDebugger
