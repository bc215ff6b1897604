import ScriptDebugger.OrderedMap
import ScriptDebugger.Decimal.Numeral
import ScriptDebugger.Text.Blank
import ScriptDebugger.Rendering
import ScriptDebugger.Breakpoints
import ScriptDebugger.Json.Reader
import ScriptDebugger.Json.Printer
import ScriptDebugger.Command.Codec
import ScriptDebugger.Stack.Assembly
import ScriptDebugger.Command.Output
import ScriptDebugger.Config.Document
import ScriptDebugger.Command.Future
import ScriptDebugger.Engine.Run
import ScriptDebugger.Engine.Rendezvous
import ScriptDebugger.Text.Quoted
import ScriptDebugger.Value.Literal
import ScriptDebugger.Session
import ScriptDebugger.Proofs.Engine.SlotOrder
import ScriptDebugger.Proofs.Engine.Stepping
import ScriptDebugger.Proofs.Engine.RunStates
import ScriptDebugger.Proofs.Rendezvous.Results
import ScriptDebugger.Proofs.Engine.AfterEnd
import ScriptDebugger.Proofs.Stack.Chain
import ScriptDebugger.Proofs.Rendering.Markers
import ScriptDebugger.Proofs.Breakpoints
import ScriptDebugger.Proofs.Breakpoints.LastWrite
import ScriptDebugger.Proofs.Engine.Notices
import ScriptDebugger.Proofs.Engine.Returns
import ScriptDebugger.Proofs.OrderedMap
import ScriptDebugger.Proofs.Stack.Failures
import ScriptDebugger.Proofs.Engine.Muting
import ScriptDebugger.Proofs.Rendering.Depth
import ScriptDebugger.Proofs.Engine.Inspection
import ScriptDebugger.Proofs.Rendezvous.Submission
import ScriptDebugger.Proofs.Rendezvous.Edits
import ScriptDebugger.Proofs.Rendering.Reach
import ScriptDebugger.Proofs.Rendering.Renaming
import ScriptDebugger.Proofs.Stack.Renaming
import ScriptDebugger.Proofs.Engine.StepOrder
import ScriptDebugger.Proofs.Stack.Bindings
import ScriptDebugger.Proofs.Stack.Excerpts
import ScriptDebugger.Proofs.Decimal.Plain
import ScriptDebugger.Proofs.Decimal.Rounding
import ScriptDebugger.Proofs.Decimal.RoundTrip
import ScriptDebugger.Proofs.Decimal.Range
import ScriptDebugger.Proofs.Json.Grammar
import ScriptDebugger.Proofs.Json.Literal
import ScriptDebugger.Proofs.Json.Scan
import ScriptDebugger.Proofs.Json.RoundTrip
import ScriptDebugger.Proofs.Stack.Document
import ScriptDebugger.Proofs.Value.Sharing
import ScriptDebugger.Proofs.Config.Acceptance
import ScriptDebugger.Proofs.Breakpoints.Configured
import ScriptDebugger.Proofs.Json.Places
import ScriptDebugger.Proofs.Json.Acceptance
import ScriptDebugger.Proofs.Command.Acceptance
