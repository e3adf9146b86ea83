import DebugBridge.Main
import DebugBridge.Proofs.Course
import DebugBridge.Proofs.Step
import DebugBridge.Proofs.Connection
import DebugBridge.Proofs.Telling
import DebugBridge.Proofs.EntryStop
import DebugBridge.Proofs.Gist
import DebugBridge.Proofs.Following
import DebugBridge.Proofs.History
import DebugBridge.Proofs.Lifecycle
import DebugBridge.Proofs.Deeds
import DebugBridge.Proofs.Registry
import DebugBridge.Proofs.Registry.History
import DebugBridge.Proofs.Verification
import DebugBridge.Proofs.LateLoad
import DebugBridge.Proofs.Unverified
import DebugBridge.Proofs.Expansion
import DebugBridge.Proofs.Requests
import DebugBridge.Proofs.NoDebug
import DebugBridge.Proofs.Provenance
import DebugBridge.Proofs.Query
import DebugBridge.Proofs.References
import DebugBridge.Proofs.Json.Compact
import DebugBridge.Proofs.Unheeded
import DebugBridge.Proofs.Json.Wire
import DebugBridge.Proofs.Codec
import DebugBridge.Proofs.Carriers
import DebugBridge.Proofs.InFlight
import DebugBridge.Proofs.Failures
import DebugBridge.Proofs.Deskless
import DebugBridge.Proofs.Independence
import DebugBridge.Proofs.Console.Typing
import DebugBridge.Proofs.Console.Running
import DebugBridge.Proofs.Console.Lines
import DebugBridge.Proofs.Console.Script
import DebugBridge.Proofs.Text.Words
import DebugBridge.Proofs.Console.Paths
import DebugBridge.Proofs.Reports
import DebugBridge.Proofs.Json.Form
import DebugBridge.Proofs.Console.Formats
import DebugBridge.Proofs.Json.Grammar
import DebugBridge.Proofs.Json.Recognition
import DebugBridge.Proofs.Frames
import DebugBridge.Proofs.Target
import DebugBridge.Proofs.Children
import DebugBridge.Proofs.FirstLoad
import DebugBridge.Proofs.Replacing
import DebugBridge.Proofs.Endpoint
import DebugBridge.Proofs.LineEnds
import DebugBridge.Proofs.Respelling
import DebugBridge.Proofs.ReadOnce
import DebugBridge.Proofs.Endpoint.Grammar
import DebugBridge.Proofs.Console.Grammar
import DebugBridge.Proofs.Listing
import DebugBridge.Proofs.Console.JsonLines
import DebugBridge.Proofs.Paging
import DebugBridge.Proofs.Columns
