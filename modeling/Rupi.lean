import Rupi.Core.Value
import Rupi.Core.Message
import Rupi.Core.Event
import Rupi.Core.Text
import Rupi.Core.Digits
import Rupi.Compat.Substitute
import Rupi.Compat.SubstituteGrammar
import Rupi.Core.Session
import Rupi.Core.Redact
import Rupi.Compat.Frontmatter
import Rupi.Core.Encode
import Rupi.Store.Payload
import Rupi.Lib.Run
import Rupi.Store.LineWriter
import Rupi.Store.Journal
import Rupi.Store.SessionLog
import Rupi.Store.Trace
import Rupi.Store.Projection
import Rupi.Store.Alignment
import Rupi.Store.Deletion
import Rupi.Core.EncodeMessage
import Rupi.Store.ReadBack
import Rupi.Store.StreamedAnswer
import Rupi.Store.Emit
import Rupi.Runtime.ToolOutcome
import Rupi.Runtime.StoreTrace
import Rupi.Lib.Window
import Rupi.Runtime.TurnLoop
import Rupi.Store.LogWindow
import Rupi.Runtime.WindowOps
import Rupi.Runtime.LiveWindow
import Rupi.Runtime.CompactionRanges
import Rupi.Core.Decode
import Rupi.Core.Trust
import Rupi.Lib.Keyed
import Rupi.Store.Trust
import Rupi.Core.DecodeEvent
import Rupi.Core.DecodeRecord
import Rupi.Lib.Backward
import Rupi.Store.LineReader
import Rupi.Store.ProjectionWal
import Rupi.Store.LineBounds
import Rupi.Store.LineBudget
import Rupi.Import.PiSession
import Rupi.Import.Plan
import Rupi.Import.DurableRefs
import Rupi.Import.Contents
import Rupi.Import.Accounts
import Rupi.Core.Texts
import Rupi.Store.Spills
import Rupi.Store.Externalize
import Rupi.Store.RestoreFields
import Rupi.Tools.Edit
import Rupi.Tools.Registry
import Rupi.Tools.Glob
import Rupi.Lib.Cut
import Rupi.Tools.Reduce
import Rupi.Provider.RetryPacing
import Rupi.Core.ContextPolicy
import Rupi.Experiments.AdaptivePolicy
import Rupi.Store.BlobRefs
import Rupi.Store.BlobWriters
import Rupi.Provider.Sse
import Rupi.Provider.SseReference
import Rupi.Provider.Decoder
import Rupi.Lib.Occurrence
import Rupi.Worker.Session
import Rupi.Worker.Service
import Rupi.Worker.Moves
import Rupi.Worker.Sound
import Rupi.Worker.Runs
import Rupi.Worker.Updates
import Rupi.Provider.Correlation
import Rupi.Provider.Provenance
import Rupi.Provider.Reassembly
import Rupi.Lib.Attempt
import Rupi.Lib.Drain
import Rupi.Runtime.Request
import Rupi.Runtime.Eviction
import Rupi.Runtime.TraceFailures
import Rupi.Store.Retention
import Rupi.Mcp.Admission
import Rupi.Mcp.Manager
import Rupi.Lib.Locks
import Rupi.Store.Lease
import Rupi.Store.Openers
import Rupi.Store.Exclusion
import Rupi.Mcp.JsonRpc
import Rupi.Mcp.StdioTransport
import Rupi.Lib.Tickets
import Rupi.Mcp.StdioRuns
import Rupi.Mcp.HttpTransport
import Rupi.Mcp.Exchanges
import Rupi.Extension.Host
import Rupi.Extension.HostRuns
import Rupi.Extension.HostSections
import Rupi.Extension.HostTasks
import Rupi.Extension.HostSafety
import Rupi.Core.Config
import Rupi.Core.Lossy
import Rupi.Core.BoundedLine
import Rupi.Tools.Exec
import Rupi.Tools.Read
import Rupi.Tools.Grep
import Rupi.Lib.Rescan
import Rupi.Core.Settled
import Rupi.Core.SettledUrl
import Rupi.Core.Idempotent
import Rupi.Store.MessageRecovery
import Rupi.Lib.Calendar
import Rupi.Import.Timestamps
import Rupi.Import.TimestampTrips
import Rupi.Replay.BlockedTools
import Rupi.Compat.Manifest
import Rupi.Compat.ManifestGrammar
import Rupi.Compat.ManifestJson
import Rupi.Lib.Paged
import Rupi.Worker.Pages
import Rupi.Provider.Mapping
import Rupi.Provider.NoProxy
import Rupi.Tui.Line
import Rupi.Tui.Transcript
import Rupi.Tui.Trace
import Rupi.Tui.EditorRuns
import Rupi.Tui.DisplayRows
import Rupi.Tui.RowMotion
import Rupi.Tui.Highlight
import Rupi.Tui.InputRows
import Rupi.Tui.InputRows
import Rupi.Lib.Grid
import Rupi.Tui.Screen
import Rupi.Tui.Screen
import Rupi.Tui.Clusters
import Rupi.Lib.Contracts
import Rupi.Lib.Labelled
import Rupi.Runtime.BuildRequest
import Rupi.Runtime.Carried
import Rupi.Runtime.Collector
import Rupi.Runtime.Failover
import Rupi.Runtime.Batch
import Rupi.Runtime.Turn
import Rupi.Runtime.Moves
import Rupi.Runtime.CallMoves
import Rupi.Runtime.WindowMoves
import Rupi.Runtime.QuietLines
import Rupi.Runtime.TurnMoves
import Rupi.Runtime.TurnRuns
import Rupi.Runtime.Conduct
import Rupi.Store.RequestLifecycles
import Rupi.Runtime.Accepted
import Rupi.Runtime.Intact
import Rupi.Runtime.Watch
