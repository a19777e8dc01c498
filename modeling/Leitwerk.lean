import Leitwerk.Lib.Runs
import Leitwerk.Worker.Terminal
import Leitwerk.Worker.Draining
import Leitwerk.Worker.Publication
import Leitwerk.Worker.Delivery
import Leitwerk.Worker.Consumption
import Leitwerk.Lib.Table
import Leitwerk.Engine.Definition
import Leitwerk.Engine.Builders
import Leitwerk.Engine.Mapped
import Leitwerk.Engine.Operations
import Leitwerk.Engine.Outcome
import Leitwerk.Engine.Record
import Leitwerk.Engine.Patch
import Leitwerk.Engine.Pointer
import Leitwerk.Supervisor.Capacity
import Leitwerk.Engine.Plans
import Leitwerk.Engine.Creates
import Leitwerk.Engine.Deferral
import Leitwerk.Engine.Pipeline
import Leitwerk.Engine.Settling
import Leitwerk.Engine.Commit
import Leitwerk.Engine.Steps
import Leitwerk.Engine.Decisions.Failing
import Leitwerk.Engine.Decisions.Recovering
import Leitwerk.Engine.Decisions.Starting
import Leitwerk.Engine.Decisions.Superseding
import Leitwerk.Engine.Decisions.Waiting
import Leitwerk.Engine.Decisions.Outcome
import Leitwerk.Engine.Run
import Leitwerk.Engine.Rows
import Leitwerk.Engine.Sound
import Leitwerk.Engine.Recoverable
import Leitwerk.Engine.SingleAttempt
import Leitwerk.Engine.Correlation
import Leitwerk.Engine.Settlement
import Leitwerk.Ipc.Acknowledgement
import Leitwerk.Engine.LastWriter
import Leitwerk.Engine.ModelPolicy
import Leitwerk.Engine.Preflight
import Leitwerk.Engine.Availability
import Leitwerk.Engine.StablePreparation
import Leitwerk.Engine.RecoveredModel
import Leitwerk.Lib.JsString
import Leitwerk.Protocol.Payload
import Leitwerk.Protocol.LiveTurn
import Leitwerk.Protocol.LiveTurnReplay
import Leitwerk.Protocol.LiveTurnRestore
import Leitwerk.Lib.Comparison
import Leitwerk.Lib.Lines
import Leitwerk.Protocol.EventOrder
import Leitwerk.Protocol.PreviewTail
import Leitwerk.Protocol.CompactSummary
import Leitwerk.Lib.Utf8
import Leitwerk.PiResource.Archive
import Leitwerk.PiResource.Fields
import Leitwerk.PiResource.Canonical
import Leitwerk.Ipc.ServerSocket
import Leitwerk.Ipc.WorkerSocket
import Leitwerk.Ipc.ServerCalm
import Leitwerk.Ipc.ServerDelivery
import Leitwerk.Ipc.ServerOrder
import Leitwerk.Lib.Following
import Leitwerk.SessionTransfer.Confinement
import Leitwerk.Lib.Effects
import Leitwerk.SessionTransfer.FileSystem
import Leitwerk.SessionTransfer.Extraction
import Leitwerk.SessionTransfer.Containment
import Leitwerk.Lib.Forwarding
import Leitwerk.Settings.Repo
import Leitwerk.Settings.Service
import Leitwerk.Settings.Sound
import Leitwerk.Settings.Merge
import Leitwerk.Settings.Discover
import Leitwerk.Settings.Discovered
import Leitwerk.EntryRefs.Patch
import Leitwerk.EntryRefs.Survival
import Leitwerk.ProcessSdk.Compile
import Leitwerk.ProcessSdk.Requests
import Leitwerk.ProcessSdk.Routing
import Leitwerk.Engine.Decisions.Moving
import Leitwerk.External.Fire
import Leitwerk.External.Movement
import Leitwerk.External.Graph
import Leitwerk.Lib.Precedence
import Leitwerk.Policy.Evaluate
import Leitwerk.Policy.Precedence
import Leitwerk.Policy.Launch
import Leitwerk.Policy.Prepared
import Leitwerk.Transfer.Attempts
import Leitwerk.Transfer.Service
import Leitwerk.Transfer.Quiet
import Leitwerk.Transfer.Books
import Leitwerk.Transfer.Chains
import Leitwerk.Transfer.Working
import Leitwerk.Transfer.Reconcile
import Leitwerk.Transfer.LifeCycle
import Leitwerk.External.Generation
import Leitwerk.ProcessSdk.TurnStart
import Leitwerk.Lib.Climbing
import Leitwerk.Protocol.Continuation
import Leitwerk.Worker.Credentials
import Leitwerk.Lib.Replacing
import Leitwerk.Worker.Secrets
import Leitwerk.Coding.Lock
import Leitwerk.Lib.Serial
import Leitwerk.ExternalWrites.AtMostOnce
import Leitwerk.ProcessSdk.OutcomeConformance
import Leitwerk.ProcessSdk.OutcomeParameters
import Leitwerk.Ui.ReasoningHistory
import Leitwerk.Ui.HistoryRuns
import Leitwerk.Ui.PrimaryPath
import Leitwerk.Ui.PrimaryPathReplay
import Leitwerk.Ui.Convergence
import Leitwerk.Lib.Search
import Leitwerk.WorkflowGraph.Flow
import Leitwerk.WorkflowGraph.Route
import Leitwerk.WorkflowGraph.Clearance
import Leitwerk.WorkflowGraph.Routing
import Leitwerk.WorkflowGraph.Layout
import Leitwerk.WorkflowGraph.Corridors
import Leitwerk.WorkflowGraph.Placement
import Leitwerk.WorkflowGraph.Positions
import Leitwerk.WorkflowGraph.Drawing
import Leitwerk.WorkflowGraph.Shortest
import Leitwerk.Lib.Nesting
import Leitwerk.Protocol.UsageSnapshot
import Leitwerk.Worker.ReplayingRequests
import Leitwerk.Lib.JsonText
import Leitwerk.Supervisor.StartupEvidence
import Leitwerk.Lib.OwnKeys
import Leitwerk.PiResource.CanonicalJson
import Leitwerk.PiResource.CanonicalEquality
import Leitwerk.SessionTransfer.SessionFile
import Leitwerk.SessionTransfer.Rewriting
import Leitwerk.Lib.Growing
import Leitwerk.Protocol.SessionTree
import Leitwerk.Lib.BreadthFirst
import Leitwerk.ProcessSdk.FlowView
import Leitwerk.WorkflowGraph.Successful
import Leitwerk.ProcessSdk.Spine
import Leitwerk.External.PendingFires
import Leitwerk.External.MergedFires
import Leitwerk.TurnTrace.Building
import Leitwerk.TurnTrace.Collecting
import Leitwerk.TurnTrace.Committed
import Leitwerk.DependencyOrder
import Leitwerk.Lib.Evicting
import Leitwerk.Lib.Keyed
import Leitwerk.PiResource.BundleCache
import Leitwerk.PiResource.BundleCacheRuns
import Leitwerk.Engine.Sources
import Leitwerk.Engine.Origins
import Leitwerk.Engine.Lineage
import Leitwerk.Engine.Interleaved
import Leitwerk.ToolApproval.Approved
import Leitwerk.ToolApproval.Waiting
