import FossilCore.Domain.LifecycleRefinement
import FossilCore.Adapters.S3EventStore
import FossilCore.Adapters.ArtifactStore
import FossilCore.Adapters.S3ArtifactStore
import FossilCore.Adapters.Agreement
import FossilCore.Adapters.EventStoreCrashes
import FossilCore.Adapters.S3EventStoreCrashes
import FossilCore.Adapters.RedactionCompleteness
import FossilCore.Application.TemporalRebuild
import FossilCore.Adapters.ReplayedStore
import FossilCore.Domain.EndpointSoundness
import FossilCore.Adapters.OperationIds
import FossilCore.Application.Agent
import FossilCore.Application.AgentAuthority
import FossilCore.Adapters.ArtifactStoreCrashes
import FossilCore.Adapters.S3ArtifactStoreCrashes
import FossilCore.Application.AgentIsolation
import FossilCore.Base.Interleave
import FossilCore.Adapters.S3Interleavings
import FossilCore.Projection.Graphiti
import FossilCore.Projection.RebuildOrder
import FossilCore.Projection.RedactionSoundness
import FossilCore.Runtime.IncrementalRebuild
import FossilCore.Projection.SwitchLedger
import FossilCore.Base.Checks
import FossilCore.Base.DepthFirst
import FossilCore.Domain.PackSet
import FossilCore.Application.PackValidation
import FossilCore.Application.ContextBoundary
import FossilCore.Adapters.Acceptance
import FossilCore.Base.Collect
import FossilCore.Base.Forest
import FossilCore.Base.ObjectSchema
import FossilCore.Conversation.Committed
import FossilCore.Conversation.IngestedEvent
import FossilCore.Conversation.Lineage
import FossilCore.Pack.Audited
import FossilCore.Pack.Corpus
import FossilCore.Pack.Redaction
import FossilCore.Adapters.Publication
import FossilCore.Source.Citation
import FossilCore.Base.Lines
import FossilCore.Base.Transcript
import FossilCore.Domain.LifecycleAtomicity
import FossilCore.Source.Audit
import FossilCore.Source.Exports
import FossilCore.TrustedLocal.Comments
import FossilCore.TrustedLocal.ReleaseGate
import FossilCore.TrustedLocal.ReleaseRollback
import FossilCore.TrustedLocal.ReleasePass
import FossilCore.Base.Latest
import FossilCore.Base.Patterns
import FossilCore.TrustedLocal.Directives
import FossilCore.TrustedLocal.TaskQueue
import FossilCore.TrustedLocal.ClaimLedger
import FossilCore.TrustedLocal.ClaimStability
import FossilCore.TrustedLocal.Closeout
import FossilCore.Adapters.EventLookup
import FossilCore.Application.ReviewedGrounding
import FossilCore.Domain.Supersession
import FossilCore.Application.LineageBounds
import FossilCore.Projection.Comparison
import FossilCore.Retrieval.LifecycleIntent
import FossilCore.Application.ExecutionReceipt
import FossilCore.Application.ReceiptConformance
import FossilCore.Base.FirstFailure
import FossilCore.Domain.LifecycleFailures
import FossilCore.Pack.AuditFailures
import FossilCore.Domain.Provenance
import FossilCore.Retrieval.ContextBudget
import FossilCore.Retrieval.RankFusion
import FossilCore.Base.ParentChain
import FossilCore.Conversation.CaptureBinding
import FossilCore.Conversation.MarkerOrder
import FossilCore.Conversation.LineagePath
import FossilCore.Architecture.ImportCycles
