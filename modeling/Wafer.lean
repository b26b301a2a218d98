import Wafer.Lib.Execution
import Wafer.Queue.Envelope
import Wafer.Node.Metrics
import Wafer.Node.Wasm
import Wafer.Runner.ErrorPolicy
import Wafer.Runner.Progress
import Wafer.Runner.Accounting
import Wafer.Runner.HashRegistry
import Wafer.Orchestrator.RouterPorts
import Wafer.Runner.SwapBarrier
import Wafer.Api.ReconfigureGuard
import Wafer.Orchestrator.RetryBudget
import Wafer.Runner.QueueCounters
import Wafer.Api.SwapGuard
import Wafer.Runner.SinkBatches
import Wafer.Node.Limits
import Wafer.Dag.Graph
import Wafer.Runner.PolicyUse
import Wafer.Orchestrator.DeadLetters
import Wafer.Plugins.ThresholdFilter
import Wafer.Eval.IntervalAgreement
import Wafer.Runner.SinkDrain
import Wafer.Node.MqttSink
import Wafer.Runner.HttpSource
import Wafer.Runner.FanOut
import Wafer.Lib.Runs
import Wafer.Types.Sequence
import Wafer.Runner.RetrySchedule
import Wafer.Loadgen.Reconciliation
import Wafer.Node.BenchIntervals
import Wafer.Queue.SerializableEnvelope
import Wafer.Registry.Reference
import Wafer.Lib.FileSystem
import Wafer.Registry.Cache
import Wafer.Node.SwapTimeline
import Wafer.Engine.Http
import Wafer.Loadgen.EventBuckets
import Wafer.Node.BurstEvidence
import Wafer.Node.BenchSource
import Wafer.Lib.JsonObject
import Wafer.Plugins.NumericMember
import Wafer.Plugins.ContentRouter
import Wafer.Lib.WeightedMean
import Wafer.Lib.FixedPoint
import Wafer.Loadgen.Scheduler
import Wafer.Plugins.AnomalyDetector
import Wafer.Plugins.VibrationFeatures
import Wafer.Plugins.ResultFormat
import Wafer.Lib.BigEndian
import Wafer.Plugins.CayenneDecoder
import Wafer.Plugins.CayenneRecords
import Wafer.Lib.Scan
import Wafer.Lib.JsonTokens
import Wafer.Lib.JsonSyntax
import Wafer.Lib.JsonLayout
import Wafer.Plugins.JsonParse
import Wafer.Orchestrator.TaskSteps
import Wafer.Orchestrator.Progress
import Wafer.Orchestrator.EdgeOrder
import Wafer.Runner.Work
import Wafer.Orchestrator.Work
import Wafer.Loadgen.Publisher
import Wafer.Loadgen.PublishSchedule
import Wafer.Loadgen.PublishEnd
import Wafer.Engine.Cache
import Wafer.Lib.Lines
import Wafer.Node.FileLines
import Wafer.Loadgen.Subscriber
import Wafer.Loadgen.SubscriberRuns
import Wafer.Lib.CrashDisk
import Wafer.Artifacts.WriteAtomic
import Wafer.Artifacts.Exports
