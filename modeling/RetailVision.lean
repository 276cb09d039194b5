import RetailVision.Lib.Run
import RetailVision.Lib.Bins
import RetailVision.Lib.Lines
import RetailVision.Lib.Checked
import RetailVision.Lib.Stride
import RetailVision.Lib.Mailbox
import RetailVision.Lib.BoundedQueue
import RetailVision.Lib.StableSort
import RetailVision.Json
import RetailVision.Nlohmann
import RetailVision.Supervisor
import RetailVision.SupervisorFacts
import RetailVision.SupervisorIds
import RetailVision.SupervisorLedger
import RetailVision.SupervisorStreams
import RetailVision.AddCommand
import RetailVision.ShardLifecycle
import RetailVision.ShardOneRuntime
import RetailVision.ShardSupervision
import RetailVision.ShardProtocol
import RetailVision.ShardAgreement
import RetailVision.NativeRuntime
import RetailVision.NativeRemove
import RetailVision.NativeExclusive
import RetailVision.NativeRemoveFinal
import RetailVision.PoolFairness
import RetailVision.ControlSocket
import RetailVision.ControlReplies
import RetailVision.Analyzers
import RetailVision.AnalyzerConfigure
import RetailVision.Config
import RetailVision.ConfigReload
import RetailVision.ConfigStreams
import RetailVision.ControlPlane
import RetailVision.PersistedStreams
import RetailVision.ShardPlacement
import RetailVision.ShardStreams
import RetailVision.ShardStartup
import RetailVision.HookThread
import RetailVision.HookStages
import RetailVision.HookLifecycle
import RetailVision.HookUntold
import RetailVision.ShardDiscard
import RetailVision.MqttLite
import RetailVision.MqttFraming
import RetailVision.MqttRequeue
import RetailVision.MqttAccount
import RetailVision.PersonTracker
import RetailVision.TrackerAgreement
import RetailVision.TrackerCounts
import RetailVision.NativeAnalyzers
import RetailVision.NativeControls
import RetailVision.ControlScores
import RetailVision.ControlConfigures
import RetailVision.ControlKeypoints
import RetailVision.AnalyzerReplay
import RetailVision.Lib.LastOf
import RetailVision.Lib.Words
import RetailVision.Lib.Framing
import RetailVision.Lib.Lru
import RetailVision.Wire
import RetailVision.WireFrames
import RetailVision.WireTensors
import RetailVision.RuntimeReader
import RetailVision.Writer
import RetailVision.WriterDelivery
import RetailVision.Standalone
import RetailVision.VbTypes
import RetailVision.VbTracker
import RetailVision.VbTrackerIds
import RetailVision.PublishWorker
import RetailVision.ControlHandle
import RetailVision.Lib.Machines
import RetailVision.VbAnalyzer
import RetailVision.LineCross
import RetailVision.LineCrossOnce
import RetailVision.LineCrossChains
import RetailVision.ZoneAnalyzer
import RetailVision.ZoneStays
import RetailVision.Nms
import RetailVision.NativeHealth
import RetailVision.NativeHealthRuns
import RetailVision.MqttPackets
import RetailVision.MqttClient
import RetailVision.MqttSessions
import RetailVision.MqttSlots
import RetailVision.TrackStories
import RetailVision.Lib.Passages
import RetailVision.DwellStates
import RetailVision.EngagementTimes
import RetailVision.EntryLine
import RetailVision.EntryLineReturn
import RetailVision.Debounce
import RetailVision.MotionUtil
import RetailVision.DirectionAnalyzer
import RetailVision.Lib.Turns
import RetailVision.AngularDistance
import RetailVision.DwellAnalyzer
import RetailVision.DwellStays
import RetailVision.CountThreshold
import RetailVision.CountThresholdRuns
import RetailVision.Lib.Median
import RetailVision.Lib.Window
import RetailVision.ZoneMetrics
import RetailVision.ZoneMetricsRuns
import RetailVision.VisionPayload
import RetailVision.Lib.Every
import RetailVision.FrameJson
import RetailVision.FrameEvery
import RetailVision.PublishCycle
import RetailVision.Nms
import RetailVision.YoloPose
import RetailVision.YoloDfl
import RetailVision.FrameRecord
import RetailVision.Letterbox
import RetailVision.RedactUrl
import RetailVision.StreamSpecs
import RetailVision.SendOps
import RetailVision.EmbedResults
import RetailVision.Snapshot
import RetailVision.HostLink
import RetailVision.Lib.Volume
import RetailVision.AtomicWrite
import RetailVision.Reboots
import RetailVision.Judged
import RetailVision.SpeedAnalyzer
import RetailVision.PoseAngleAnalyzer
import RetailVision.Lib.LastWill
import RetailVision.StatusWill
import RetailVision.Lib.MerkleDamgard
import RetailVision.Sha256
import RetailVision.ControlLink
import RetailVision.Lib.RoundRobin
import RetailVision.FrameBatcher
import RetailVision.CaptureThread
import RetailVision.FallbackVideo
import RetailVision.CommandQueue
import RetailVision.PersonDetector
import RetailVision.Lib.Best
import RetailVision.Classify
import RetailVision.HookBudget
import RetailVision.Lib.Interpolate
import RetailVision.StreamMetrics
import RetailVision.RknnCanvas
