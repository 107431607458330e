import Ironpulse.Lib.StepMachine
import Ironpulse.Lib.ByteCodec
import Ironpulse.Lib.ReflectedCrc
import Ironpulse.Lib.RingIndex
import Ironpulse.Lib.BoundedFifo
import Ironpulse.Asio
import Ironpulse.Core.Chrono
import Ironpulse.Core.Json
import Ironpulse.Core.JsonText
import Ironpulse.Core.Config
import Ironpulse.Core.ConfigRanges
import Ironpulse.Core.ConfigValid
import Ironpulse.Lib.Delimiter
import Ironpulse.Lib.Template
import Ironpulse.Core.ExpandEnv
import Ironpulse.Lib.Radix64
import Ironpulse.Core.Base64
import Ironpulse.Lib.OrderedMap
import Ironpulse.Lib.Exposition
import Ironpulse.Core.Metrics
import Ironpulse.Storage.Files
import Ironpulse.Storage.Wal
import Ironpulse.Storage.WalRecovery
import Ironpulse.Storage.FlushFailure
import Ironpulse.Storage.Pruning
import Ironpulse.Storage.Retention
import Ironpulse.Storage.PruneFailure
import Ironpulse.Storage.SensorLog
import Ironpulse.Storage.RingBuffer
import Ironpulse.Storage.SeriesStore
import Ironpulse.Storage.WriteThrough
import Ironpulse.Engine
import Ironpulse.Lib.EdgeTrigger
import Ironpulse.Lib.ClippedSum
import Ironpulse.Lib.WeightedStats
import Ironpulse.Analytics.RuleEngine
import Ironpulse.Analytics.SustainedBreach
import Ironpulse.Analytics.SensorReference
import Ironpulse.Analytics.Detectors
import Ironpulse.Analytics.Cusum
import Ironpulse.Analytics.ExactArithmetic
import Ironpulse.Analytics.Ewma
import Ironpulse.Analytics.ZScore
import Ironpulse.Analytics.Sensitivity
import Ironpulse.Lib.DropOldest
import Ironpulse.Notify.Messages
import Ironpulse.Notify.Notifier
import Ironpulse.Notify.Announcements
import Ironpulse.Notify.Url
import Ironpulse.Protocol.FrameCodec
import Ironpulse.Protocol.FrameGrammar
import Ironpulse.Protocol.FrameAccess
import Ironpulse.Protocol.ModbusClient
import Ironpulse.Protocol.Deadline
import Ironpulse.Protocol.Endings
import Ironpulse.Protocol.Replies
import Ironpulse.Protocol.Callbacks
import Ironpulse.Protocol.RegisterDecoder
import Ironpulse.Lib.SpanCover
import Ironpulse.Protocol.ReadPlan
import Ironpulse.Protocol.PlanOptimal
import Ironpulse.Protocol.DevicePoller
import Ironpulse.Protocol.PollCycles
import Ironpulse.Lib.FixedRate
import Ironpulse.Protocol.PollTiming
import Ironpulse.Lib.WebSocketFrame
import Ironpulse.Api.WsConnection
import Ironpulse.Api.WsOutbox
import Ironpulse.Api.FrameEncoding
import Ironpulse.Api.WsReadLoop
import Ironpulse.Api.WsSession
import Ironpulse.Api.WsFrames
import Ironpulse.Api.WsStream
import Ironpulse.Api.QueryParam
import Ironpulse.Ingest.RingBuffer
import Ironpulse.Ingest.RingFifo
import Ironpulse.Ingest.Serializer
import Ironpulse.Ingest.Crc32c
import Ironpulse.Ingest.BatchDecoding
import Ironpulse.Ingest.BurstErrors
import Ironpulse.Ingest.Ingestor
import Ironpulse.Ingest.Conservation
import Ironpulse.Ingest.Shutdown
import Ironpulse.Ingest.BatchOverflow
import Ironpulse.Ingest.SegmentName
import Ironpulse.Lib.FixedWidth
import Ironpulse.Ingest.Calendar
import Ironpulse.Ingest.SegmentOrder
import Ironpulse.Ingest.Segment
import Ironpulse.Ingest.SegmentReader
import Ironpulse.Ingest.SegmentRoundTrip
import Ironpulse.Ingest.DamagedBatch
import Ironpulse.Ingest.DamagedHeader
import Ironpulse.Ingest.SegmentDirectory
import Ironpulse.Ingest.SegmentLimit
import Ironpulse.Ingest.SegmentWriting
import Ironpulse.Ingest.SegmentRotation
import Ironpulse.Ingest.SegmentCut
import Ironpulse.Ingest.SegmentCrash
import Ironpulse.Ingest.ReadingExporter
import Ironpulse.Ingest.ExporterInvariant
import Ironpulse.Ingest.ExportOnce
import Ironpulse.Ingest.DiskBudget
import Ironpulse.Ingest.OldestFirst
import Ironpulse.Lib.Csv
import Ironpulse.Ingest.ExportTool
import Ironpulse.Tools.ExportReader
import Ironpulse.AcceptedConfig
