import A9GTracker.FrameExtraction
import A9GTracker.RejectedSentences
import A9GTracker.NetworkActivation
import A9GTracker.GsmActive
import A9GTracker.ChunkedLoading
import A9GTracker.ConfigInvariant
import A9GTracker.ConfigRoundTrip
import A9GTracker.ParameterIsolation
import A9GTracker.ConfigPaths
import A9GTracker.RingFifo
import A9GTracker.StreamConservation
import A9GTracker.AckCheck
import A9GTracker.Http
import A9GTracker.PositionReport
import A9GTracker.LastPosition
import A9GTracker.SmsRecognition
import A9GTracker.SaveResult
import A9GTracker.LocationReply
import A9GTracker.LoadBounds
import A9GTracker.Descriptors
import A9GTracker.KeptAlive
import A9GTracker.StoredPort
import A9GTracker.SmsConsole
import A9GTracker.CoordinateConversion
import A9GTracker.TextScan
import A9GTracker.SlotRestart
import A9GTracker.CommandChecksum
import A9GTracker.HttpsTransfer
import A9GTracker.ReportTimestamp
import A9GTracker.Agps
import A9GTracker.AckBounds
import A9GTracker.QueueWedge
import A9GTracker.FrameDelivery
import A9GTracker.CommandDispatch
import A9GTracker.StrtolRange
import A9GTracker.Ntp
import A9GTracker.QueueSearch
import A9GTracker.Watchdog
import A9GTracker.CellInfo
import A9GTracker.ApnAlternation
import A9GTracker.SmsEncodings
import A9GTracker.LsCommand
import A9GTracker.TailOutput
import A9GTracker.SentenceFields
import A9GTracker.SentenceCheck
import A9GTracker.SentenceRoundTrip
import A9GTracker.ChunkedStream
import A9GTracker.EpochStream
import A9GTracker.PrintedNumbers
import A9GTracker.CommandFormat
import A9GTracker.BinaryFrames
import A9GTracker.CommandExchange
import A9GTracker.ExchangeTimer
import A9GTracker.ExchangeReplies
import A9GTracker.PowerCycles
import A9GTracker.TornSaves
import A9GTracker.GpdDownload
import A9GTracker.GpsLog
import A9GTracker.TrackerPace
