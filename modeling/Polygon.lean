import Polygon.Lib.Ranges
import Polygon.Lib.Runs
import Polygon.Lib.BigEndian
import Polygon.Lib.Checked
import Polygon.Frame
import Polygon.Conv
import Polygon.Gaptr
import Polygon.Rob
import Polygon.RobInvariant
import Polygon.Pq
import Polygon.Acktr
import Polygon.Rtb
import Polygon.RtbInvariant
import Polygon.Conn
import Polygon.ConnRecv
import Polygon.Ppe
import Polygon.ConnRetransmit
import Polygon.ConnWrite
import Polygon.ConnApi
import Polygon.PktHeader
import Polygon.FrameCodec
import Polygon.ConnRecvPkt
import Polygon.VersionNegotiation
import Polygon.FrameRoundTrip
import Polygon.PacketFrames
import Polygon.RetransmitSpec
import Polygon.WriteSpec
import Polygon.FrameAccounting
import Polygon.StreamRecv
import Polygon.StreamStep
import Polygon.StreamDelivery
import Polygon.StreamReset
import Polygon.Changes
import Polygon.RecvChanges
import Polygon.OpChanges
import Polygon.WriteChanges
import Polygon.StepChanges
import Polygon.PacketSteps
import Polygon.Unauthenticated
import Polygon.StreamsOnce
import Polygon.StreamEffects
import Polygon.RepeatedFrames
import Polygon.ResetQueue
import Polygon.StopSendingOrder
import Polygon.TransportParams
import Polygon.TransportParamsGrammar
import Polygon.TransportParamsRoundTrip
import Polygon.SettingsExchange
import Polygon.StreamCreditRuns
import Polygon.FrameReads
import Polygon.StreamAccepted
import Polygon.PacketAssembly
import Polygon.Draining
import Polygon.SendLimits
import Polygon.Dispatcher
import Polygon.AckOfAck
import Polygon.AckRoom
import Polygon.Lib.Intrusive
import Polygon.PqOrder
import Polygon.PqIndex
import Polygon.RtbPointers
import Polygon.RetransmitClock
import Polygon.FcStrms
import Polygon.Stream0
import Polygon.Stream0Order
import Polygon.Stream0Credit
import Polygon.StoppedStream
import Polygon.Lib.FirstFew
import Polygon.Lib.Tally
import Polygon.FailedMeasurements
import Polygon.ServerLocations
import Polygon.SharedConfig
import Polygon.RtbAcks
import Polygon.AckRanges
import Polygon.Handler
import Polygon.SendBuffer
import Polygon.SendQueue
import Polygon.ConnTables
import Polygon.StreamHoldings
import Polygon.FinOrder
import Polygon.ReceivedOffsets
import Polygon.CloseCodes
import Polygon.FrameTypes
import Polygon.StreamOverhead
import Polygon.StdLocation
import Polygon.AckedOffsets
import Polygon.AckSubtractions
import Polygon.AcktrPointers
import Polygon.Lib.LongestWithin
import Polygon.RetransmitCancel
import Polygon.UniqueNames
import Polygon.VarintFormat
import Polygon.Ringbuf
import Polygon.Lib.ApartRanges
import Polygon.StreamIds
import Polygon.PqRuns
import Polygon.Lib.Buckets
import Polygon.Map
import Polygon.MapRuns
import Polygon.RobWords
import Polygon.RobRuns
import Polygon.Endpoints
import Polygon.PacketNumbers
import Polygon.Lib.Network
import Polygon.StreamChanges
import Polygon.StreamArrivals
import Polygon.StreamSource
import Polygon.StreamIntegrity
import Polygon.SentFrames
import Polygon.CreditLimits
import Polygon.CreditAgreement
import Polygon.EmittedPackets
import Polygon.SentAcks
import Polygon.AckedPackets
import Polygon.PacketExchange
import Polygon.ClosedStreams
