import PcieVip.AlexShadow
import PcieVip.AxiEffects
import PcieVip.BridgeInterrupts
import PcieVip.BridgeWire
import PcieVip.ClientMemory
import PcieVip.ClientRequests
import PcieVip.CompletionReads
import PcieVip.DmaOnce
import PcieVip.DmaReply
import PcieVip.DpiStaging
import PcieVip.DriverRing
import PcieVip.DriverSafe
import PcieVip.Duplicates
import PcieVip.EndpointReset
import PcieVip.FailedWrite
import PcieVip.DemoLoop
import PcieVip.EndpointClock
import PcieVip.Joint
import PcieVip.MemTlp
import PcieVip.MmioLength
import PcieVip.MmioWindow
import PcieVip.PayloadBound
import PcieVip.Pcimem
import PcieVip.PeerClose
import PcieVip.QemuRealize
import PcieVip.ReadErrors
import PcieVip.ReadTlps
import PcieVip.RegisterStore
import PcieVip.RingWindow
import PcieVip.ServerSessions
import PcieVip.SocketOwner
import PcieVip.StagingRam
import PcieVip.TxnSpaces
import PcieVip.WireSend
import PcieVip.WriteTlps
