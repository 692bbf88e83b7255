import Abtrda3.Semantics.Machine
import Abtrda3.Semantics.WrappingCounter
import Abtrda3.Semantics.BoundedQueue
import Abtrda3.Application
import Abtrda3.Client
import Abtrda3.HistThread
import Abtrda3.RecorderStream
import Abtrda3.RecorderShutdown
import Abtrda3.Afxdp
import Abtrda3.AfxdpTransmit
import Abtrda3.AfxdpReceive
import Abtrda3.Semantics.ByteMemory
import Abtrda3.VerbsReceive
import Abtrda3.EfVi
import Abtrda3.EfViTransmit
import Abtrda3.EfViReceive
import Abtrda3.HardwareSamples
import Abtrda3.TxGenerator
import Abtrda3.EfViAccount
import Abtrda3.EfViCallers
import Abtrda3.Semantics.BitField
import Abtrda3.I210
import Abtrda3.I210Transmit
import Abtrda3.I210Receive
import Abtrda3.VerbsSend
import Abtrda3.LossAccounting
import Abtrda3.SampleConservation
import Abtrda3.PingPong
import Abtrda3.Semantics.StatusRing
import Abtrda3.Semantics.SlotLayout
import Abtrda3.Dpdk
import Abtrda3.DpdkReceive
import Abtrda3.DpdkMove
import Abtrda3.DpdkReuse
import Abtrda3.DpdkTemplate
import Abtrda3.DpdkEal
import Abtrda3.StreamEnd
import Abtrda3.PacketMmap
import Abtrda3.EfViCtpio
import Abtrda3.TxSlots
import Abtrda3.RoundAccounting
import Abtrda3.HardwareTime
import Abtrda3.Semantics.Loop
import Abtrda3.Netlink
import Abtrda3.NapiRoundTrip
import Abtrda3.Aspm
import Abtrda3.TxThread
import Abtrda3.OneWayFrame
import Abtrda3.RxSink
import Abtrda3.FrameAccess
import Abtrda3.I40eItr
import Abtrda3.Semantics.Text
import Abtrda3.PciName
import Abtrda3.NicIrqs
import Abtrda3.MacText
import Abtrda3.EfViFrameComplete
import Abtrda3.Semantics.Ownership
import Abtrda3.SocketOwnership
import Abtrda3.AfxdpOutstanding
import Abtrda3.Semantics.Lifetime
import Abtrda3.VerbsLifecycle
import Abtrda3.EfViLifecycle
import Abtrda3.AfxdpLifecycle
import Abtrda3.OneWayBench
import Abtrda3.BenchShutdown
import Abtrda3.Semantics.Interaction
import Abtrda3.I210Init
import Abtrda3.I210Order
import Abtrda3.I210BringUp
import Abtrda3.I210Session
import Abtrda3.DispatchOrder
import Abtrda3.IrqPlacement
