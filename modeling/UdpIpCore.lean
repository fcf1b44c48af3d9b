import UdpIpCore.Clocked
import UdpIpCore.Framing
import UdpIpCore.Interaction
import UdpIpCore.Interference
import UdpIpCore.Threads
import UdpIpCore.PortTable
import UdpIpCore.Rtl.Interrupts
import UdpIpCore.Rtl.AxiDmaWrRun
import UdpIpCore.Rtl.CircularBufferRegs
import UdpIpCore.Rtl.ConfigRegsMap
import UdpIpCore.Rx.PortIsolation
import UdpIpCore.Rx.PushAttribution
import UdpIpCore.Rx.SlotLength
import UdpIpCore.Rx.SlotAllocation
import UdpIpCore.Rx.RingRoom
import UdpIpCore.Tx.PayloadFrame
import UdpIpCore.Kernel.Lifecycle
import UdpIpCore.Kernel.ControlWord
import UdpIpCore.Kernel.WakeUp
import UdpIpCore.Kernel.SettingOrder
import UdpIpCore.Userspace.RxConsumer
import UdpIpCore.Userspace.TxSender
import UdpIpCore.Userspace.IrqReader
import UdpIpCore.Userspace.SocketMirror
import UdpIpCore.Userspace.PortOwnership
import UdpIpCore.Userspace.EpollRun
import UdpIpCore.Userspace.Select
import UdpIpCore.Userspace.FailingCalls
import UdpIpCore.Userspace.DescriptorRun
import UdpIpCore.Userspace.SharedCalls
import UdpIpCore.Reset.ConfigLatch
import UdpIpCore.Reset.InForce
import UdpIpCore.Reset.CleanDevice
import UdpIpCore.Reset.BusyFlags
import UdpIpCore.Reset.CutTransfers
import UdpIpCore.Kernel.DevlinkRange
import UdpIpCore.Memory.LateWrites
import UdpIpCore.Memory.AddressMap
import UdpIpCore.Memory.CacheOwnership
import UdpIpCore.Memory.SlotBursts
import UdpIpCore.Memory.FreedArea
import UdpIpCore.Tx.ReadPath
import UdpIpCore.Tx.AdapterChain
import UdpIpCore.Tx.TxPipeline
import UdpIpCore.Tx.PipelineProgress
import UdpIpCore.Datagram
import UdpIpCore.EndToEnd
import UdpIpCore.Ledger
import UdpIpCore.Progress
import UdpIpCore.ShiftRegister
import UdpIpCore.Simulation
import UdpIpCore.Userspace.LayerTable
import UdpIpCore.Rtl.MdioMaster
import UdpIpCore.Rtl.PhyReset
import UdpIpCore.Rtl.AxiDmaRdProgress
import UdpIpCore.Rtl.AxiDmaRdRefinement
import UdpIpCore.Kernel.PktDecompose
import UdpIpCore.Kernel.StartXmit
import UdpIpCore.Kernel.NapiTermination
import UdpIpCore.Kernel.GatewayStrings
import UdpIpCore.Kernel.AddressNotifier
import UdpIpCore.Kernel.ProbeRemove
