import UdpIpCore.Interaction
import UdpIpCore.Rtl.ConfigRegs

/-!
# The kernel driver

The entry points of the network driver that write device registers, as programs over
single register accesses: opening and stopping the interface, the devlink parameters,
the MAC address and the IPv4 address notifier. What the kernel answers (an allocation, a
parsed address, the status bits of a read) is left open.
-/

namespace UdpIpCore

namespace Kernel

open Interaction

/-- The user-modifiable fields of `udp_core_drv_data`. -/
structure DriverParams where
  portLow : BitVec 16
  portHigh : BitVec 16
  /-- `open_ports.port_opened`, an array of `MAX_UDP_PORTS` entries. -/
  portOpened : List (BitVec 16)
  /-- `open_ports.port_opened_num`. -/
  portOpenedNum : ℕ
  gwIp : List Char
  gwMac : List Char

namespace DriverParams

/-- The values set by `udp_core_devlink_init`. -/
def initial : DriverParams where
  portLow := 7400
  portHigh := 7500
  portOpened := [0, 1, 10, 11] ++ List.replicate (maxUdpPorts - 4) 0
  portOpenedNum := 4
  gwIp := "192.168.1.2".toList
  gwMac := "02:00:00:00:00:01".toList

/-- The sockets the driver opens. -/
def listed (p : DriverParams) : List (BitVec 16) := p.portOpened.take p.portOpenedNum

/-- The loop of `udp_core_devlink_parse_open_sockets` from token `i` on: the array as far as it was
written, and the number of tokens unless one was rejected. -/
def parseTokens (kstrtoul : List Char → Option ℕ) :
    List (List Char) → ℕ → List (BitVec 16) → List (BitVec 16) × Option ℕ
  | [], i, portOpened => (portOpened, some i)
  | tok :: rest, i, portOpened =>
    if i < maxUdpPorts then
      match kstrtoul tok with
      | none => (portOpened, none)
      | some port =>
        if 65535 < port then (portOpened, none)
        else parseTokens kstrtoul rest (i + 1) (portOpened.set i (BitVec.ofNat 16 port))
    else (portOpened, some i)

/-- `udp_core_devlink_parse_open_sockets`; a rejected token keeps the number of ports. -/
def parseOpenSockets (kstrtoul : List Char → Option ℕ) (p : DriverParams) (str : List Char) :
    DriverParams :=
  let parsed := parseTokens kstrtoul (str.splitOn ',') 0 p.portOpened
  { p with portOpened := parsed.1, portOpenedNum := parsed.2.getD p.portOpenedNum }

end DriverParams

/-- The single steps a driver function is made of. -/
inductive Cmd
  /-- `udp_core_devmem_read_register`. -/
  | readRegister (reg : RegAddr)
  /-- `udp_core_devmem_write_register`. -/
  | writeRegister (reg : RegAddr) (value : BitVec 32)
  /-- `udp_core_netdev_alloc_memory`, which keeps the physical address in the driver data. -/
  | allocMemory
  /-- `udp_core_netdev_free_memory`. -/
  | freeMemory
  /-- Read the driver data. -/
  | params
  /-- Write the driver data. -/
  | setParams (p : DriverParams)
  /-- `in4_pton` into a variable that keeps an arbitrary value if the text is not an address. -/
  | in4Pton (gwIp : List Char)
  /-- The kernel marks the interface open or closed. -/
  | setRunning (running : Bool)

/-- What a step returns. -/
abbrev Cmd.Response : Cmd → Type
  | readRegister _ => BitVec 32
  | writeRegister _ _ => Unit
  | allocMemory => Option (BitVec 32)
  | freeMemory => Unit
  | params => DriverParams
  | setParams _ => Unit
  | in4Pton _ => BitVec 32
  | setRunning _ => Unit

/-- A driver function. -/
abbrev Code := Program Cmd Cmd.Response

/-- `-ENOMEM`. -/
def enomem : Int := -12

/-- `-EINVAL`. -/
def einval : Int := -22

/-- `-EADDRNOTAVAIL`. -/
def eaddrnotavail : Int := -99

/-- A register read. -/
def readRegister (reg : RegAddr) : Code (BitVec 32) :=
  Program.command (Cmd.readRegister reg)

/-- A register write. -/
def writeRegister (reg : RegAddr) (value : BitVec 32) : Code Unit :=
  Program.command (Cmd.writeRegister reg value)

/-- `1 << BUFFER_OPENSOCK_OFFSET`. -/
def opensockMask : BitVec 32 := 1 <<< bufferOpensockOffset

/-- `1 << BUFFER_POPPED_OFFSET`. -/
def poppedMask : BitVec 32 := 1 <<< bufferPoppedOffset

/-- `udp_core_netdev_clear_socket`. -/
def clearSocket (bufferId : ℕ) : Code Unit := do
  let value ← readRegister (ConfigRegs.bufferRxCtrl bufferId)
  writeRegister (ConfigRegs.bufferRxCtrl bufferId) (value &&& ~~~opensockMask)

/-- `udp_core_netdev_open_socket`. -/
def openSocket (bufferId : ℕ) : Code Unit := do
  let value ← readRegister (ConfigRegs.bufferRxCtrl bufferId)
  writeRegister (ConfigRegs.bufferRxCtrl bufferId) (value ||| opensockMask)
  let _ ← readRegister (ConfigRegs.bufferRxCtrl bufferId)

/-- `udp_core_netdev_notify_pop_rx`. -/
def notifyPopRx (bufferId : ℕ) : Code Unit := do
  let value ← readRegister (ConfigRegs.bufferRxCtrl bufferId)
  writeRegister (ConfigRegs.bufferRxCtrl bufferId) (value &&& ~~~poppedMask)
  writeRegister (ConfigRegs.bufferRxCtrl bufferId) (value ||| poppedMask)
  writeRegister (ConfigRegs.bufferRxCtrl bufferId) (value &&& ~~~poppedMask)

/-- Empty and close one RX buffer. -/
def emptyBuffer (bufferRxIndex : ℕ) : Code Unit := do
  notifyPopRx bufferRxIndex
  clearSocket bufferRxIndex

/-- The loop that empties and closes every RX buffer. -/
def emptyBuffers : Code Unit := Program.forEach (List.range maxUdpPorts) emptyBuffer

/-- The loop that closes every socket. -/
def clearSockets : Code Unit := Program.forEach (List.range maxUdpPorts) clearSocket

/-- The loop that opens the listed sockets. -/
def openSockets (ids : List (BitVec 16)) : Code Unit := Program.forEach ids fun id => openSocket id.toNat

/-- `udp_core_ndo_open`. -/
def ndoOpen : Code Int := do
  writeRegister RegAddr.res 1
  match ← Program.command Cmd.allocMemory with
  | none => return enomem
  | some physDmaArea =>
    let p ← Program.command Cmd.params
    writeRegister RegAddr.shmem physDmaArea
    writeRegister RegAddr.udpRangeL (p.portLow.setWidth 32)
    writeRegister RegAddr.udpRangeH (p.portHigh.setWidth 32)
    emptyBuffers
    openSockets p.listed
    writeRegister RegAddr.buftxPushed 0
    writeRegister RegAddr.ier0 1
    writeRegister RegAddr.gie 1
    writeRegister RegAddr.res 0
    return 0

/-- `udp_core_ndo_stop`. -/
def ndoStop : Code Int := do
  writeRegister RegAddr.res 1
  Program.command Cmd.freeMemory
  writeRegister RegAddr.shmem 0
  emptyBuffers
  writeRegister RegAddr.buftxPushed 0
  writeRegister RegAddr.ier0 0
  writeRegister RegAddr.gie 0
  writeRegister RegAddr.res 0
  return 0

/-- `udp_core_ndo_set_mac_address`; a multicast or zero address is refused. -/
def ndoSetMacAddress (mac : BitVec 48) : Code Int := do
  if mac.getLsbD 40 || mac == 0 then return eaddrnotavail
  writeRegister RegAddr.mac0 (mac.setWidth 32)
  writeRegister RegAddr.mac1 ((mac.extractLsb' 32 16).setWidth 32)
  return 0

/-- `udp_core_netdev_notify_change`. -/
def notifyChange : Code Unit := do
  writeRegister RegAddr.res 1
  clearSockets
  let p ← Program.command Cmd.params
  openSockets p.listed
  writeRegister RegAddr.udpRangeL (p.portLow.setWidth 32)
  writeRegister RegAddr.udpRangeH (p.portHigh.setWidth 32)
  let gw4 ← Program.command (Cmd.in4Pton p.gwIp)
  writeRegister RegAddr.gw gw4
  writeRegister RegAddr.res 0

/-- The devlink parameters of the driver. -/
inductive DevlinkParam
  | portLow
  | portHigh
  | openedSockets
  | gatewayIp
  | gatewayMac

/-- The driver data after a set of a 16-bit parameter, if there is one. -/
def DevlinkParam.withU16 (p : DriverParams) (value : BitVec 16) : DevlinkParam → Option DriverParams
  | portLow => some { p with portLow := value }
  | portHigh => some { p with portHigh := value }
  | openedSockets | gatewayIp | gatewayMac => none

/-- The driver data after a set of a text parameter, if there is one. -/
def DevlinkParam.withString (kstrtoul : List Char → Option ℕ) (p : DriverParams) (value : List Char) :
    DevlinkParam → Option DriverParams
  | gatewayIp => some { p with gwIp := value }
  | gatewayMac => some { p with gwMac := value }
  | openedSockets => some (p.parseOpenSockets kstrtoul value)
  | portLow | portHigh => none

/-- The common part of the two devlink setters: store the parameter, then notify the device. -/
def devlinkSet (update : DriverParams → Option DriverParams) : Code Int := do
  match update (← Program.command Cmd.params) with
  | none => return einval
  | some p =>
    Program.command (Cmd.setParams p)
    notifyChange
    return 0

/-- `udp_core_devlink_set_u16`. -/
def devlinkSetU16 (id : DevlinkParam) (value : BitVec 16) : Code Int :=
  devlinkSet fun p => id.withU16 p value

/-- `udp_core_devlink_set_string`. -/
def devlinkSetString (kstrtoul : List Char → Option ℕ) (id : DevlinkParam) (value : List Char) : Code Int :=
  devlinkSet fun p => id.withString kstrtoul p value

inductive NetdevEvent
  | up
  | down
  | other

/-- The gateway of an address notification: the default route found, or the configured address. -/
def notifierGateway (gateway : Option (BitVec 32)) : Code (BitVec 32) := do
  let p ← Program.command Cmd.params
  match gateway with
  | some gw4 => return gw4
  | none => Program.command (Cmd.in4Pton p.gwIp)

/-- The writes of an address notification. -/
def notifierWrites (event : NetdevEvent) (ifaAddress ifaMask gw4 : BitVec 32) : Code Unit :=
  match event with
  | .up => do
    writeRegister RegAddr.res 1
    writeRegister RegAddr.ipLoc ifaAddress
    writeRegister RegAddr.snm ifaMask
    writeRegister RegAddr.gw gw4
    writeRegister RegAddr.res 0
  | .down => writeRegister RegAddr.res 1
  | .other => pure ()

/-- `udp_core_notifier_call` for an event of the device. -/
def notifierCall (event : NetdevEvent) (ifaAddress ifaMask : BitVec 32) (gateway : Option (BitVec 32)) :
    Code Unit := do
  let gw4 ← notifierGateway gateway
  notifierWrites event ifaAddress ifaMask gw4

end Kernel

end UdpIpCore
