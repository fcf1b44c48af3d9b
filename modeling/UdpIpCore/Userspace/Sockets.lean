import Mathlib.Algebra.GroupWithZero.Nat
import Mathlib.Data.Fin.VecNotation
import Mathlib.Data.Int.Notation
import UdpIpCore.Userspace.UserHost

/-!
# The socket layer

The socket calls of `socket.c` over the userspace driver. A descriptor is an index into
`socket_fds`; the calls that reach the device are programs over its accesses. The C
library and the operating system answer through arguments. The host is little-endian.
-/

namespace UdpIpCore

open Interaction

/-- `MAX_EPOLL_FDS`. -/
abbrev maxEpollFds : ℕ := 128

/-- A descriptor that `socket_fds` has an entry for. -/
abbrev Fd := Fin maxUdpPorts

instance : NeZero maxUdpPorts := ⟨by decide⟩

inductive Errno
  | EBADF
  | EINVAL
  | EAFNOSUPPORT
  | ENOMEM
  | ENOSYS
  | ENOTCONN
  | ENOTSUP
  | E2BIG
  | EMSGSIZE
deriving DecidableEq

/-- What a call returns, and `errno` if the call sets it. -/
structure Outcome where
  ret : ℤ
  errno : Option Errno
deriving DecidableEq

namespace Outcome

/-- A call that fails. -/
def fail (e : Errno) : Outcome := ⟨-1, some e⟩

/-- A call that returns a value. -/
def value (ret : ℤ) : Outcome := ⟨ret, none⟩

end Outcome

/-- `udriver_socket_status_t`. -/
inductive UdriverSocketStatus
  | notAssigned
  | initialized
  | bound
deriving DecidableEq

/-- `udriver_socket_t`, in host byte order. -/
structure UdriverSocket where
  multicast : BitVec 32
  srcIp : BitVec 32
  srcPort : BitVec 16
  destIp : BitVec 32
  destPort : BitVec 16
deriving DecidableEq

namespace UdriverSocket

/-- After `memset`. -/
def zero : UdriverSocket := ⟨0, 0, 0, 0, 0⟩

end UdriverSocket

/-- `udriver_socket_id_t`, with the socket its pointer refers to while it is assigned. -/
structure UdriverSocketId where
  epfd : ℤ
  status : UdriverSocketStatus
  socket : UdriverSocket
deriving DecidableEq

/-- `epoll_entry_t`. -/
structure EpollEntry where
  sockfd : Fd
  data : BitVec 64
  events : BitVec 32
deriving DecidableEq

/-- `socket_fds`, and the entries in use of each of `epoll_instances`. -/
structure SocketLayer where
  socketFds : Fd → UdriverSocketId
  epollInstances : Fin maxEpollFds → Option (List EpollEntry)

/-- `sockaddr_in`, in network byte order. -/
structure SockaddrIn where
  sinFamily : BitVec 16
  sinPort : BitVec 16
  sinAddr : BitVec 32
deriving DecidableEq

/-- The port range of `udp_ip_device`. -/
structure UdpIpDevice where
  portMin : BitVec 16
  portMax : BitVec 16
  /-- `udriver_initialize` refuses a wider range. -/
  narrow : (portMax.toNat : ℤ) - portMin.toNat < maxUdpPorts

namespace Udriver

/-- `UDRIVER_SOCKET_CLOSED` and `UDRIVER_SOCKET_OPEN`. -/
def udriverSocketClosed : BitVec 32 := 0
def udriverSocketOpen : BitVec 32 := 1

/-- `1 << BUFFER_OPENSOCK_OFFSET`. -/
def opensockMask : BitVec 32 := 1 <<< bufferOpensockOffset

/-- The index of the ring of a port, as `udriver_set_socket_status`, `udriver_recv` and
`udriver_probe_port` compute it. -/
def bufferId (dev : UdpIpDevice) (port : BitVec 32) : BitVec 32 := port - dev.portMin.setWidth 32

/-- `udriver_set_socket_status`. -/
def udriverSetSocketStatus (dev : UdpIpDevice) (port status : BitVec 32) : UserCode ℤ :=
  if dev.portMax.setWidth 32 < port ∨ port < dev.portMin.setWidth 32 then return -1
  else do
    let reg := ConfigRegs.bufferRxCtrl (bufferId dev port).toNat
    let value ← readReg reg
    writeReg reg (if status = udriverSocketOpen then value ||| opensockMask else value &&& ~~~opensockMask)
    return 0

/-- `PAGE_SIZE`, the bytes of the registers that `udriver_initialize` maps. -/
def pageSize : ℕ := 64 * 1024

/-- `BUFFER_RX_CTRL_BASE_OFFSET`. -/
def bufferRxCtrlBaseOffset (index : BitVec 32) : BitVec 32 := BitVec.ofNat 32 RegAddr.bufrxOffset + index * 8

/-- The control word for a port is among the mapped registers. -/
def Mapped (dev : UdpIpDevice) (port : BitVec 32) : Prop :=
  (bufferRxCtrlBaseOffset (bufferId dev port)).toNat < pageSize

instance decidableMapped (dev : UdpIpDevice) (port : BitVec 32) : Decidable (Mapped dev port) :=
  inferInstanceAs (Decidable (_ < _))

/-- `udriver_probe_port`: the ring is not empty. A read behind the mapped registers does not return. -/
def udriverProbePort (dev : UdpIpDevice) (port : BitVec 32) : UserCode (Option Bool) :=
  if Mapped dev port then do
    let reg ← readReg ((bufferRxCtrlBaseOffset (bufferId dev port)).setWidth 14)
    return some !reg.getLsbD bufferEmptyOffset
  else return none

/-- The device sees the low bits of the offset. -/
theorem setWidth_bufferRxCtrlBaseOffset (index : BitVec 32) :
    (bufferRxCtrlBaseOffset index).setWidth 14 = ConfigRegs.bufferRxCtrl index.toNat := by
  apply BitVec.eq_of_toNat_eq
  have height : (8 : BitVec 32).toNat = 8 := by decide
  simp only [bufferRxCtrlBaseOffset, ConfigRegs.bufferRxCtrl, BitVec.toNat_setWidth, BitVec.toNat_add, BitVec.toNat_mul,
    BitVec.toNat_ofNat, RegAddr.bufrxOffset, height]
  omega

/-- `byte_arr_to_uint32`. -/
def byteArrToUint32 (array : Fin 4 → BitVec 8) : BitVec 32 := array 0 ++ array 1 ++ array 2 ++ array 3

/-- `eth_mac_to_eth_mac32`, the upper word first. -/
def ethMacToEthMac32 (mac : Fin 6 → BitVec 8) : BitVec 32 × BitVec 32 :=
  (byteArrToUint32 ![0, 0, mac 0, mac 1], byteArrToUint32 ![mac 2, mac 3, mac 4, mac 5])

/-- What XRT and the operating system answer to `udriver_initialize`. -/
structure Mapping where
  shmemPhysAddr : BitVec 64
  /-- `/dev/mem` was opened. -/
  opened : Bool
  /-- The registers were mapped. -/
  mapped : Bool

/-- `udriver_initialize` without interrupts. -/
def udriverInitialize (localMac : Fin 6 → BitVec 8) (localIp subnetMask gwIp : Fin 4 → BitVec 8)
    (portMin portMax : BitVec 16) (os : Mapping) : UserCode ℤ :=
  if narrow : (portMax.toNat : ℤ) - portMin.toNat < maxUdpPorts then
    if 0xFFFFFFFF < os.shmemPhysAddr ∨ os.opened = false ∨ os.mapped = false then return -1
    else do
      writeReg RegAddr.res 1
      writeReg RegAddr.mac0 (ethMacToEthMac32 localMac).2
      writeReg RegAddr.mac1 (ethMacToEthMac32 localMac).1
      writeReg RegAddr.gw (byteArrToUint32 gwIp)
      writeReg RegAddr.snm (byteArrToUint32 subnetMask)
      writeReg RegAddr.ipLoc (byteArrToUint32 localIp)
      writeReg RegAddr.shmem (os.shmemPhysAddr.setWidth 32)
      writeReg RegAddr.udpRangeL (portMin.setWidth 32)
      writeReg RegAddr.udpRangeH (portMax.setWidth 32)
      Program.forEach (List.range maxUdpPorts) notifyPopToRxBuffer
      writeReg RegAddr.buftxPushed 0
      Program.forEach (List.range maxUdpPorts) fun bufferRxIndex => do
        let _ ← udriverSetSocketStatus ⟨portMin, portMax, narrow⟩ (BitVec.ofNat 32 bufferRxIndex) udriverSocketClosed
      writeReg RegAddr.ier0 0
      writeReg RegAddr.gie 0
      writeReg RegAddr.res 0
      return 0
  else return -1

/-- `udriver_get_local_ip`. -/
def udriverGetLocalIp : UserCode (BitVec 32) := readReg RegAddr.ipLoc

/-- `udriver_get_port_range_high`. -/
def udriverGetPortRangeHigh : UserCode (BitVec 16) := do
  let portHigh ← readReg RegAddr.udpRangeH
  return portHigh.setWidth 16

end Udriver

/-- `htonl`, which is its own inverse `ntohl`. -/
def htonl (x : BitVec 32) : BitVec 32 :=
  x.extractLsb' 0 8 ++ x.extractLsb' 8 8 ++ x.extractLsb' 16 8 ++ x.extractLsb' 24 8

/-- `htons`, which is its own inverse `ntohs`. -/
def htons (x : BitVec 16) : BitVec 16 := x.extractLsb' 0 8 ++ x.extractLsb' 8 8

/-- `htonl` reverses the bytes. -/
theorem getLsbD_htonl (x : BitVec 32) {byte bit : ℕ} (hbyte : byte < 4) (hbit : bit < 8) :
    (htonl x).getLsbD (8 * byte + bit) = x.getLsbD (8 * (3 - byte) + bit) := by
  have hcases : byte = 0 ∨ byte = 1 ∨ byte = 2 ∨ byte = 3 := by omega
  rcases hcases with rfl | rfl | rfl | rfl
  all_goals
    simp only [htonl, BitVec.getLsbD_append, BitVec.getLsbD_extractLsb']
    grind

/-- `htons` exchanges the bytes. -/
theorem getLsbD_htons (x : BitVec 16) {byte bit : ℕ} (hbyte : byte < 2) (hbit : bit < 8) :
    (htons x).getLsbD (8 * byte + bit) = x.getLsbD (8 * (1 - byte) + bit) := by
  have hcases : byte = 0 ∨ byte = 1 := by omega
  rcases hcases with rfl | rfl
  all_goals
    simp only [htons, BitVec.getLsbD_append, BitVec.getLsbD_extractLsb']
    grind

/-- Converted twice, a word is as before. -/
theorem htonl_htonl (x : BitVec 32) : htonl (htonl x) = x := by
  apply BitVec.eq_of_getLsbD_eq
  intro i hi
  have hsplit : i = 8 * (i / 8) + i % 8 := by omega
  rw [hsplit, getLsbD_htonl _ (by omega) (by omega), getLsbD_htonl _ (by omega) (by omega)]
  congr 1
  omega

/-- Converted twice, a port is as before. -/
theorem htons_htons (x : BitVec 16) : htons (htons x) = x := by
  apply BitVec.eq_of_getLsbD_eq
  intro i hi
  have hsplit : i = 8 * (i / 8) + i % 8 := by omega
  rw [hsplit, getLsbD_htons _ (by omega) (by omega), getLsbD_htons _ (by omega) (by omega)]
  congr 1
  omega

/-- A port that goes through `htonl` has its bytes in the upper half. -/
theorem setWidth_htonl_port (x : BitVec 16) : (htonl (x.setWidth 32)).setWidth 16 = 0 := by
  apply BitVec.eq_of_getLsbD_eq
  intro i hi
  have hsplit : i = 8 * (i / 8) + i % 8 := by omega
  have hlow : (htonl (x.setWidth 32)).getLsbD i = false := by
    rw [hsplit, getLsbD_htonl _ (by omega) (by omega), BitVec.getLsbD_setWidth, BitVec.getLsbD_of_ge x _ (by omega),
      Bool.and_false]
  rw [BitVec.getLsbD_setWidth, hlow]
  simp

namespace SocketLayer

open Udriver

/-- `AF_INET`, `SOCK_DGRAM` and `INADDR_ANY`. -/
def afInet : ℤ := 2
def sockDgram : ℤ := 2
def inaddrAny : BitVec 32 := 0

/-- `SHUT_RD`, `SHUT_WR` and `SHUT_RDWR`. -/
def shutRd : ℤ := 0
def shutWr : ℤ := 1
def shutRdwr : ℤ := 2

/-- `EPOLL_CTL_ADD` and `EPOLL_CTL_DEL`. -/
def epollCtlAdd : ℤ := 1
def epollCtlDel : ℤ := 2

/-- `sizeof(struct sockaddr_in)`. -/
def sizeofSockaddrIn : BitVec 32 := 16

variable (l : SocketLayer)

/-- The layer with one entry of `socket_fds` replaced. -/
def setFd (fd : Fd) (id : UdriverSocketId) : SocketLayer :=
  { l with socketFds := fun other => if other = fd then id else l.socketFds other }

/-- The layer with one socket replaced. -/
def setSocket (fd : Fd) (socket : UdriverSocket) : SocketLayer :=
  l.setFd fd { l.socketFds fd with socket := socket }

/-- The layer with one of `epoll_instances` replaced. -/
def setInstance (epfd : Fin maxEpollFds) (entries : List EpollEntry) : SocketLayer :=
  { l with epollInstances := fun other => if other = epfd then some entries else l.epollInstances other }

/-- An instance is dropped. -/
def clearInstance (epfd : Fin maxEpollFds) : SocketLayer :=
  { l with epollInstances := fun other => if other = epfd then none else l.epollInstances other }

/-- `fds_init`. -/
def fdsInit : SocketLayer := ⟨fun _ => ⟨0, .notAssigned, .zero⟩, fun _ => none⟩

/-- `fds_get_free_fd`: the descriptor `open` has returned, if it is not in use. -/
def fdsGetFreeFd (opened : Option Fd) : Option Fd :=
  opened.filter fun fd => (l.socketFds fd).status = .notAssigned

/-- `fd_create`, where `malloc` may fail. -/
def fdCreate (opened : Option Fd) (allocated : Bool) : Option Fd × SocketLayer :=
  match l.fdsGetFreeFd opened with
  | none => (none, l)
  | some sockfd =>
    if allocated then (some sockfd, l.setFd sockfd ⟨-1, .initialized, .zero⟩) else (none, l)

/-- `socket`, once the library is initialized. -/
def socket (domain type : ℤ) (opened : Option Fd) (allocated : Bool) : Outcome × SocketLayer :=
  if domain ≠ afInet ∧ type ≠ sockDgram then (.fail .EINVAL, l)
  else match l.fdCreate opened allocated with
    | (none, l') => (.fail .ENOMEM, l')
    | (some sockfd, l') => (.value sockfd, l')

/-- `epoll_create`, where `calloc` may fail. -/
def epollCreate (opened : Option Fd) (allocated : Bool) : Outcome × SocketLayer :=
  match l.fdsGetFreeFd opened with
  | none => (.fail .ENOMEM, l)
  | some epfd =>
    if h : epfd.val < maxEpollFds then
      if allocated then (.value epfd, l.setInstance ⟨epfd, h⟩ []) else (.fail .ENOMEM, l.clearInstance ⟨epfd, h⟩)
    else (.fail .ENOMEM, l)

/-- A descriptor in range is an index of the table of instances. -/
theorem toNat_lt_maxEpollFds {epfd : ℤ} (h : 0 ≤ epfd ∧ epfd < maxEpollFds) : epfd.toNat < maxEpollFds := by
  omega

/-- The instance that `epoll_ctl` works on. -/
def epollInstance (epfd : ℤ) : Option (Fin maxEpollFds × List EpollEntry) :=
  if h : 0 ≤ epfd ∧ epfd < maxEpollFds then
    let id : Fin maxEpollFds := ⟨epfd.toNat, toNat_lt_maxEpollFds h⟩
    (l.epollInstances id).map fun entries => (id, entries)
  else none

/-- `epoll_ctl`. -/
def epollCtl (epfd op : ℤ) (fd : Fd) (data : BitVec 64) (events : BitVec 32) : Outcome × SocketLayer :=
  match l.epollInstance epfd with
  | none => (.fail .EBADF, l)
  | some (id, entries) =>
    if op = epollCtlAdd then
      if entries.any fun entry => entry.sockfd = fd then (.fail .EBADF, l)
      else if maxEpollFds ≤ entries.length then (.fail .E2BIG, l)
      else (.value 0, (l.setFd fd { l.socketFds fd with epfd := epfd }).setInstance id
        (entries ++ [⟨fd, data, events⟩]))
    else if op = epollCtlDel then
      if entries.any fun entry => entry.sockfd = fd then
        (.value 0, (l.setFd fd { l.socketFds fd with epfd := -1 }).setInstance id
          (entries.eraseP fun entry => entry.sockfd = fd))
      else (⟨-1, none⟩, l)
    else (.fail .ENOTSUP, l)

variable (dev : UdpIpDevice)

/-- `shutdown`. -/
def shutdown (sockfd : Fd) (how : ℤ) : UserCode (Outcome × SocketLayer) :=
  let id := l.socketFds sockfd
  if id.status = .notAssigned then return (.fail .EBADF, l)
  else if how ≠ shutWr ∧ how ≠ shutRd ∧ how ≠ shutRdwr then return (.fail .EINVAL, l)
  else do
    let l' :=
      if how = shutWr ∨ how = shutRdwr then l.setSocket sockfd { id.socket with destIp := 0, destPort := 0 }
      else l
    -- the else branch of the source: a shutdown in both directions does not reach it
    if ¬ (how = shutWr ∨ how = shutRdwr) ∧ (how = shutRd ∨ how = shutRdwr) ∧ id.status = .bound then
      let _ ← udriverSetSocketStatus dev (id.socket.srcPort.setWidth 32) udriverSocketClosed
    let l'' := if id.epfd ≠ -1 then (l'.epollCtl id.epfd epollCtlDel sockfd 0 0).2 else l'
    return (.value 0, l'')

/-- What the C library answers to `close`. -/
structure LibcClose where
  /-- `dlsym` has found the function. -/
  resolved : Bool
  /-- `fcntl` knows the descriptor. -/
  valid : Bool
  /-- The result of the library's own `close`. -/
  ret : ℤ

/-- `close`. -/
def close (fd : Fd) (libc : LibcClose) : UserCode (Outcome × SocketLayer) :=
  if ¬ libc.resolved then return (.fail .ENOSYS, l)
  else if (l.socketFds fd).status = .notAssigned then
    return (if libc.valid then .value libc.ret else .fail .EBADF, l)
  else do
    let stopped ← l.shutdown dev fd shutRdwr
    let l' := stopped.2
    return (.value libc.ret, l'.setFd fd { l'.socketFds fd with status := .notAssigned })

/-- The address `bind` takes. -/
def bindIp (addr : SockaddrIn) : UserCode (BitVec 32) :=
  if htonl addr.sinAddr = inaddrAny then udriverGetLocalIp else return htonl addr.sinAddr

/-- The port `bind` takes; for port 0 it is counted down from the upper end of the range. -/
def bindPort (sockfd : Fd) (addr : SockaddrIn) : UserCode (BitVec 16) :=
  if htons addr.sinPort = 0 then do
    let portHigh ← udriverGetPortRangeHigh
    return portHigh - 1 - BitVec.ofNat 16 sockfd
  else return htons addr.sinPort

/-- `bind`. -/
def bind (sockfd : Fd) (addr : SockaddrIn) (addrlen : BitVec 32) : UserCode (Outcome × SocketLayer) :=
  let id := l.socketFds sockfd
  if id.status = .notAssigned then return (.fail .EBADF, l)
  else if id.status = .bound then return (.fail .EINVAL, l)
  else if (addr.sinFamily.toNat : ℤ) ≠ afInet ∨ addrlen ≠ sizeofSockaddrIn then
    return (.fail .EAFNOSUPPORT, l)
  else do
    let ip ← bindIp addr
    let port ← bindPort sockfd addr
    let _ ← udriverSetSocketStatus dev (port.setWidth 32) udriverSocketOpen
    return (.value 0, l.setFd sockfd
      { id with status := .bound, socket := { id.socket with srcIp := ip, srcPort := port } })

/-- `connect`. -/
def connect (sockfd : Fd) (addr : SockaddrIn) (addrlen : BitVec 32) : Outcome × SocketLayer :=
  let id := l.socketFds sockfd
  if (addr.sinFamily.toNat : ℤ) ≠ afInet ∨ addrlen ≠ sizeofSockaddrIn then (.fail .EAFNOSUPPORT, l)
  else if id.status = .notAssigned then (.fail .EBADF, l)
  else (.value 0, l.setSocket sockfd
    { id.socket with destIp := htonl addr.sinAddr, destPort := htons addr.sinPort })

/-- `setsockopt`: `IPPROTO_IP` is 0 and `IP_MULTICAST_IF` is 32. -/
def setsockopt (sockfd : Fd) (level optname : ℤ) : Outcome × SocketLayer :=
  let id := l.socketFds sockfd
  if id.status = .notAssigned then (.fail .EBADF, l)
  else if level = 0 ∧ optname = 32 then (.value 0, l.setSocket sockfd { id.socket with multicast := 1 })
  else (.value 0, l)

/-- The bytes of a header word. -/
def wordBytes (w : BitVec 64) : List (BitVec 8) := (List.range 8).map fun k => w.extractLsb' (8 * k) 8

/-- The packet `sendto` hands to the driver. -/
def txUdpPacket (socket : UdriverSocket) (buf : List (BitVec 8)) (destAddr : SockaddrIn) : UdpPacket where
  header := wordBytes (BitVec.ofNat 64 buf.length) ++ wordBytes (socket.srcIp.setWidth 64) ++
    wordBytes (socket.srcPort.setWidth 64) ++ wordBytes ((htonl destAddr.sinAddr).setWidth 64) ++
    wordBytes ((htons destAddr.sinPort).setWidth 64)
  payload := buf

/-- What `udriver_send` returns, as an `int`. -/
def sentb (p : UdpPacket) (sent : Bool) : ℤ := if sent then (BitVec.ofNat 32 p.payload.length).toInt else -1

/-- The loop of `sendto`, which ends once a positive number of bytes was sent; nothing is returned as
long as it goes on. -/
def sendLoop (p : UdpPacket) : ℕ → UserCode (Option ℤ)
  | 0 => return none
  | attempts + 1 => do
    let sent ← udriverSend p
    if sentb p sent ≤ 0 then sendLoop p attempts else return some (sentb p sent)

/-- `sendto` on a bound socket, followed for a number of attempts. -/
def sendtoBound (sockfd : Fd) (buf : List (BitVec 8)) (destAddr : SockaddrIn) (addrlen : BitVec 32)
    (attempts : ℕ) : UserCode (Option Outcome × SocketLayer) :=
  if addrlen ≠ sizeofSockaddrIn then return (some (.fail .EAFNOSUPPORT), l)
  else do
    let sentb ← sendLoop (txUdpPacket (l.socketFds sockfd).socket buf destAddr) attempts
    return (sentb.map .value, l)

/-- The address `sendto` binds to. -/
def ephemeral : SockaddrIn := ⟨BitVec.ofInt 16 afInet, 0, inaddrAny⟩

/-- `sendto`; `buf` is the `len` bytes it is given. -/
def sendto (sockfd : Fd) (buf : List (BitVec 8)) (destAddr : SockaddrIn) (addrlen : BitVec 32)
    (attempts : ℕ) : UserCode (Option Outcome × SocketLayer) :=
  let id := l.socketFds sockfd
  if id.status = .notAssigned then return (some (.fail .EBADF), l)
  else if id.status ≠ .bound then do
    let retval ← l.bind dev sockfd ephemeral sizeofSockaddrIn
    if retval.1.ret < 0 then return (some (.fail .EINVAL), retval.2)
    else retval.2.sendtoBound sockfd buf destAddr addrlen attempts
  else l.sendtoBound sockfd buf destAddr addrlen attempts

/-- The address `send` builds from the peer; the port goes through `htonl` and is cut to 16 bits. -/
def peerAddr (socket : UdriverSocket) : SockaddrIn :=
  ⟨BitVec.ofInt 16 afInet, (htonl (socket.destPort.setWidth 32)).setWidth 16, htonl socket.destIp⟩

/-- `send`. -/
def send (sockfd : Fd) (buf : List (BitVec 8)) (attempts : ℕ) : UserCode (Option Outcome × SocketLayer) :=
  let id := l.socketFds sockfd
  if id.status = .notAssigned then return (some (.fail .EBADF), l)
  else if id.socket.destIp = 0 then return (some (.fail .ENOTCONN), l)
  else l.sendto dev sockfd buf (peerAddr id.socket) sizeofSockaddrIn attempts

/-- `EPOLLIN`. -/
def epollIn : BitVec 32 := 1

/-- `epoll_event`; of its data the pointer is written last. -/
structure EpollEvent where
  data : BitVec 64
  events : BitVec 32
deriving DecidableEq

/-- The loop of `epoll_wait` over the entries of an instance, while events are wanted. Nothing is returned if a probe does
not return. -/
def epollScan : List EpollEntry → ℕ → UserCode (Option (List EpollEvent))
  | [], _ => return some []
  | _ :: _, 0 => return some []
  | entry :: rest, wanted + 1 =>
    let id := l.socketFds entry.sockfd
    if id.status ≠ .bound then epollScan rest (wanted + 1)
    else do
      match ← udriverProbePort dev (id.socket.srcPort.setWidth 32) with
      | none => return none
      | some true =>
        let events ← epollScan rest wanted
        return events.map fun events => ⟨entry.data, epollIn⟩ :: events
      | some false => epollScan rest (wanted + 1)

/-- The waiting loop of `epoll_wait`; `expired` tells in which passes the timeout is over. Nothing is returned as long as it
goes on. -/
def epollPasses (entries : List EpollEntry) (maxevents timeout : ℤ) (expired : ℕ → Bool) :
    ℕ → ℕ → UserCode (Option (List EpollEvent))
  | _, 0 => return none
  | pass, passes + 1 => do
    match ← l.epollScan dev entries maxevents.toNat with
    | none => return none
    | some events =>
      if events ≠ [] then return some events
      else if timeout = 0 then return some []
      else if 0 < timeout ∧ expired pass then return some []
      else epollPasses entries maxevents timeout expired (pass + 1) passes

/-- `epoll_wait`, followed for a number of passes. -/
def epollWait (epfd maxevents timeout : ℤ) (expired : ℕ → Bool) (passes : ℕ) :
    UserCode (Option (Outcome × List EpollEvent)) :=
  match l.epollInstance epfd with
  | none => return some (.fail .EBADF, [])
  | some (_, entries) => do
    let events ← l.epollPasses dev entries maxevents timeout expired 0 passes
    return events.map fun events => (.value events.length, events)

end SocketLayer

end UdpIpCore
