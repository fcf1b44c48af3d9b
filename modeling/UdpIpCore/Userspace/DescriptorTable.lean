import UdpIpCore.Userspace.FailingCalls
import UdpIpCore.Userspace.Select

/-!
# The descriptor table and its pointers

The calls of `socket.c` as programs over single accesses to `socket_fds`, with any integer
as an index, and to what its pointers lead to. An access outside of the table or through a
null pointer is a fault. Between these accesses the calls run the driver, whose registers
and memory answer anything.
-/

namespace UdpIpCore

open Interaction

/-- An entry of `socket_fds`, with the socket its pointer leads to. -/
structure TableSlot where
  epfd : ℤ
  status : UdriverSocketStatus
  socketPtr : Option UdriverSocket

/-- An entry of an epoll instance. -/
structure ListedFd where
  sockfd : ℤ
  data : BitVec 64
  events : BitVec 32

/-- `socket_fds` and `epoll_instances`. -/
structure DescriptorTable where
  slots : Fd → TableSlot
  instances : Fin maxEpollFds → Option (List ListedFd)
  /-- `socket_fds` was indexed outside of its bounds, or a null pointer of it was dereferenced. -/
  fault : Bool

/-- One access. -/
inductive TableAccess
  | status (i : ℤ)
  | setStatus (i : ℤ) (status : UdriverSocketStatus)
  | epfd (i : ℤ)
  | setEpfd (i epfd : ℤ)
  | ptr (i : ℤ)
  | setPtr (i : ℤ) (ptr : Option UdriverSocket)
  /-- `*socket_fds[i].socket_ptr`. -/
  | load (i : ℤ)
  | store (i : ℤ) (socket : UdriverSocket)
  | listed (id : Fin maxEpollFds)
  | setListed (id : Fin maxEpollFds) (fds : Option (List ListedFd))
  | device (c : Access)

namespace TableAccess

abbrev Response : TableAccess → Type
  | status _ => UdriverSocketStatus
  | epfd _ => ℤ
  | ptr _ => Option UdriverSocket
  | load _ => UdriverSocket
  | listed _ => Option (List ListedFd)
  | device c => c.Response
  | _ => Unit

end TableAccess

/-- Programs over the table and the device. -/
abbrev TableCode := Program TableAccess TableAccess.Response

namespace DescriptorTable

open SocketLayer Udriver

/-- The entry with an index. -/
def fdOf (i : ℤ) : Option Fd := if h : 0 ≤ i ∧ i < maxUdpPorts then some ⟨i.toNat, by omega⟩ else none

/-- The epoll instance with an index. -/
def instanceOf (epfd : ℤ) : Option (Fin maxEpollFds) :=
  if h : 0 ≤ epfd ∧ epfd < maxEpollFds then some ⟨epfd.toNat, SocketLayer.toNat_lt_maxEpollFds h⟩ else none

/-- `fds_init`. -/
def init : DescriptorTable := ⟨fun _ => ⟨0, .notAssigned, none⟩, fun _ => none, false⟩

/-- The table once a fault has occurred. -/
def faulted (t : DescriptorTable) : DescriptorTable := { t with fault := true }

/-- One entry is replaced. -/
def setSlot (t : DescriptorTable) (fd : Fd) (slot : TableSlot) : DescriptorTable :=
  { t with slots := Function.update t.slots fd slot }

/-- A read or a write of an entry; outside of the table it is a fault. -/
def atIndex {α : Type} (t : DescriptorTable) (i : ℤ) (otherwise : α) (f : Fd → α × DescriptorTable) : α × DescriptorTable :=
  match fdOf i with
  | none => (otherwise, t.faulted)
  | some fd => f fd

/-- What the device answers to its accesses, one after the other. -/
abbrev Answers := ℕ → (c : Access) → c.Response

/-- One access. -/
def execute (s : DescriptorTable × Answers) : (c : TableAccess) → c.Response × (DescriptorTable × Answers)
  | .status i => let r := s.1.atIndex i .notAssigned fun fd => ((s.1.slots fd).status, s.1); (r.1, r.2, s.2)
  | .setStatus i status =>
    let r := s.1.atIndex i () fun fd => ((), s.1.setSlot fd { s.1.slots fd with status := status }); (r.1, r.2, s.2)
  | .epfd i => let r := s.1.atIndex i 0 fun fd => ((s.1.slots fd).epfd, s.1); (r.1, r.2, s.2)
  | .setEpfd i epfd =>
    let r := s.1.atIndex i () fun fd => ((), s.1.setSlot fd { s.1.slots fd with epfd := epfd }); (r.1, r.2, s.2)
  | .ptr i => let r := s.1.atIndex i none fun fd => ((s.1.slots fd).socketPtr, s.1); (r.1, r.2, s.2)
  | .setPtr i ptr =>
    let r := s.1.atIndex i () fun fd => ((), s.1.setSlot fd { s.1.slots fd with socketPtr := ptr }); (r.1, r.2, s.2)
  | .load i =>
    let r := s.1.atIndex i .zero fun fd =>
      match (s.1.slots fd).socketPtr with
      | none => (.zero, s.1.faulted)
      | some socket => (socket, s.1)
    (r.1, r.2, s.2)
  | .store i socket =>
    let r := s.1.atIndex i () fun fd =>
      match (s.1.slots fd).socketPtr with
      | none => ((), s.1.faulted)
      | some _ => ((), s.1.setSlot fd { s.1.slots fd with socketPtr := some socket })
    (r.1, r.2, s.2)
  | .listed id => (s.1.instances id, s)
  | .setListed id fds => ((), { s.1 with instances := Function.update s.1.instances id fds }, s.2)
  | .device c => (s.2 0 c, s.1, fun k => s.2 (k + 1))

section Accesses

def status (i : ℤ) : TableCode UdriverSocketStatus := Program.command (TableAccess.status i)
def setStatus (i : ℤ) (status : UdriverSocketStatus) : TableCode Unit := Program.command (TableAccess.setStatus i status)
def epfd (i : ℤ) : TableCode ℤ := Program.command (TableAccess.epfd i)
def setEpfd (i epfd : ℤ) : TableCode Unit := Program.command (TableAccess.setEpfd i epfd)
def ptr (i : ℤ) : TableCode (Option UdriverSocket) := Program.command (TableAccess.ptr i)
def setPtr (i : ℤ) (p : Option UdriverSocket) : TableCode Unit := Program.command (TableAccess.setPtr i p)
def load (i : ℤ) : TableCode UdriverSocket := Program.command (TableAccess.load i)
def store (i : ℤ) (socket : UdriverSocket) : TableCode Unit := Program.command (TableAccess.store i socket)
def listed (id : Fin maxEpollFds) : TableCode (Option (List ListedFd)) := Program.command (TableAccess.listed id)
def setListed (id : Fin maxEpollFds) (fds : Option (List ListedFd)) : TableCode Unit :=
  Program.command (TableAccess.setListed id fds)

/-- A program of the driver. -/
def onDevice {α : Type} : UserCode α → TableCode α
  | .done a => .done a
  | .perform c next => .perform (TableAccess.device c) fun r => onDevice (next r)

end Accesses

section Calls

/-- `fds_get_free_fd`, with what `open` has returned. -/
def fdsGetFreeFd (opened : ℤ) : TableCode ℤ :=
  if opened < 0 then return -1
  else do
    if (← status opened) ≠ .notAssigned then return -1
    else return opened

/-- `fd_create`, where `malloc` may fail. -/
def fdCreate (opened : ℤ) (allocated : Bool) : TableCode ℤ := do
  let sockfd ← fdsGetFreeFd opened
  if sockfd = -1 then return -1
  else if allocated = false then return -1
  else do
    setEpfd sockfd (-1)
    setStatus sockfd .initialized
    setPtr sockfd (some .zero)
    return sockfd

/-- `socket`, once the library is initialized. -/
def socket (domain type opened : ℤ) (allocated : Bool) : TableCode Outcome :=
  if domain ≠ afInet ∧ type ≠ sockDgram then return .fail .EINVAL
  else do
    let sockfd ← fdCreate opened allocated
    if sockfd < 0 then return .fail .ENOMEM
    else return .value sockfd

/-- `epoll_create`, where `calloc` may fail. -/
def epollCreate (opened : ℤ) (allocated : Bool) : TableCode Outcome := do
  let epfd ← fdsGetFreeFd opened
  match instanceOf epfd with
  | none => return .fail .ENOMEM
  | some id =>
    setListed id (if allocated then some [] else none)
    if allocated then return .value epfd else return .fail .ENOMEM

/-- `epoll_ctl`. -/
def epollCtl (epfd op fd : ℤ) (data : BitVec 64) (events : BitVec 32) : TableCode Outcome :=
  match instanceOf epfd with
  | none => return .fail .EBADF
  | some id => do
    match ← listed id with
    | none => return .fail .EBADF
    | some fds =>
      if op = epollCtlAdd then
        if fds.any fun entry => entry.sockfd = fd then return .fail .EBADF
        else if maxEpollFds ≤ fds.length then return .fail .E2BIG
        else do
          setEpfd fd epfd
          setListed id (some (fds ++ [⟨fd, data, events⟩]))
          return .value 0
      else if op = epollCtlDel then
        if fds.any fun entry => entry.sockfd = fd then do
          setEpfd fd (-1)
          setListed id (some (fds.eraseP fun entry => entry.sockfd = fd))
          return .value 0
        else return ⟨-1, none⟩
      else return .fail .ENOTSUP

variable (dev : UdpIpDevice)

/-- What `shutdown` does to the socket. -/
def shutdownSocket (sockfd how : ℤ) : TableCode Unit :=
  if how = shutWr ∨ how = shutRdwr then do
    let socket ← load sockfd
    store sockfd { socket with destIp := 0, destPort := 0 }
  else if how = shutRd ∨ how = shutRdwr then do
    if (← status sockfd) = .bound then do
      let socket ← load sockfd
      let _ ← onDevice (udriverSetSocketStatus dev (socket.srcPort.setWidth 32) udriverSocketClosed)
      return ()
    else return ()
  else return ()

/-- `shutdown`. -/
def shutdown (sockfd how : ℤ) : TableCode Outcome := do
  if (← status sockfd) = .notAssigned then return .fail .EBADF
  else do
    let _ ← ptr sockfd
    if how ≠ shutWr ∧ how ≠ shutRd ∧ how ≠ shutRdwr then return .fail .EINVAL
    else do
      shutdownSocket dev sockfd how
      let id ← epfd sockfd
      if id ≠ -1 then do
        let _ ← epollCtl id epollCtlDel sockfd 0 0
        return .value 0
      else return .value 0

/-- `close`. -/
def close (fd : ℤ) (libc : LibcClose) : TableCode Outcome :=
  if ¬ libc.resolved then return .fail .ENOSYS
  else do
    if (← status fd) = .notAssigned then
      return if libc.valid then .value libc.ret else .fail .EBADF
    else do
      let _ ← shutdown dev fd shutRdwr
      let _ ← ptr fd
      setStatus fd .notAssigned
      setPtr fd none
      return .value libc.ret

/-- The port `bind` takes. -/
def autoPort (sockfd : ℤ) (addr : SockaddrIn) : UserCode (BitVec 16) :=
  if htons addr.sinPort = 0 then do
    let portHigh ← udriverGetPortRangeHigh
    return portHigh - 1 - BitVec.ofInt 16 sockfd
  else return htons addr.sinPort

/-- `bind`. -/
def bind (sockfd : ℤ) (addr : SockaddrIn) (addrlen : BitVec 32) : TableCode Outcome := do
  if (← status sockfd) = .notAssigned then return .fail .EBADF
  else do
    if (← status sockfd) = .bound then return .fail .EINVAL
    else if (addr.sinFamily.toNat : ℤ) ≠ afInet ∨ addrlen ≠ sizeofSockaddrIn then return .fail .EAFNOSUPPORT
    else do
      let ip ← onDevice (bindIp addr)
      let port ← onDevice (autoPort sockfd addr)
      setStatus sockfd .bound
      let socket ← load sockfd
      store sockfd { socket with srcIp := ip, srcPort := port }
      let _ ← onDevice (udriverSetSocketStatus dev (port.setWidth 32) udriverSocketOpen)
      return .value 0

/-- `connect`. -/
def connect (sockfd : ℤ) (addr : SockaddrIn) (addrlen : BitVec 32) : TableCode Outcome :=
  if (addr.sinFamily.toNat : ℤ) ≠ afInet ∨ addrlen ≠ sizeofSockaddrIn then return .fail .EAFNOSUPPORT
  else do
    if (← status sockfd) = .notAssigned then return .fail .EBADF
    else do
      let socket ← load sockfd
      store sockfd { socket with destIp := htonl addr.sinAddr, destPort := htons addr.sinPort }
      return .value 0

/-- `getsockname`, with the address it stores. -/
def getsockname (sockfd : ℤ) : TableCode (Outcome × Option SockaddrIn) := do
  if (← status sockfd) = .notAssigned then return (.fail .EBADF, none)
  else do
    let socket ← load sockfd
    return (.value 0, some ⟨BitVec.ofInt 16 afInet, htons socket.srcPort, htonl socket.srcIp⟩)

/-- `setsockopt`: `IPPROTO_IP` is 0 and `IP_MULTICAST_IF` is 32. -/
def setsockopt (sockfd level optname : ℤ) : TableCode Outcome := do
  if (← status sockfd) = .notAssigned then return .fail .EBADF
  else if level = 0 ∧ optname = 32 then do
    let socket ← load sockfd
    store sockfd { socket with multicast := 1 }
    return .value 0
  else return .value 0

/-- `recvfrom`, followed for a number of attempts. -/
def recvfrom (sockfd : ℤ) (args : RecvArgs) (attempts : ℕ) : TableCode Recvd := do
  if (← status sockfd) ≠ .bound then
    return .returned ⟨.fail .EINVAL, args.buf, 0, args.srcAddr, args.addrlen⟩
  else do
    let socket ← load sockfd
    if socket.multicast = 1 then return .returned ⟨.value 0, args.buf, 0, args.srcAddr, args.addrlen⟩
    else do
      match ← onDevice (recvLoop (bufferId dev (socket.srcPort.setWidth 32)).toNat attempts) with
      | none => return .going
      | some rxUdpPacket => return deliver args rxUdpPacket

/-- `recv`. -/
def recv (sockfd : ℤ) (buf : Option (ℕ → BitVec 8)) (len : BitVec 64) (locals : RecvLocals) (attempts : ℕ) :
    TableCode Recvd :=
  recvfrom dev sockfd ⟨buf, len, some locals.addr, some locals.addrlen, locals.pointer⟩ attempts

/-- `recvmsg`. -/
def recvmsg (sockfd : ℤ) (msg : RecvMsghdr) (locals : RecvLocals) (attempts : ℕ) : TableCode (CallEnd × RecvMsghdr) := do
  let received ← recvfrom dev sockfd
    ⟨msg.iovBase, msg.iovLen, some locals.addr, some locals.addrlen, locals.pointer⟩ attempts
  return finishRecvmsg msg locals received

/-- `sendto` once the descriptor is bound. -/
def sendtoBound (sockfd : ℤ) (buf : List (BitVec 8)) (destAddr : SockaddrIn) (addrlen : BitVec 32) (attempts : ℕ) :
    TableCode (Option Outcome) :=
  if addrlen ≠ sizeofSockaddrIn then return some (.fail .EAFNOSUPPORT)
  else do
    let socket ← load sockfd
    let sentb ← onDevice (sendLoop (txUdpPacket socket buf destAddr) attempts)
    return sentb.map .value

/-- `sendto`. -/
def sendto (sockfd : ℤ) (buf : List (BitVec 8)) (destAddr : SockaddrIn) (addrlen : BitVec 32) (attempts : ℕ) :
    TableCode (Option Outcome) := do
  if (← status sockfd) = .notAssigned then return some (.fail .EBADF)
  else do
    if (← status sockfd) ≠ .bound then do
      let retval ← bind dev sockfd ephemeral sizeofSockaddrIn
      if retval.ret < 0 then return some (.fail .EINVAL)
      else sendtoBound sockfd buf destAddr addrlen attempts
    else sendtoBound sockfd buf destAddr addrlen attempts

/-- `send`. -/
def send (sockfd : ℤ) (buf : List (BitVec 8)) (attempts : ℕ) : TableCode (Option Outcome) := do
  if (← status sockfd) = .notAssigned then return some (.fail .EBADF)
  else do
    let socket ← load sockfd
    if socket.destIp = 0 then return some (.fail .ENOTCONN)
    else sendto dev sockfd buf (peerAddr socket) sizeofSockaddrIn attempts

/-- `sendmsg`. -/
def sendmsg (sockfd : ℤ) (msg : Msghdr) (tempBuffer : ℕ → BitVec 8) (passes attempts : ℕ) : TableCode (Option Outcome) :=
  if msg.msgNamelen ≠ sizeofSockaddrIn then return some (.fail .EAFNOSUPPORT)
  else do
    if (← status sockfd) = .notAssigned then return some (.fail .EBADF)
    else match gather msg.msgIov tempBuffer passes with
      | (.going, _) => return none
      | (.refused, _) => return some (.fail .EMSGSIZE)
      | (.complete, g) => sendto dev sockfd g.payload msg.msgName msg.msgNamelen attempts

/-- `udriver_probe_port`; what lies behind the mapped registers, if it can be read, is anything as well. -/
def probePort (port : BitVec 32) : TableCode Bool := onDevice do
  let reg ← readReg ((bufferRxCtrlBaseOffset (bufferId dev port)).setWidth 14)
  return !reg.getLsbD bufferEmptyOffset

/-- The descriptors below a number: how many are ready, and the set with them. -/
def selectScan : ℕ → (ℕ → Bool) → TableCode (ℕ × (ℕ → Bool))
  | 0, readfds => return (0, readfds)
  | i + 1, readfds => do
    let found ← selectScan i readfds
    if (← status i) ≠ .bound then return found
    else do
      let socket ← load i
      if ← probePort dev (socket.srcPort.setWidth 32) then
        return (found.1 + 1, Function.update found.2 i true)
      else return found

/-- The loop of `select`; `expired` tells in which passes it finds the time elapsed. -/
def selectPasses (nfds : ℤ) (expired : ℕ → Bool) : ℕ → ℕ → (ℕ → Bool) → TableCode (Option (ℤ × (ℕ → Bool)))
  | _, 0, _ => return none
  | pass, passes + 1, readfds => do
    let found ← selectScan dev nfds.toNat readfds
    if 0 < found.1 then return some (found.1, found.2)
    else if expired pass then return some (0, found.2)
    else selectPasses nfds expired (pass + 1) passes found.2

/-- `select`, followed for one pass and some more. -/
def select (nfds : ℤ) (readfds : Option (ℕ → Bool)) (expired : ℕ → Bool) (more : ℕ) :
    TableCode (Option (ℤ × Option (ℕ → Bool))) :=
  match readfds with
  | none => return some (-1, none)
  | some _ => do
    let found ← selectPasses dev nfds expired 0 (more + 1) fun _ => false
    return found.map fun found => (found.1, some found.2)

/-- The loop of `epoll_wait` over the entries, while events are wanted. -/
def epollScan : List ListedFd → ℕ → TableCode (List EpollEvent)
  | [], _ => return []
  | _ :: _, 0 => return []
  | entry :: rest, wanted + 1 => do
    if (← status entry.sockfd) ≠ .bound then epollScan rest (wanted + 1)
    else do
      let socket ← load entry.sockfd
      if ← probePort dev (socket.srcPort.setWidth 32) then
        let events ← epollScan rest wanted
        return ⟨entry.data, epollIn⟩ :: events
      else epollScan rest (wanted + 1)

/-- The waiting loop of `epoll_wait`. -/
def epollPasses (fds : List ListedFd) (maxevents timeout : ℤ) (expired : ℕ → Bool) :
    ℕ → ℕ → TableCode (Option (List EpollEvent))
  | _, 0 => return none
  | pass, passes + 1 => do
    let events ← epollScan dev fds maxevents.toNat
    if events ≠ [] then return some events
    else if timeout = 0 then return some []
    else if 0 < timeout ∧ expired pass then return some []
    else epollPasses fds maxevents timeout expired (pass + 1) passes

/-- `epoll_wait`. -/
def epollWait (epfd maxevents timeout : ℤ) (expired : ℕ → Bool) (passes : ℕ) :
    TableCode (Option (Outcome × List EpollEvent)) :=
  match instanceOf epfd with
  | none => return some (.fail .EBADF, [])
  | some id => do
    match ← listed id with
    | none => return some (.fail .EBADF, [])
    | some fds =>
      let events ← epollPasses dev fds maxevents timeout expired 0 passes
      return events.map fun events => (.value events.length, events)

end Calls

end DescriptorTable

end UdpIpCore
