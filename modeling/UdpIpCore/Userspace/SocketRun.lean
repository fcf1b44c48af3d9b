import UdpIpCore.Clocked
import UdpIpCore.PortTable
import UdpIpCore.Userspace.Sockets

/-!
# Runs of the socket layer

An application makes one call after the other. Each call runs on the device alone, and
what the registers show to its reads is an input. Seen from outside, the descriptors and
the socket bits of the device form a `PortTable`, and every call is one action on it.
-/

namespace UdpIpCore

open Interaction

namespace UdpIpDevice

/-- The port has a ring. -/
def InRange (dev : UdpIpDevice) (port : BitVec 16) : Prop := dev.portMin ≤ port ∧ port ≤ dev.portMax

instance (dev : UdpIpDevice) : DecidablePred dev.InRange := fun _ => inferInstanceAs (Decidable (_ ∧ _))

/-- The ring of a port. -/
def ring (dev : UdpIpDevice) (port : BitVec 16) : BufferIdx := BitVec.ofNat 10 (port.toNat - dev.portMin.toNat)

/-- A port in range has its number as an index below `MAX_UDP_PORTS`. -/
theorem sub_lt (dev : UdpIpDevice) {port : BitVec 16} (h : dev.InRange port) :
    port.toNat - dev.portMin.toNat < maxUdpPorts := by
  have hmin : dev.portMin.toNat ≤ port.toNat := h.1
  have hmax : port.toNat ≤ dev.portMax.toNat := h.2
  have hnarrow := dev.narrow
  simp only [maxUdpPorts] at hnarrow ⊢
  omega

/-- Different ports in range have different rings. -/
theorem ring_inj (dev : UdpIpDevice) {port other : BitVec 16} (h : dev.InRange port) (h' : dev.InRange other)
    (hring : dev.ring port = dev.ring other) : port = other := by
  have hlt := dev.sub_lt h
  have hlt' := dev.sub_lt h'
  have hmin : dev.portMin.toNat ≤ port.toNat := h.1
  have hmin' : dev.portMin.toNat ≤ other.toNat := h'.1
  have hnat := congrArg BitVec.toNat hring
  simp only [ring, BitVec.toNat_ofNat] at hnat
  rw [Nat.mod_eq_of_lt hlt, Nat.mod_eq_of_lt hlt'] at hnat
  apply BitVec.eq_of_toNat_eq
  omega

/-- The index the driver computes for a port in range. -/
theorem bufferId_toNat (dev : UdpIpDevice) {port : BitVec 16} (h : dev.InRange port) :
    (Udriver.bufferId dev (port.setWidth 32)).toNat = port.toNat - dev.portMin.toNat := by
  have hmin : dev.portMin.toNat ≤ port.toNat := h.1
  have hport := port.isLt
  simp only [Udriver.bufferId, BitVec.toNat_sub, BitVec.toNat_setWidth_of_le (show 16 ≤ 32 by decide)]
  omega

/-- The check of `udriver_set_socket_status` keeps the ports outside of the range. -/
theorem outside_iff (dev : UdpIpDevice) (port : BitVec 16) :
    (dev.portMax.setWidth 32 < port.setWidth 32 ∨ port.setWidth 32 < dev.portMin.setWidth 32) ↔
      ¬ dev.InRange port := by
  simp only [BitVec.lt_def, BitVec.toNat_setWidth_of_le (show 16 ≤ 32 by decide), InRange, BitVec.le_def]
  omega

end UdpIpDevice

/-- The port a descriptor is bound to. -/
def UdriverSocketId.boundPort (id : UdriverSocketId) : Option (BitVec 16) :=
  if id.status = .bound then some id.socket.srcPort else none

namespace SocketLayer

open Udriver

/-- `bind` passes its checks. -/
def Binds (l : SocketLayer) (sockfd : Fd) (addr : SockaddrIn) (addrlen : BitVec 32) : Prop :=
  (l.socketFds sockfd).status = .initialized ∧ (addr.sinFamily.toNat : ℤ) = afInet ∧
    addrlen = sizeofSockaddrIn

instance (l : SocketLayer) (sockfd : Fd) (addr : SockaddrIn) (addrlen : BitVec 32) :
    Decidable (l.Binds sockfd addr addrlen) := inferInstanceAs (Decidable (_ ∧ _ ∧ _))

/-- The port a `bind` that passes its checks takes. -/
def chosenPort (r : ConfigRegs) (sockfd : Fd) (addr : SockaddrIn) : BitVec 16 :=
  if htons addr.sinPort = 0 then r.udpPortRangeH.setWidth 16 - 1 - BitVec.ofNat 16 sockfd
  else htons addr.sinPort

variable {l : SocketLayer} (dev : UdpIpDevice) (h : UserHost)

/-- `udriver_set_socket_status` sets the socket bit of a port in range, and no other. -/
theorem opensock_run_setSocketStatus (port : BitVec 16) (status : BitVec 32) (idx : BufferIdx) :
    (h.run (udriverSetSocketStatus dev (port.setWidth 32) status)).2.regs.opensock idx =
      if dev.InRange port ∧ dev.ring port = idx then decide (status = udriverSocketOpen)
      else h.regs.opensock idx := by
  rw [udriverSetSocketStatus]
  by_cases hport : dev.InRange port
  · have hring : ConfigRegs.ringOf (ConfigRegs.bufferRxCtrl (bufferId dev (port.setWidth 32)).toNat) =
        some (dev.ring port) := by
      rw [dev.bufferId_toNat hport]
      exact ConfigRegs.ringOf_of_lt (dev.sub_lt hport)
    have hset (value : BitVec 32) : (value ||| opensockMask).getLsbD bufferOpensockOffset = true := by
      simp [opensockMask, bufferOpensockOffset]
    have hclear (value : BitVec 32) : (value &&& ~~~opensockMask).getLsbD bufferOpensockOffset = false := by
      simp [opensockMask, bufferOpensockOffset]
    rw [if_neg ((dev.outside_iff port).not.mpr (not_not.mpr hport))]
    simp only [UserHost.run_bind, UserHost.run_readReg, UserHost.run_writeReg, UserHost.run_pure,
      UserHost.afterWrite, ConfigRegs.opensock_write, hring, hport, Option.some.injEq, true_and]
    by_cases hstatus : status = udriverSocketOpen
    · simp [hstatus, hset, UserHost.afterRead]
    · simp [hstatus, hclear, UserHost.afterRead]
  · rw [if_pos ((dev.outside_iff port).mpr hport), if_neg fun hboth => hport hboth.1]
    rfl

/-- `udriver_set_socket_status` reads one register for a port in range, and none for any other. -/
theorem shows_run_setSocketStatus (port : BitVec 16) (status : BitVec 32) :
    (h.run (udriverSetSocketStatus dev (port.setWidth 32) status)).2.shows =
      if dev.InRange port then fun k => h.shows (k + 1) else h.shows := by
  rw [udriverSetSocketStatus]
  by_cases hport : dev.InRange port
  · rw [if_neg ((dev.outside_iff port).not.mpr (not_not.mpr hport)), if_pos hport]
    rfl
  · rw [if_pos ((dev.outside_iff port).mpr hport), if_neg hport]
    rfl

/-- Looking up the address changes no register. -/
theorem run_bindIp_regs (addr : SockaddrIn) : (h.run (bindIp addr)).2.regs = h.regs := by
  unfold bindIp
  split <;> rfl

/-- Looking up the port gives the chosen one. -/
theorem run_bindPort (sockfd : Fd) (addr : SockaddrIn) :
    (h.run (bindPort sockfd addr)).1 = chosenPort h.regs sockfd addr ∧
      (h.run (bindPort sockfd addr)).2.regs = h.regs := by
  unfold bindPort chosenPort
  split <;> exact ⟨rfl, rfl⟩

/-- The accesses of `bind` once it has passed its checks. -/
def bindPassed (sockfd : Fd) (addr : SockaddrIn) : UserCode (BitVec 32 × BitVec 16) := do
  let ip ← bindIp addr
  let port ← bindPort sockfd addr
  let _ ← udriverSetSocketStatus dev (port.setWidth 32) udriverSocketOpen
  return (ip, port)

/-- The layer with a descriptor bound. -/
def boundTo (l : SocketLayer) (sockfd : Fd) (ip : BitVec 32) (port : BitVec 16) : SocketLayer :=
  let id := l.socketFds sockfd
  l.setFd sockfd { id with status := .bound, socket := { id.socket with srcIp := ip, srcPort := port } }

/-- A `bind` that passes its checks binds the descriptor to what it has looked up. -/
theorem run_bind_eq {sockfd : Fd} {addr : SockaddrIn} {addrlen : BitVec 32} (hbinds : l.Binds sockfd addr addrlen) :
    h.run (l.bind dev sockfd addr addrlen) =
      ((.value 0, l.boundTo sockfd (h.run (bindPassed dev sockfd addr)).1.1 (h.run (bindPassed dev sockfd addr)).1.2),
        (h.run (bindPassed dev sockfd addr)).2) := by
  obtain ⟨hstatus, hfamily, hlen⟩ := hbinds
  rw [SocketLayer.bind]
  simp [hstatus, hfamily, hlen, bindPassed, boundTo]

/-- A `bind` that passes its checks binds the descriptor and sets the socket bit of a port in range. -/
theorem run_bind_of_binds {sockfd : Fd} {addr : SockaddrIn} {addrlen : BitVec 32}
    (hbinds : l.Binds sockfd addr addrlen) :
    (∃ ip, (h.run (l.bind dev sockfd addr addrlen)).1 =
      (.value 0, l.boundTo sockfd ip (chosenPort h.regs sockfd addr))) ∧
    ∀ idx, (h.run (l.bind dev sockfd addr addrlen)).2.regs.opensock idx =
      if dev.InRange (chosenPort h.regs sockfd addr) ∧ dev.ring (chosenPort h.regs sockfd addr) = idx then true
      else h.regs.opensock idx := by
  have hport := run_bindPort (h.run (bindIp addr)).2 sockfd addr
  rw [run_bindIp_regs] at hport
  rw [run_bind_eq dev h hbinds, bindPassed]
  simp only [UserHost.run_bind, UserHost.run_pure, hport.1]
  refine ⟨⟨_, rfl⟩, fun idx => ?_⟩
  rw [opensock_run_setSocketStatus, hport.2]
  rfl

/-- A `bind` that fails a check returns -1 and changes nothing. -/
theorem run_bind_of_not_binds {sockfd : Fd} {addr : SockaddrIn} {addrlen : BitVec 32}
    (hbinds : ¬ l.Binds sockfd addr addrlen) :
    ∃ e, h.run (l.bind dev sockfd addr addrlen) = ((.fail e, l), h) := by
  rw [SocketLayer.bind]
  cases hstatus : (l.socketFds sockfd).status with
  | notAssigned => exact ⟨.EBADF, by simp⟩
  | bound => exact ⟨.EINVAL, by simp⟩
  | initialized =>
    have hargs : (addr.sinFamily.toNat : ℤ) ≠ afInet ∨ addrlen ≠ sizeofSockaddrIn := by
      by_contra hboth
      exact hbinds ⟨hstatus, not_not.mp fun hne => hboth (Or.inl hne), not_not.mp fun hne => hboth (Or.inr hne)⟩
    exact ⟨.EAFNOSUPPORT, by simp [hargs]⟩

/-- Replacing an entry replaces its port. -/
theorem boundPort_setFd (l : SocketLayer) (fd : Fd) (id : UdriverSocketId) :
    (fun other => ((l.setFd fd id).socketFds other).boundPort) =
      Function.update (fun other => (l.socketFds other).boundPort) fd id.boundPort := by
  funext other
  by_cases heq : other = fd
  · subst heq
    simp [setFd]
  · simp [setFd, heq]

/-- An entry replaced by one with the same port. -/
theorem boundPort_setFd_same {l : SocketLayer} {fd : Fd} {id : UdriverSocketId}
    (hid : id.boundPort = (l.socketFds fd).boundPort) :
    (fun other => ((l.setFd fd id).socketFds other).boundPort) = fun other => (l.socketFds other).boundPort := by
  rw [boundPort_setFd, hid]
  exact Function.update_eq_self fd _

/-- `epoll_ctl` binds nothing. -/
theorem boundPort_epollCtl (l : SocketLayer) (epfd op : ℤ) (fd : Fd) (data : BitVec 64) (events : BitVec 32) :
    (fun other => ((l.epollCtl epfd op fd data events).2.socketFds other).boundPort) =
      fun other => (l.socketFds other).boundPort := by
  have hsame (epfd' : ℤ) := @boundPort_setFd_same l fd { l.socketFds fd with epfd := epfd' } rfl
  unfold epollCtl
  split
  · rfl
  · split
    · split
      · rfl
      · split
        · rfl
        · exact hsame epfd
    · split
      · split
        · exact hsame (-1)
        · rfl
      · rfl

/-- `connect` binds nothing. -/
theorem boundPort_connect (l : SocketLayer) (sockfd : Fd) (addr : SockaddrIn) (addrlen : BitVec 32) :
    (fun other => ((l.connect sockfd addr addrlen).2.socketFds other).boundPort) =
      fun other => (l.socketFds other).boundPort := by
  unfold connect
  dsimp only
  split
  · rfl
  · split
    · rfl
    · exact boundPort_setFd_same rfl

/-- `setsockopt` binds nothing. -/
theorem boundPort_setsockopt (l : SocketLayer) (sockfd : Fd) (level optname : ℤ) :
    (fun other => ((l.setsockopt sockfd level optname).2.socketFds other).boundPort) =
      fun other => (l.socketFds other).boundPort := by
  unfold setsockopt
  dsimp only
  split
  · rfl
  · split
    · exact boundPort_setFd_same rfl
    · rfl

/-- `epoll_create` binds nothing. -/
theorem boundPort_epollCreate (l : SocketLayer) (opened : Option Fd) (allocated : Bool) :
    (fun other => ((l.epollCreate opened allocated).2.socketFds other).boundPort) =
      fun other => (l.socketFds other).boundPort := by
  unfold epollCreate
  split
  · rfl
  · split
    · split <;> rfl
    · rfl

/-- The layer after a `shutdown` that passes its checks. -/
def shutdownLayer (l : SocketLayer) (sockfd : Fd) (how : ℤ) : SocketLayer :=
  let id := l.socketFds sockfd
  let l' :=
    if how = shutWr ∨ how = shutRdwr then l.setSocket sockfd { id.socket with destIp := 0, destPort := 0 }
    else l
  if id.epfd ≠ -1 then (l'.epollCtl id.epfd epollCtlDel sockfd 0 0).2 else l'

/-- `shutdown` leaves the ports of the descriptors as they are. -/
theorem boundPort_shutdownLayer (l : SocketLayer) (sockfd : Fd) (how : ℤ) :
    (fun other => ((l.shutdownLayer sockfd how).socketFds other).boundPort) =
      fun other => (l.socketFds other).boundPort := by
  have hclear : (fun other => ((if how = shutWr ∨ how = shutRdwr then
      l.setSocket sockfd { (l.socketFds sockfd).socket with destIp := 0, destPort := 0 }
    else l).socketFds other).boundPort) = fun other => (l.socketFds other).boundPort := by
    split
    · exact boundPort_setFd_same rfl
    · rfl
  rw [← hclear, shutdownLayer]
  split
  · exact boundPort_epollCtl _ _ _ _ _ _
  · rfl

/-- `shutdown` clears the socket bit of the port only when it is called with `SHUT_RD`. -/
theorem run_shutdown {sockfd : Fd} {how : ℤ} (hstatus : (l.socketFds sockfd).status ≠ .notAssigned)
    (hhow : how = shutRd ∨ how = shutWr ∨ how = shutRdwr) :
    (h.run (l.shutdown dev sockfd how)).1 = (.value 0, l.shutdownLayer sockfd how) ∧
    ∀ idx, (h.run (l.shutdown dev sockfd how)).2.regs.opensock idx =
      if how = shutRd ∧ ∃ p, (l.socketFds sockfd).boundPort = some p ∧ dev.InRange p ∧ dev.ring p = idx then false
      else h.regs.opensock idx := by
  have hvalid : ¬ (how ≠ shutWr ∧ how ≠ shutRd ∧ how ≠ shutRdwr) := by tauto
  rw [SocketLayer.shutdown, if_neg hstatus, if_neg hvalid]
  by_cases hclears : ¬ (how = shutWr ∨ how = shutRdwr) ∧ (how = shutRd ∨ how = shutRdwr) ∧
      (l.socketFds sockfd).status = .bound
  · have hrd : how = shutRd := by tauto
    rw [if_pos hclears]
    simp only [UserHost.run_bind, UserHost.run_pure]
    refine ⟨rfl, fun idx => ?_⟩
    rw [opensock_run_setSocketStatus]
    simp [hrd, UdriverSocketId.boundPort, hclears.2.2, udriverSocketClosed, udriverSocketOpen]
  · rw [if_neg hclears]
    refine ⟨rfl, fun idx => (if_neg ?_).symm⟩
    rintro ⟨rfl, p, hp, -⟩
    refine hclears ⟨by decide, Or.inl rfl, ?_⟩
    by_contra hne
    simp [UdriverSocketId.boundPort, hne] at hp

/-- A `shutdown` that fails a check changes nothing. -/
theorem run_shutdown_fail {sockfd : Fd} {how : ℤ}
    (hfail : (l.socketFds sockfd).status = .notAssigned ∨ how ≠ shutWr ∧ how ≠ shutRd ∧ how ≠ shutRdwr) :
    ∃ e, h.run (l.shutdown dev sockfd how) = ((.fail e, l), h) := by
  rw [SocketLayer.shutdown]
  by_cases hstatus : (l.socketFds sockfd).status = .notAssigned
  · rw [if_pos hstatus]
    exact ⟨_, rfl⟩
  · rw [if_neg hstatus, if_pos (hfail.resolve_left hstatus)]
    exact ⟨_, rfl⟩

/-- Sending leaves the socket bits as they are. -/
theorem opensock_run_sendLoop (p : UdpPacket) (attempts : ℕ) :
    (h.run (sendLoop p attempts)).2.regs.opensock = h.regs.opensock := by
  have hpushed (r : ConfigRegs) : (UserHost.pushedRegs r).opensock = r.opensock := by
    have hring : ConfigRegs.ringOf RegAddr.buftxPushed = none := by decide
    funext idx
    simp [UserHost.pushedRegs, ConfigRegs.opensock_write, hring]
  induction attempts generalizing h with
  | zero => rfl
  | succ attempts ih =>
    have hsend : (h.run (udriverSend p)).2.regs.opensock = h.regs.opensock := by
      rw [UserHost.run_udriverSend]
      split
      · rfl
      · exact hpushed h.regs
    rw [sendLoop, UserHost.run_bind]
    split
    · rw [ih, hsend]
    · exact hsend

/-- The part of `sendto` after the bind leaves the descriptors and the socket bits as they are. -/
theorem run_sendtoBound (sockfd : Fd) (buf : List (BitVec 8)) (destAddr : SockaddrIn) (addrlen : BitVec 32)
    (attempts : ℕ) :
    (h.run (l.sendtoBound sockfd buf destAddr addrlen attempts)).1.2 = l ∧
      (h.run (l.sendtoBound sockfd buf destAddr addrlen attempts)).2.regs.opensock = h.regs.opensock := by
  unfold sendtoBound
  split
  · exact ⟨rfl, rfl⟩
  · rw [UserHost.run_bind, UserHost.run_pure]
    exact ⟨rfl, opensock_run_sendLoop h _ attempts⟩

/-- The descriptors and the socket bits as a table. -/
def ports (l : SocketLayer) (r : ConfigRegs) (readShut : Fd → Bool) : PortTable Fd (BitVec 16) where
  port := fun fd => (l.socketFds fd).boundPort
  shut := readShut
  opened := fun p => decide (dev.InRange p) && r.opensock (dev.ring p)

variable {dev} {readShut : Fd → Bool}

/-- Nothing is visible but the ports and the socket bits. -/
theorem ports_congr {l' : SocketLayer} {r r' : ConfigRegs}
    (hport : (fun fd => (l'.socketFds fd).boundPort) = fun fd => (l.socketFds fd).boundPort)
    (hopen : r'.opensock = r.opensock) : l'.ports dev r' readShut = l.ports dev r readShut := by
  rw [ports, ports, hport, hopen]

/-- A `bind` that passes its checks is a bind of the table. -/
theorem ports_bind {sockfd : Fd} {addr : SockaddrIn} {addrlen : BitVec 32} (hbinds : l.Binds sockfd addr addrlen) :
    (h.run (l.bind dev sockfd addr addrlen)).1.2.ports dev (h.run (l.bind dev sockfd addr addrlen)).2.regs readShut =
      (l.ports dev h.regs readShut).apply dev.InRange (.bind sockfd (chosenPort h.regs sockfd addr)) := by
  obtain ⟨⟨ip, hlayer⟩, hopen⟩ := run_bind_of_binds dev h hbinds
  rw [ports, PortTable.apply, hlayer]
  congr 1
  · exact boundPort_setFd _ _ _
  · funext p
    rw [hopen]
    by_cases hp : dev.InRange p
    · have hring : dev.InRange (chosenPort h.regs sockfd addr) ∧ dev.ring (chosenPort h.regs sockfd addr) = dev.ring p ↔
          dev.InRange (chosenPort h.regs sockfd addr) ∧ p = chosenPort h.regs sockfd addr :=
        and_congr_right fun hchosen => ⟨fun heq => dev.ring_inj hp hchosen heq.symm, fun heq => heq ▸ rfl⟩
      rw [if_congr hring rfl rfl]
      by_cases hchosen : dev.InRange (chosenPort h.regs sockfd addr)
      · by_cases heq : p = chosenPort h.regs sockfd addr
        · simp [ports, hchosen, heq]
        · simp [ports, hp, hchosen, heq]
      · simp [ports, hp, hchosen]
    · by_cases hchosen : dev.InRange (chosenPort h.regs sockfd addr)
      · have hne : p ≠ chosenPort h.regs sockfd addr := fun heq => hp (heq ▸ hchosen)
        simp [ports, hp, hchosen, hne]
      · simp [ports, hp, hchosen]

/-- The `bind` of `sendto` fails only on a descriptor that is bound or not assigned. -/
theorem binds_ephemeral {sockfd : Fd} :
    l.Binds sockfd ephemeral sizeofSockaddrIn ↔ (l.socketFds sockfd).status = .initialized :=
  ⟨And.left, fun hstatus => ⟨hstatus, by decide, rfl⟩⟩

/-- `sendto` on an unbound descriptor is a bind of the table. -/
theorem ports_sendto {sockfd : Fd} (hstatus : (l.socketFds sockfd).status = .initialized)
    (buf : List (BitVec 8)) (destAddr : SockaddrIn) (addrlen : BitVec 32) (attempts : ℕ) :
    (h.run (l.sendto dev sockfd buf destAddr addrlen attempts)).1.2.ports dev
        (h.run (l.sendto dev sockfd buf destAddr addrlen attempts)).2.regs readShut =
      (l.ports dev h.regs readShut).apply dev.InRange (.bind sockfd (chosenPort h.regs sockfd ephemeral)) := by
  have hbinds := binds_ephemeral.mpr hstatus
  obtain ⟨⟨ip, hlayer⟩, -⟩ := run_bind_of_binds dev h hbinds
  have hret : ¬ (h.run (l.bind dev sockfd ephemeral sizeofSockaddrIn)).1.1.ret < 0 := by
    rw [hlayer]
    exact Int.lt_irrefl 0
  have hrest := run_sendtoBound (l := (h.run (l.bind dev sockfd ephemeral sizeofSockaddrIn)).1.2)
    (h.run (l.bind dev sockfd ephemeral sizeofSockaddrIn)).2 sockfd buf destAddr addrlen attempts
  rw [sendto, if_neg (by simp [hstatus]), if_pos (by simp [hstatus]), UserHost.run_bind, if_neg hret,
    ← ports_bind h hbinds]
  exact ports_congr (by rw [hrest.1]) hrest.2

/-- `sendto` on any other descriptor leaves the table as it is. -/
theorem ports_sendto_keep {sockfd : Fd} (hstatus : (l.socketFds sockfd).status ≠ .initialized)
    (buf : List (BitVec 8)) (destAddr : SockaddrIn) (addrlen : BitVec 32) (attempts : ℕ) :
    (h.run (l.sendto dev sockfd buf destAddr addrlen attempts)).1.2.ports dev
        (h.run (l.sendto dev sockfd buf destAddr addrlen attempts)).2.regs readShut =
      l.ports dev h.regs readShut := by
  rw [sendto]
  cases hcase : (l.socketFds sockfd).status with
  | notAssigned => rfl
  | initialized => exact absurd hcase hstatus
  | bound =>
    have hrest := run_sendtoBound (l := l) h sockfd buf destAddr addrlen attempts
    rw [if_neg (by decide), if_neg (by decide)]
    exact ports_congr (by rw [hrest.1]) hrest.2

/-- A `shutdown` that passes its checks. -/
theorem ports_shutdown {sockfd : Fd} {how : ℤ} (hstatus : (l.socketFds sockfd).status ≠ .notAssigned)
    (hhow : how = shutRd ∨ how = shutWr ∨ how = shutRdwr) :
    (h.run (l.shutdown dev sockfd how)).1.2.ports dev (h.run (l.shutdown dev sockfd how)).2.regs readShut =
      { (l.ports dev h.regs readShut) with
        opened := ((l.ports dev h.regs readShut).apply dev.InRange (.shut sockfd (how = shutRd))).opened } := by
  obtain ⟨hlayer, hopen⟩ := run_shutdown dev h hstatus hhow
  rw [ports, hlayer, boundPort_shutdownLayer]
  simp only [ports, PortTable.apply, PortTable.mk.injEq, true_and]
  funext p
  rw [hopen]
  by_cases hp : dev.InRange p
  · have hring : (∃ q, (l.socketFds sockfd).boundPort = some q ∧ dev.InRange q ∧ dev.ring q = dev.ring p) ↔
        (l.socketFds sockfd).boundPort = some p := by
      constructor
      · rintro ⟨q, hq, hqrange, heq⟩
        rwa [dev.ring_inj hqrange hp heq] at hq
      · exact fun hport => ⟨p, hport, hp, rfl⟩
    by_cases hrd : how = shutRd <;> by_cases hport : (l.socketFds sockfd).boundPort = some p <;>
      simp [hp, hring, hrd, hport]
  · simp [hp]

/-- `close` on an assigned descriptor releases its port and leaves the socket bits as they are. -/
theorem ports_close {fd : Fd} {libc : LibcClose} (hresolved : libc.resolved = true)
    (hstatus : (l.socketFds fd).status ≠ .notAssigned) :
    (h.run (l.close dev fd libc)).1.2.ports dev (h.run (l.close dev fd libc)).2.regs readShut =
      (l.ports dev h.regs readShut).apply dev.InRange (.release fd) := by
  have hshutdown := @ports_shutdown l dev h readShut _ _ hstatus (Or.inr (Or.inr rfl))
  rw [close, if_neg (by simp [hresolved]), if_neg hstatus, UserHost.run_bind, UserHost.run_pure]
  have hport := congrArg PortTable.port hshutdown
  have hopened := congrArg PortTable.opened hshutdown
  simp only [ports] at hport hopened
  rw [ports, PortTable.apply, boundPort_setFd, hport]
  congr 1

end SocketLayer

/-- The calls of an application; `attempts` bounds how long a call that sends is followed. -/
inductive ApiCall
  | socket (domain type : ℤ) (opened : Option Fd) (allocated : Bool)
  | shutdown (sockfd : Fd) (how : ℤ)
  | close (fd : Fd) (libc : SocketLayer.LibcClose)
  | bind (sockfd : Fd) (addr : SockaddrIn) (addrlen : BitVec 32)
  | connect (sockfd : Fd) (addr : SockaddrIn) (addrlen : BitVec 32)
  | setsockopt (sockfd : Fd) (level optname : ℤ)
  | sendto (sockfd : Fd) (buf : List (BitVec 8)) (destAddr : SockaddrIn) (addrlen : BitVec 32) (attempts : ℕ)
  | send (sockfd : Fd) (buf : List (BitVec 8)) (attempts : ℕ)
  | epollCreate (opened : Option Fd) (allocated : Bool)
  | epollCtl (epfd op : ℤ) (fd : Fd) (data : BitVec 64) (events : BitVec 32)

/-- A call that does not block. -/
def returned (r : Outcome × SocketLayer) : Option Outcome × SocketLayer := (some r.1, r.2)

/-- The code of a call. -/
def ApiCall.code (dev : UdpIpDevice) (l : SocketLayer) : ApiCall → UserCode (Option Outcome × SocketLayer)
  | socket domain type opened allocated => return returned (l.socket domain type opened allocated)
  | shutdown sockfd how => do return returned (← l.shutdown dev sockfd how)
  | close fd libc => do return returned (← l.close dev fd libc)
  | bind sockfd addr addrlen => do return returned (← l.bind dev sockfd addr addrlen)
  | connect sockfd addr addrlen => return returned (l.connect sockfd addr addrlen)
  | setsockopt sockfd level optname => return returned (l.setsockopt sockfd level optname)
  | sendto sockfd buf destAddr addrlen attempts => l.sendto dev sockfd buf destAddr addrlen attempts
  | send sockfd buf attempts => l.send dev sockfd buf attempts
  | epollCreate opened allocated => return returned (l.epollCreate opened allocated)
  | epollCtl epfd op fd data events => return returned (l.epollCtl epfd op fd data events)

/-- One call, with what the device shows to its reads. -/
structure ApiEvent where
  call : ApiCall
  shows : ℕ → StatusInputs

/-- The library and the device, with the descriptors that were shut down for reading. -/
structure SocketRun where
  layer : SocketLayer
  host : UserHost
  readShut : Fd → Bool

namespace SocketRun

open SocketLayer

variable (dev : UdpIpDevice)

/-- The library after `lib_init`, on a device with every socket bit closed. -/
def start (regs : ConfigRegs) (memory : ℕ → BitVec 8) (shows : ℕ → StatusInputs) : SocketRun where
  layer := fdsInit
  host := ⟨{ regs with bufrxTemp := fun idx => regs.bufrxTemp idx &&& ~~~Udriver.opensockMask }, memory, 0, shows⟩
  readShut := fun _ => false

/-- The host at the beginning of a call. -/
def hostAt (s : SocketRun) (e : ApiEvent) : UserHost := { s.host with shows := e.shows }

/-- What a call returns and leaves behind. -/
def result (s : SocketRun) (e : ApiEvent) : (Option Outcome × SocketLayer) × UserHost :=
  (s.hostAt e).run (e.call.code dev s.layer)

/-- The descriptors shut down for reading after a call. -/
def readShutAfter (s : SocketRun) (call : ApiCall) (ret : Option Outcome) : Fd → Bool :=
  match call with
  | .shutdown sockfd how =>
    if ret = some (.value 0) ∧ (how = shutRd ∨ how = shutRdwr) then Function.update s.readShut sockfd true
    else s.readShut
  | .socket _ _ _ _ => fun fd => if ret = some (.value fd) then false else s.readShut fd
  | _ => s.readShut

/-- One call. -/
def step (s : SocketRun) (e : ApiEvent) : SocketRun where
  layer := (s.result dev e).1.2
  host := (s.result dev e).2
  readShut := s.readShutAfter e.call (s.result dev e).1.1

/-- All sequences of calls. -/
def machine : Clocked.Machine SocketRun ApiEvent where
  step := step dev
  legal := fun _ _ => True

/-- The descriptors and the socket bits. -/
def ports (s : SocketRun) : PortTable Fd (BitVec 16) := s.layer.ports dev s.host.regs s.readShut

/-- The `bind` a call makes: the call itself, or the implicit one of `sendto`. -/
def bindOf (s : SocketRun) : ApiCall → Option (Fd × SockaddrIn × BitVec 32)
  | .bind sockfd addr addrlen => some (sockfd, addr, addrlen)
  | .sendto sockfd _ _ _ _ =>
    if (s.layer.socketFds sockfd).status = .initialized then some (sockfd, ephemeral, sizeofSockaddrIn) else none
  | .send sockfd _ _ =>
    if (s.layer.socketFds sockfd).status = .initialized ∧ (s.layer.socketFds sockfd).socket.destIp ≠ 0 then
      some (sockfd, ephemeral, sizeofSockaddrIn)
    else none
  | _ => none

/-- A `bind` as an action on the port table. -/
def bindAction (s : SocketRun) : Option (Fd × SockaddrIn × BitVec 32) → PortAction Fd (BitVec 16)
  | some (sockfd, addr, addrlen) =>
    if s.layer.Binds sockfd addr addrlen then .bind sockfd (chosenPort s.host.regs sockfd addr) else .keep
  | none => .keep

/-- A call as an action on the port table. -/
def action (s : SocketRun) (call : ApiCall) : PortAction Fd (BitVec 16) :=
  match call with
  | .socket domain type opened allocated =>
    match s.layer.fdsGetFreeFd opened with
    | some fd => if (domain = afInet ∨ type = sockDgram) ∧ allocated then .create fd else .keep
    | none => .keep
  | .shutdown sockfd how =>
    if (s.layer.socketFds sockfd).status = .notAssigned then .keep
    else if how = shutRd then .shut sockfd true
    else if how = shutRdwr then .shut sockfd false
    else .keep
  | .close fd libc =>
    if libc.resolved ∧ (s.layer.socketFds fd).status ≠ .notAssigned then .release fd else .keep
  | .bind _ _ _ | .sendto _ _ _ _ _ | .send _ _ _ => s.bindAction (s.bindOf call)
  | .connect _ _ _ | .setsockopt _ _ _ | .epollCreate _ _ | .epollCtl _ _ _ _ _ => .keep

/-- Every sequence of calls is possible. -/
theorem legal_machine (events : List ApiEvent) (s : SocketRun) : (machine dev).Legal s events := by
  induction events generalizing s with
  | nil => trivial
  | cons e rest ih => exact ⟨trivial, ih _⟩

variable {dev} {s : SocketRun}

/-- A call binds only through a `bind` that passes its checks. -/
theorem action_bind {call : ApiCall} {fd : Fd} {p : BitVec 16} (h : s.action call = .bind fd p) :
    ∃ addr addrlen, s.bindOf call = some (fd, addr, addrlen) ∧ s.layer.Binds fd addr addrlen ∧
      p = chosenPort s.host.regs fd addr := by
  have hbind (b : Option (Fd × SockaddrIn × BitVec 32)) (hb : s.bindAction b = .bind fd p) :
      ∃ addr addrlen, b = some (fd, addr, addrlen) ∧ s.layer.Binds fd addr addrlen ∧
        p = chosenPort s.host.regs fd addr := by
    cases b with
    | none => cases hb
    | some args =>
      obtain ⟨sockfd, addr, addrlen⟩ := args
      rw [bindAction] at hb
      split at hb
      · rename_i hbinds
        cases hb
        exact ⟨addr, addrlen, rfl, hbinds, rfl⟩
      · cases hb
  cases call with
  | bind | sendto | send =>
    rw [action] at h
    exact hbind _ h
  | connect | setsockopt | epollCreate | epollCtl => cases h
  | close =>
    rw [action] at h
    split at h <;> cases h
  | shutdown =>
    rw [action] at h
    split at h
    · cases h
    · split at h
      · cases h
      · split at h <;> cases h
  | socket =>
    rw [action] at h
    split at h
    · split at h <;> cases h
    · cases h

/-- A call creates only a descriptor that was not assigned. -/
theorem action_create {call : ApiCall} {fd : Fd} (h : s.action call = .create fd) :
    (s.layer.socketFds fd).status = .notAssigned := by
  have hbind (b : Option (Fd × SockaddrIn × BitVec 32)) : s.bindAction b ≠ .create fd := by
    cases b with
    | none => exact nofun
    | some args =>
      rw [bindAction]
      split <;> exact nofun
  cases call with
  | bind | sendto | send =>
    rw [action] at h
    exact absurd h (hbind _)
  | connect | setsockopt | epollCreate | epollCtl => cases h
  | close =>
    rw [action] at h
    split at h <;> cases h
  | shutdown =>
    rw [action] at h
    split at h
    · cases h
    · split at h
      · cases h
      · split at h <;> cases h
  | socket domain type opened allocated =>
    rw [action] at h
    split at h
    · rename_i hfree
      split at h
      · cases h
        simpa using (Option.filter_eq_some_iff.mp hfree).2
      · cases h
    · cases h

/-- A call creates or binds only a descriptor that is not bound. -/
theorem valid_action (s : SocketRun) (call : ApiCall) : (s.ports dev).Valid (s.action call) := by
  have hunbound (fd : Fd) (hstatus : (s.layer.socketFds fd).status ≠ .bound) : (s.ports dev).port fd = none :=
    if_neg hstatus
  cases haction : s.action call with
  | keep | shut | release => trivial
  | create fd => exact hunbound fd (by simp [action_create haction])
  | bind fd p =>
    obtain ⟨addr, addrlen, -, hbinds, -⟩ := action_bind haction
    exact hunbound fd (by simp [hbinds.1])

/-- A fresh descriptor is not bound, and not shut down. -/
theorem ports_step_socket (s : SocketRun) (domain type : ℤ) (opened : Option Fd) (allocated : Bool)
    (shows : ℕ → StatusInputs) :
    (s.step dev ⟨.socket domain type opened allocated, shows⟩).ports dev =
      (s.ports dev).apply dev.InRange (s.action (.socket domain type opened allocated)) := by
  have hfail (e : Errno) : (fun fd : Fd => if some (Outcome.fail e) = some (Outcome.value fd) then false else s.readShut fd) =
      s.readShut := by
    funext fd
    simp [Outcome.fail, Outcome.value]
  have hkeep (e : Errno) (hresult : s.layer.socket domain type opened allocated = (.fail e, s.layer)) :
      (s.step dev ⟨.socket domain type opened allocated, shows⟩).ports dev = s.ports dev := by
    change (s.layer.socket domain type opened allocated).2.ports dev s.host.regs
      (fun fd : Fd => if some (s.layer.socket domain type opened allocated).1 = some (Outcome.value fd) then false
        else s.readShut fd) = _
    rw [hresult, hfail]
    rfl
  cases hfree : s.layer.fdsGetFreeFd opened with
  | none =>
    rw [action, hfree]
    by_cases hargs : domain ≠ afInet ∧ type ≠ sockDgram
    · exact hkeep .EINVAL (by simp [SocketLayer.socket, hargs])
    · exact hkeep .ENOMEM (by rw [SocketLayer.socket, if_neg hargs, fdCreate, hfree])
  | some fd =>
    rw [action, hfree]
    by_cases hargs : domain ≠ afInet ∧ type ≠ sockDgram
    · have hnot : ¬ ((domain = afInet ∨ type = sockDgram) ∧ allocated = true) := by tauto
      simp only [if_neg hnot]
      exact hkeep .EINVAL (by simp [SocketLayer.socket, hargs])
    · have hvalid : domain = afInet ∨ type = sockDgram := by tauto
      cases allocated with
      | false =>
        simp only [Bool.false_eq_true, and_false, if_false]
        exact hkeep .ENOMEM (by rw [SocketLayer.socket, if_neg hargs, fdCreate, hfree]; rfl)
      | true =>
        have hresult : s.layer.socket domain type opened true =
            (.value fd, s.layer.setFd fd ⟨-1, .initialized, .zero⟩) := by
          rw [SocketLayer.socket, if_neg hargs, fdCreate, hfree]
          rfl
        have hstatus : (s.layer.socketFds fd).status = .notAssigned := by
          have hfilter := (Option.filter_eq_some_iff.mp hfree).2
          simpa using hfilter
        have hshut : (fun other : Fd => if some (Outcome.value fd) = some (Outcome.value other) then false
            else s.readShut other) = Function.update s.readShut fd false := by
          funext other
          by_cases heq : other = fd
          · simp [heq]
          · have hne : ¬ ((fd.val : ℤ) = other.val) := fun h => heq (Fin.ext (by omega))
            simp [Outcome.value, hne, heq]
        simp only [hvalid, true_and, if_true]
        change (s.layer.socket domain type opened true).2.ports dev s.host.regs
          (fun other : Fd => if some (s.layer.socket domain type opened true).1 = some (Outcome.value other) then false
            else s.readShut other) = _
        rw [hresult, hshut]
        refine ports_congr (boundPort_setFd_same ?_) rfl
        simp [UdriverSocketId.boundPort, hstatus]

/-- `shutdown` closes the port only with `SHUT_RD`. -/
theorem ports_step_shutdown (s : SocketRun) (sockfd : Fd) (how : ℤ) (shows : ℕ → StatusInputs) :
    (s.step dev ⟨.shutdown sockfd how, shows⟩).ports dev =
      (s.ports dev).apply dev.InRange (s.action (.shutdown sockfd how)) := by
  let h := s.hostAt ⟨.shutdown sockfd how, shows⟩
  have hresult : s.result dev ⟨.shutdown sockfd how, shows⟩ =
      (returned (h.run (s.layer.shutdown dev sockfd how)).1, (h.run (s.layer.shutdown dev sockfd how)).2) := by
    rw [result, ApiCall.code, UserHost.run_bind, UserHost.run_pure]
  have hstep : (s.step dev ⟨.shutdown sockfd how, shows⟩).ports dev =
      (h.run (s.layer.shutdown dev sockfd how)).1.2.ports dev (h.run (s.layer.shutdown dev sockfd how)).2.regs
        (if some (h.run (s.layer.shutdown dev sockfd how)).1.1 = some (.value 0) ∧ (how = shutRd ∨ how = shutRdwr) then
          Function.update s.readShut sockfd true
        else s.readShut) := by
    rw [ports, step, hresult]
    rfl
  rw [hstep]
  by_cases hchecks : (s.layer.socketFds sockfd).status ≠ .notAssigned ∧ (how = shutRd ∨ how = shutWr ∨ how = shutRdwr)
  · obtain ⟨hstatus, hhow⟩ := hchecks
    rw [ports_shutdown h hstatus hhow, (run_shutdown dev h hstatus hhow).1, action, if_neg hstatus]
    rcases hhow with rfl | rfl | rfl
    · rfl
    · simp [shutRd, shutWr, shutRdwr, ports, SocketLayer.ports, PortTable.apply, h, hostAt]
    · simp [shutRd, shutRdwr, ports, SocketLayer.ports, PortTable.apply, h, hostAt]
  · have hfail : (s.layer.socketFds sockfd).status = .notAssigned ∨ how ≠ shutWr ∧ how ≠ shutRd ∧ how ≠ shutRdwr := by
      tauto
    obtain ⟨e, hrun⟩ := run_shutdown_fail dev h hfail
    have haction : s.action (.shutdown sockfd how) = .keep := by
      rcases hfail with hstatus | ⟨-, hrd, hrdwr⟩
      · rw [action, if_pos hstatus]
      · rw [action, if_neg hrd, if_neg hrdwr, ite_self]
    rw [hrun, haction]
    simp [Outcome.fail, Outcome.value, ports, PortTable.apply, h, hostAt]

/-- `close` leaves the socket bits as they are. -/
theorem ports_step_close (s : SocketRun) (fd : Fd) (libc : LibcClose) (shows : ℕ → StatusInputs) :
    (s.step dev ⟨.close fd libc, shows⟩).ports dev = (s.ports dev).apply dev.InRange (s.action (.close fd libc)) := by
  let h := s.hostAt ⟨.close fd libc, shows⟩
  have hstep : (s.step dev ⟨.close fd libc, shows⟩).ports dev =
      (h.run (s.layer.close dev fd libc)).1.2.ports dev (h.run (s.layer.close dev fd libc)).2.regs s.readShut := by
    rw [ports, step, result, ApiCall.code, UserHost.run_bind, UserHost.run_pure]
    rfl
  rw [hstep, action]
  by_cases hchecks : libc.resolved = true ∧ (s.layer.socketFds fd).status ≠ .notAssigned
  · rw [if_pos hchecks, ports_close h hchecks.1 hchecks.2]
    rfl
  · rw [if_neg hchecks, SocketLayer.close]
    by_cases hresolved : libc.resolved = true
    · have hstatus : (s.layer.socketFds fd).status = .notAssigned := by tauto
      rw [if_neg (not_not.mpr hresolved), if_pos hstatus]
      rfl
    · rw [if_pos hresolved]
      rfl

/-- A call of `bind` that passes its checks binds the descriptor, any other one keeps the table. -/
theorem ports_step_bind (s : SocketRun) (sockfd : Fd) (addr : SockaddrIn) (addrlen : BitVec 32)
    (shows : ℕ → StatusInputs) :
    (s.step dev ⟨.bind sockfd addr addrlen, shows⟩).ports dev =
      (s.ports dev).apply dev.InRange (s.action (.bind sockfd addr addrlen)) := by
  let h := s.hostAt ⟨.bind sockfd addr addrlen, shows⟩
  have hstep : (s.step dev ⟨.bind sockfd addr addrlen, shows⟩).ports dev =
      (h.run (s.layer.bind dev sockfd addr addrlen)).1.2.ports dev
        (h.run (s.layer.bind dev sockfd addr addrlen)).2.regs s.readShut := by
    rw [ports, step, result, ApiCall.code, UserHost.run_bind, UserHost.run_pure]
    rfl
  rw [hstep, action]
  by_cases hbinds : s.layer.Binds sockfd addr addrlen
  · simp only [bindOf, bindAction, if_pos hbinds]
    exact ports_bind h hbinds
  · simp only [bindOf, bindAction, if_neg hbinds]
    obtain ⟨e, hrun⟩ := run_bind_of_not_binds dev h hbinds
    rw [hrun]
    rfl

/-- Every call is its action on the port table. -/
theorem ports_step (s : SocketRun) (e : ApiEvent) :
    (s.step dev e).ports dev = (s.ports dev).apply dev.InRange (s.action e.call) := by
  obtain ⟨call, shows⟩ := e
  cases call with
  | socket domain type opened allocated => exact ports_step_socket s domain type opened allocated shows
  | shutdown sockfd how => exact ports_step_shutdown s sockfd how shows
  | close fd libc => exact ports_step_close s fd libc shows
  | bind sockfd addr addrlen => exact ports_step_bind s sockfd addr addrlen shows
  | connect sockfd addr addrlen => exact ports_congr (boundPort_connect s.layer sockfd addr addrlen) rfl
  | setsockopt sockfd level optname => exact ports_congr (boundPort_setsockopt s.layer sockfd level optname) rfl
  | epollCtl epfd op fd data events => exact ports_congr (boundPort_epollCtl s.layer epfd op fd data events) rfl
  | epollCreate opened allocated => exact ports_congr (boundPort_epollCreate s.layer opened allocated) rfl
  | sendto sockfd buf destAddr addrlen attempts =>
    rw [action]
    by_cases hstatus : (s.layer.socketFds sockfd).status = .initialized
    · simp only [bindOf, bindAction, if_pos hstatus, if_pos (binds_ephemeral.mpr hstatus)]
      exact ports_sendto (s.hostAt _) hstatus buf destAddr addrlen attempts
    · simp only [bindOf, bindAction, if_neg hstatus]
      exact ports_sendto_keep (s.hostAt _) hstatus buf destAddr addrlen attempts
  | send sockfd buf attempts =>
    rw [action]
    have hkeep (hret : Option Outcome) (hrun : s.layer.send dev sockfd buf attempts = pure (hret, s.layer)) :
        (s.step dev ⟨.send sockfd buf attempts, shows⟩).ports dev = s.ports dev := by
      rw [ports, step, result, ApiCall.code, hrun]
      rfl
    by_cases hassigned : (s.layer.socketFds sockfd).status = .notAssigned
    · simp only [bindOf, bindAction, hassigned, reduceCtorEq, false_and, if_false]
      exact hkeep _ (by rw [SocketLayer.send, if_pos hassigned])
    · by_cases hpeer : (s.layer.socketFds sockfd).socket.destIp = 0
      · simp only [bindOf, bindAction, hpeer, ne_eq, not_true_eq_false, and_false, if_false]
        exact hkeep _ (by rw [SocketLayer.send, if_neg hassigned, if_pos hpeer])
      · have hsend : s.layer.send dev sockfd buf attempts = s.layer.sendto dev sockfd buf
            (peerAddr (s.layer.socketFds sockfd).socket) sizeofSockaddrIn attempts := by
          rw [SocketLayer.send, if_neg hassigned, if_neg hpeer]
        have hstep : (s.step dev ⟨.send sockfd buf attempts, shows⟩).ports dev =
            (s.step dev ⟨.sendto sockfd buf (peerAddr (s.layer.socketFds sockfd).socket) sizeofSockaddrIn attempts,
              shows⟩).ports dev := by
          rw [ports, ports, step, step, result, result, ApiCall.code, ApiCall.code, hsend]
          rfl
        rw [hstep]
        by_cases hstatus : (s.layer.socketFds sockfd).status = .initialized
        · simp only [bindOf, bindAction, hstatus, hpeer, ne_eq, not_false_eq_true, and_self, if_true,
            if_pos (binds_ephemeral.mpr hstatus)]
          exact ports_sendto (s.hostAt _) hstatus buf _ sizeofSockaddrIn attempts
        · simp only [bindOf, bindAction, hstatus, false_and, if_false]
          exact ports_sendto_keep (s.hostAt _) hstatus buf _ sizeofSockaddrIn attempts

end SocketRun

end UdpIpCore
