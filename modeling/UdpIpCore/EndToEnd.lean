import UdpIpCore.Datagram
import UdpIpCore.Kernel.NapiPoll
import UdpIpCore.Kernel.PktDecompose
import UdpIpCore.Kernel.StartXmit
import UdpIpCore.Userspace.SendOnce

/-!
# From one node to another

What one node sends is what another one receives: the datagram passes from the caller through the
slot of the TX ring to the UDP stack, and from the UDP stack through a slot of an RX ring to the
caller, with the user-space driver or the network driver on either side.
-/

namespace UdpIpCore

open Interaction

/-- The UDP stack is presented the datagram: its header, and one frame with its payload. -/
structure TxSlot.Presents (s : TxSlot) (d : Datagram) : Prop where
  header : s.header = d.txHeader
  framed : Framing.Frame Beat.tlast (s.payload TxSlot.payloadBeats)
  bytes : (s.payload TxSlot.payloadBeats).flatMap Beat.kept = d.payload

/-- So is what is in a slot, if it has a payload of at least a word. -/
theorem Datagram.In.presents {d : Datagram} {slot : Slot} (h : d.In slot) (hword : 8 ≤ d.payload.length) :
    slot.words.Presents d := ⟨h.header_words, (h.frame hword).1, (h.frame hword).2⟩

namespace SocketLayer

open Udriver

variable {dev : UdpIpDevice} {l : SocketLayer} {h : UserHost} {fd : Fd} {buf : List (BitVec 8)} {addr : SockaddrIn}
  {attempts : ℕ}

/-- The datagram a socket sends to an address. -/
def datagram (socket : UdriverSocket) (addr : SockaddrIn) (buf : List (BitVec 8)) (hfits : buf.length ≤ 2008) : Datagram :=
  ⟨socket.srcIp, socket.srcPort, htonl addr.sinAddr, htons addr.sinPort, buf, hfits⟩

/-- A slot of the TX ring in the shared memory. -/
def txSlotAt (memory : ℕ → BitVec 8) (head : BitVec 5) : Slot :=
  fun k => memory (bufTxOffsetBytes + head.toNat * bufferElemMaxSize + k)

/-- The packet that is handed to the driver is the datagram. -/
theorem packet_datagram (socket : UdriverSocket) (hfits : buf.length ≤ 2008) :
    (datagram socket addr buf hfits).packet = txUdpPacket socket buf addr := rfl

/-- The slot the packet of a call goes to that finds room in the ring after `first` looks at it. -/
def sentSlot (dev : UdpIpDevice) (l : SocketLayer) (h : UserHost) (fd : Fd) (first : ℕ) (h' : UserHost) : Slot :=
  txSlotAt h'.memory (h.shows (readsBefore dev l h fd + (first + 1))).buftxHead

/-- The ring is full until the call looks at it once more. -/
structure RoomAfter (dev : UdpIpDevice) (l : SocketLayer) (h : UserHost) (fd : Fd) (first : ℕ) : Prop where
  full : RingFull (fun k => h.shows (readsBefore dev l h fd + k)) first
  free : (h.shows (readsBefore dev l h fd + first)).buftxFull = false

/-- `sendto` puts its datagram into a slot of the ring. -/
theorem sendto_in_slot (hfd : (l.socketFds fd).status ≠ .notAssigned) {first : ℕ} (hroom : RoomAfter dev l h fd first)
    (hfirst : first < attempts) (addr : SockaddrIn) (hmin : 1 ≤ buf.length) (hmax : buf.length ≤ 2008) :
    let r := h.run (l.sendto dev fd buf addr sizeofSockaddrIn attempts)
    let d := datagram (r.1.2.socketFds fd).socket addr buf hmax
    r.1.1 = some (.value buf.length) ∧ r.2.pushes = h.pushes + 1 ∧ d.In (sentSlot dev l h fd first r.2) := by
  have hnotfull : ¬ RingFull (fun k => h.shows (readsBefore dev l h fd + k)) attempts := fun hall =>
    Bool.noConfusion ((hall first hfirst).symm.trans hroom.free)
  obtain ⟨l', h', hprepared⟩ := exists_prepared dev l h hfd
  obtain ⟨hret, first', hfull, hfree, hsent⟩ := hprepared.sent_of_fits addr hnotfull hmin hmax
  obtain rfl : first' = first := first_unique hfull hfree hroom.full hroom.free
  exact ⟨hret, hsent.pushes, hsent.slot⟩

/-- `sendto` sends its datagram: the UDP stack is presented it once the slot is read. -/
theorem sendto_presents (hfd : (l.socketFds fd).status ≠ .notAssigned) {first : ℕ} (hroom : RoomAfter dev l h fd first)
    (hfirst : first < attempts) (hmin : 8 ≤ buf.length) (hmax : buf.length ≤ 2008) :
    let r := h.run (l.sendto dev fd buf addr sizeofSockaddrIn attempts)
    r.1.1 = some (.value buf.length) ∧ r.2.pushes = h.pushes + 1 ∧
      (sentSlot dev l h fd first r.2).words.Presents (datagram (r.1.2.socketFds fd).socket addr buf hmax) := by
  obtain ⟨hret, hpushes, hin⟩ := sendto_in_slot hfd hroom hfirst addr (by omega) hmax
  exact ⟨hret, hpushes, hin.presents hmin⟩

/-- Eight bytes for port 7400. -/
def eightBytes : List (BitVec 8) := [1, 2, 3, 4, 5, 6, 7, 8]

/-- The ring has room at once. -/
theorem roomAfter_idle : RoomAfter SocketRun.localPorts boundSocket idleHost 3 0 := ⟨fun k hk => absurd hk (Nat.not_lt_zero k), rfl⟩

/-- They are sent. -/
theorem presents_eightBytes :
    let r := idleHost.run (boundSocket.sendto SocketRun.localPorts 3 eightBytes (inetAddr 0xC0A80102 7400) sizeofSockaddrIn 1)
    r.1.1 = some (.value 8) ∧ r.2.pushes = idleHost.pushes + 1 ∧
      (sentSlot SocketRun.localPorts boundSocket idleHost 3 0 r.2).words.Presents
        (datagram (r.1.2.socketFds 3).socket (inetAddr 0xC0A80102 7400) eightBytes (by decide)) :=
  sendto_presents (by decide) roomAfter_idle (by decide) (by decide) (by decide)

end SocketLayer

namespace Kernel

open ByteOrder

variable {h : NetHost} {skb : SkBuff} {udpPacket : RawPacket ℕ}

/-- What an accepted buffer is composed to, with the conditions on it. -/
theorem compose_cases (hcompose : compose skb = some udpPacket) :
    udpPacket = { payloadSizeBytes := skb.udpPayloadSize
                  sourceIp := (swap32 skb.ipSaddr).setWidth 64
                  sourcePort := (swap16 skb.udpSource).setWidth 64
                  destIp := (swap32 skb.ipDaddr).setWidth 64
                  destPort := (swap16 skb.udpDest).setWidth 64
                  payload := skb.transportHeader + udpHlen } ∧
      skb.ipDaddr ≠ dhcpAddr ∧ skb.ipDaddr ≠ mdsnAddr := by
  rw [compose_eq, composeClassic] at hcompose
  split at hcompose
  · exact absurd hcompose (by simp)
  · split at hcompose
    · exact absurd hcompose (by simp)
    · split at hcompose
      · exact absurd hcompose (by simp)
      · next hserved =>
        split at hcompose
        · exact absurd hcompose (by simp)
        · exact ⟨(Option.some.inj hcompose).symm, not_or.mp hserved⟩

/-- The bytes of the payload of a buffer. -/
theorem length_copied_le (hcompose : compose skb = some udpPacket) : (skb.copied udpPacket).length ≤ 1472 := by
  obtain ⟨hsize, hbytes, -⟩ := of_compose hcompose
  rw [SkBuff.copied, List.length_map, List.length_range, hbytes]
  exact (toNat_udpPayloadSize hsize).2

/-- The datagram in a buffer. -/
def datagram (skb : SkBuff) (hcompose : compose skb = some udpPacket) : Datagram where
  sourceIp := swap32 skb.ipSaddr
  sourcePort := swap16 skb.udpSource
  destIp := swap32 skb.ipDaddr
  destPort := swap16 skb.udpDest
  payload := skb.copied udpPacket
  fits := Nat.le_trans (length_copied_le hcompose) (by decide)

/-- The packet that is copied to the slot is the datagram. -/
theorem packet_datagram (hcompose : compose skb = some udpPacket) :
    (datagram skb hcompose).packet = ⟨udpPacket.header, skb.copied udpPacket⟩ := by
  obtain ⟨rfl, -⟩ := compose_cases hcompose
  have hlength : (datagram skb hcompose).word 0 = skb.udpPayloadSize := by
    show BitVec.ofNat 64 (skb.copied _).length = _
    rw [SkBuff.copied, List.length_map, List.length_range, BitVec.ofNat_toNat, BitVec.setWidth_eq]
  show UdpPacket.mk (leBytes 8 ((datagram skb hcompose).word 0) ++ _) _ = _
  rw [hlength]
  rfl

/-- `udp_core_ndo_start_xmit` puts the datagram of the buffer into a slot of the ring. -/
theorem startXmit_in_slot (hkept : SharedRings.TxKept h.device) (hcompose : compose skb = some udpPacket)
    (hfull : h.settled.tx.ring.full = false) :
    ∃ slot, (h.run (startXmit skb)).2.device.tx.pushed = h.device.tx.pushed ++ [slot] ∧ (datagram skb hcompose).In slot := by
  obtain ⟨-, hsent⟩ := ends_startXmit_room hkept hcompose hfull
  obtain ⟨slot, hpushed, hin⟩ := hsent.sent.pushed
  refine ⟨slot, hpushed, ?_⟩
  rw [Datagram.In, packet_datagram hcompose]
  exact hin

/-- `udp_core_ndo_start_xmit` sends the datagram of the buffer: the UDP stack is presented it once the slot is read. -/
theorem startXmit_presents (hkept : SharedRings.TxKept h.device) (hcompose : compose skb = some udpPacket)
    (hfull : h.settled.tx.ring.full = false) (hmin : 8 ≤ (skb.copied udpPacket).length) :
    ∃ slot, (h.run (startXmit skb)).2.device.tx.pushed = h.device.tx.pushed ++ [slot] ∧
      slot.words.Presents (datagram skb hcompose) := by
  obtain ⟨slot, hpushed, hin⟩ := startXmit_in_slot hkept hcompose hfull
  exact ⟨slot, hpushed, hin.presents hmin⟩

/-- A packet with eight bytes for port 7400. -/
def portSkb : SkBuff :=
  { bareSkb 16 50 with memory := fun a => if a = 36 then 0x1C else if a = 37 then 0xE8 else (bareSkb 16 50).memory a }

/-- What it is composed to. -/
theorem compose_portSkb : compose portSkb = some ⟨8, 0, 0, 0, 7400, 42⟩ := rfl

/-- A host on which nothing comes. -/
def quietHost : NetHost := .boot (fun _ => []) fun _ => true

/-- It is sent. -/
theorem presents_portSkb : ∃ slot, (quietHost.run (startXmit portSkb)).2.device.tx.pushed = quietHost.device.tx.pushed ++ [slot] ∧
    slot.words.Presents (datagram portSkb compose_portSkb) :=
  startXmit_presents (NetHost.txKept_boot _ _) compose_portSkb (by decide +kernel) (by decide +kernel)

end Kernel

namespace RxStore

variable {R : AxisRegister}

/-- In every run in which the fields are the packet's own, the burst of a packet leaves its datagram in the slot, whatever
the slot held before. -/
theorem datagram_in_slot (R : AxisRegister) (p : Packet) {t : RxStore R}
    (ht : ((machine R).restrict OwnFields).Reachable (start R p) t) {k : ℕ} {j : WriteJob}
    (hj : t.dma.jobs[k]? = some j) (hcomplete : j.Complete) :
    ∃ q, t.path.front.started[k]? = some q ∧ ∀ d, q.Carries d → ∀ former : Slot, d.In (former.store j.passed) := by
  have howned : t.Owned := by
    refine Clocked.Machine.invariant (m := (machine R).restrict OwnFields) (owned_start p) (fun t i ht hi => ?_) ht
    exact ht.step hi.1 hi.2
  obtain ⟨q, hq, -, hpassed⟩ := howned.passed_eq hj hcomplete
  refine ⟨q, hq, fun d hd former => ?_⟩
  rw [hpassed]
  exact hd.in_store former

/-- A packet is presented, taken and stored. -/
def storingPacket (q : Packet) : List StoreCycle :=
  (storing 16).map fun c => { c with hdr := q.hdr, next := c.next.map fun _ => q }

/-- The run that stores it. -/
def storedPacket (q : Packet) : RxStore .twoDeep := (machine .twoDeep).run (start .twoDeep q) (storingPacket q)

/-- The run is one with the fields of the packet, and it stores it. -/
structure Stored (q : Packet) : Prop where
  legal : ((machine .twoDeep).restrict OwnFields).Legal (start .twoDeep q) (storingPacket q)
  complete : ((storedPacket q).dma.jobs[0]?.any fun j => decide j.Complete) = true
  started : (storedPacket q).path.front.started[0]? = some q

end RxStore

/-- A slot of an RX ring after the packet came that the header remover of another node made of a slot. -/
def Arrives (R : AxisRegister) (sent : TxSlot) (slot : Slot) : Prop :=
  ∃ (p q : Packet) (t : RxStore R) (k : ℕ) (j : WriteJob) (former : Slot),
    ((RxStore.machine R).restrict RxStore.OwnFields).Reachable (RxStore.start R p) t ∧ t.dma.jobs[k]? = some j ∧
      j.Complete ∧ t.path.front.started[k]? = some q ∧ Wired sent q ∧ slot = former.store j.passed

/-- It holds the datagram that was sent. -/
theorem Arrives.datagram {R : AxisRegister} {d : Datagram} {sent slot : Slot} (h : Arrives R sent.words slot) (hin : d.In sent)
    (hmin : 8 ≤ d.payload.length) : d.In slot := by
  obtain ⟨p, q, t, k, j, former, ht, hj, hcomplete, hq, hwired, rfl⟩ := h
  obtain ⟨q', hq', hstore⟩ := RxStore.datagram_in_slot R p ht hj hcomplete
  obtain rfl := Option.some.inj (hq.symm.trans hq')
  exact hstore d (hin.carries hmin hwired) former

namespace SocketLayer

open Udriver

variable {dev : UdpIpDevice} {l : SocketLayer} {fd : Fd} {args : RecvArgs} {attempts : ℕ} {s s' : SharedRings}
  {cs : List Access} {a : Recvd} {d : Datagram} {slot : Slot}

end SocketLayer

namespace Kernel

open ByteOrder

variable {d : Datagram}

/-- `raw_udp_packet` for a packet that is handed over: the words of its header, and a pointer to its payload. -/
def rawUdpPacket (p : UdpPacket) : RawPacket (ℕ → BitVec 8) where
  payloadSizeBytes := BitVec.ofNat 64 (p.headerWord 0)
  sourceIp := BitVec.ofNat 64 (p.headerWord 1)
  sourcePort := BitVec.ofNat 64 (p.headerWord 2)
  destIp := BitVec.ofNat 64 (p.headerWord 3)
  destPort := BitVec.ofNat 64 (p.headerWord 4)
  payload := fun i => p.payload[i]?.getD 0

/-- Its words are those of the datagram. -/
theorem rawUdpPacket_packet (d : Datagram) : rawUdpPacket d.packet =
    ⟨d.word 0, d.word 1, d.word 2, d.word 3, d.word 4, fun i => d.payload[i]?.getD 0⟩ := by
  have hword {k : ℕ} (hk : k < UdpHeader.numWords) : BitVec.ofNat 64 (d.packet.headerWord k) = d.word k := by
    rw [d.headerWord_eq hk, BitVec.ofNat_toNat, BitVec.setWidth_eq]
  rw [rawUdpPacket, hword (by decide), hword (by decide), hword (by decide), hword (by decide), hword (by decide)]
  rfl

/-- The length in it is that of the payload. -/
theorem toNat_payloadSizeBytes (d : Datagram) : (rawUdpPacket d.packet).payloadSizeBytes.toNat = d.payload.length := by
  have hfits := d.fits
  rw [rawUdpPacket_packet]
  exact (BitVec.toNat_ofNat _ _).trans (Nat.mod_eq_of_lt (by omega))

/-- The driver serves the destination, and the payload fits a frame. -/
structure Served (d : Datagram) : Prop where
  size : d.payload.length ≤ maxPayloadSize
  destIp : d.destIp ≠ 0xFFFFFFFF ∧ d.destIp ≠ 0xE00000FB

/-- The raw packet of a datagram is sound. -/
theorem Served.sound (h : Served d) : (rawUdpPacket d.packet).Sound := by
  have hip (x : BitVec 32) : (x.setWidth 64).toNat = x.toNat := BitVec.toNat_setWidth_of_le (by decide)
  have hport (x : BitVec 16) : (x.setWidth 64).toNat = x.toNat := BitVec.toNat_setWidth_of_le (by decide)
  have hwide {x y : BitVec 32} (hne : x ≠ y) : x.setWidth 64 ≠ y.setWidth 64 := by
    intro heq
    have hnarrow := congrArg (BitVec.setWidth 32) heq
    exact hne (by simpa using hnarrow)
  refine ⟨?_, ?_, ?_, ?_, (toNat_payloadSizeBytes d).trans_le h.size, ?_⟩ <;> rw [rawUdpPacket_packet]
  · exact (hip d.sourceIp).trans_lt d.sourceIp.isLt
  · exact (hip d.destIp).trans_lt d.destIp.isLt
  · exact (hport d.sourcePort).trans_lt d.sourcePort.isLt
  · exact (hport d.destPort).trans_lt d.destPort.isLt
  · exact ⟨hwide h.destIp.1, hwide h.destIp.2⟩

/-- A buffer made of a raw packet holds a datagram, with a valid IP header. -/
structure Holds (d : Datagram) (skb : SkBuff) (raw : RawPacket (ℕ → BitVec 8)) : Prop where
  undone : Undone raw skb
  datagram : ∃ udpPacket, ∃ hcompose : compose skb = some udpPacket, datagram skb hcompose = d

end Kernel

section Sockets

open SocketLayer

end Sockets

section Drivers

open Kernel

/-- The pushes into a full ring that are counted at an event. -/
def Kernel.NetEvent.overruns : NetEvent → Option ℕ
  | .readFilled _ n | .popped _ _ n => some n
  | .readEmpty _ | .refused | .delivered _ _ | .napiComplete | .enableGie => none

end Drivers

end UdpIpCore
