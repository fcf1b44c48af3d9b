import UdpIpCore.Userspace.SharedCalls
import UdpIpCore.Userspace.ConnectSend
import UdpIpCore.Userspace.EpollRun

/-!
# Receiving with `recvfrom`

`recvfrom` repeats `udriver_recv` until it returns a size other than 0. The whole payload is
copied into the buffer before its length is compared, and the variable that is tested
before the sender's address is stored is not the pointer it is stored to.
-/

namespace UdpIpCore

open Interaction

/-- The arguments of `recvfrom`, and the local it does not initialize. -/
structure RecvArgs where
  /-- What lies from `buf` on; not given if it is `NULL`. -/
  buf : Option (ℕ → BitVec 8)
  len : BitVec 64
  /-- What lies at `src_addr`; not given if it is `NULL`. -/
  srcAddr : Option SockaddrIn
  addrlen : Option (BitVec 32)
  addr : BitVec 64

/-- What a call of `recvfrom` has returned and left at its pointers. -/
structure RecvReturn where
  outcome : Outcome
  buf : Option (ℕ → BitVec 8)
  /-- How many bytes were written from `buf` on. -/
  written : ℕ
  srcAddr : Option SockaddrIn
  addrlen : Option (BitVec 32)

/-- What a call of `recvfrom` has come to. -/
inductive Recvd
  | going
  /-- A null pointer was dereferenced. -/
  | crashed
  | returned (r : RecvReturn)

namespace UdpPacket

/-- A word of the header. -/
def headerWord (p : UdpPacket) (k : ℕ) : ℕ := Udriver.payloadSizeBytes (p.header.drop (8 * k))

/-- The address of the sender, in network byte order. -/
def sender (p : UdpPacket) : SockaddrIn where
  sinFamily := BitVec.ofInt 16 SocketLayer.afInet
  sinPort := htons (BitVec.ofNat 16 (p.headerWord 2))
  sinAddr := htonl (BitVec.ofNat 32 (p.headerWord 1))

end UdpPacket

namespace SocketLayer

open Udriver

variable (dev : UdpIpDevice) (l : SocketLayer)

/-- What `udriver_recv` returns, as an `int`. -/
def received : Option UdpPacket → ℤ
  | none => 0
  | some p => (BitVec.ofNat 32 p.payload.length).toInt

/-- The loop of `recvfrom`, which ends once something other than 0 was received. -/
def recvLoop (bufferId : ℕ) : ℕ → UserCode (Option UdpPacket)
  | 0 => return none
  | attempts + 1 => do
    let rxUdpPacket ← udriverRecv bufferId
    if received rxUdpPacket = 0 then recvLoop bufferId attempts
    else return rxUdpPacket

/-- `recvfrom` with what was received. A packet that did not end the loop had no payload, so that the buffer is as it was
before the last one; a copy to `NULL` is told after the pop that would follow it. -/
def deliver (args : RecvArgs) (rxUdpPacket : UdpPacket) : Recvd :=
  if args.buf = none ∧ rxUdpPacket.payload ≠ [] then .crashed
  else if args.addr ≠ 0 ∧ args.srcAddr = none then .crashed
  else .returned {
    outcome := .value (if rxUdpPacket.payload.length < args.len.toNat then rxUdpPacket.payload.length else args.len.toNat)
    buf := args.buf.map fun buf => UserHost.writeBytes buf 0 rxUdpPacket.payload
    written := rxUdpPacket.payload.length
    srcAddr := if args.addr ≠ 0 then args.srcAddr.map fun _ => rxUdpPacket.sender else args.srcAddr
    addrlen := args.addrlen.map fun _ => sizeofSockaddrIn }

/-- `recvfrom`, followed for a number of attempts. -/
def recvfrom (sockfd : Fd) (args : RecvArgs) (attempts : ℕ) : UserCode Recvd :=
  let id := l.socketFds sockfd
  if id.status ≠ .bound then return .returned ⟨.fail .EINVAL, args.buf, 0, args.srcAddr, args.addrlen⟩
  else if id.socket.multicast = 1 then return .returned ⟨.value 0, args.buf, 0, args.srcAddr, args.addrlen⟩
  else do
    match ← recvLoop (bufferId dev (id.socket.srcPort.setWidth 32)).toNat attempts with
    | none => return .going
    | some rxUdpPacket => return deliver args rxUdpPacket

end SocketLayer

namespace SharedRings

variable {idx : BufferIdx} {d d' : SharedRings} {slot : Slot} {n : ℕ}

/-- One access of a receiver, after steps that it does not notice: packets are pushed into its ring, and other rings are
used. -/
def receiverResponds (idx : BufferIdx) : SharedRings → (c : Access) → c.Response → SharedRings → Prop :=
  Program.Outline.afterQuiet (RxQuiet idx) fun d c r d' => device.execute d c = (r, d')

/-- So many packets were popped. -/
structure Popped (idx : BufferIdx) (n : ℕ) (d : SharedRings) : Prop where
  kept : RxKept idx d
  pops : (d.rx idx).pops = n

theorem Popped.quiet (h : Popped idx n d) (hquiet : RxQuiet idx d d') : Popped idx n d' :=
  ⟨hquiet.kept h.kept, hquiet.pops.trans h.pops⟩

/-- The packet was read and popped. -/
structure Taken (idx : BufferIdx) (slot : Slot) (n : ℕ) (d : SharedRings) : Prop where
  popped : Popped idx (n + 1) d
  next : (d.rx idx).pushed[n]? = some slot

theorem Taken.quiet (h : Taken idx slot n d) (hquiet : RxQuiet idx d d') : Taken idx slot n d' := by
  refine ⟨h.popped.quiet hquiet, ?_⟩
  obtain ⟨rest, hrest⟩ := hquiet.pushed
  rw [← hrest, List.getElem?_append_left (List.getElem?_eq_some_iff.mp h.next).1, h.next]

/-- The pop. -/
theorem Reading.taken (h : Reading idx slot n d) (hlow : popped d.regs idx = false) {value : BitVec 32}
    (hvalue : value.getLsbD bufferPoppedOffset = true) :
    Taken idx slot n (d.writeReg (ConfigRegs.bufferRxCtrl idx.toNat) value) := by
  have hrises : (!popped d.regs idx && popped (d.regs.write (ConfigRegs.bufferRxCtrl idx.toNat) value) idx) = true := by
    rw [popped_write, if_pos (ConfigRegs.ringOf_toNat idx), hvalue, hlow]
    rfl
  have hrx : (d.writeReg (ConfigRegs.bufferRxCtrl idx.toNat) value).rx idx = (d.rx idx).pop := if_pos hrises
  refine ⟨⟨(h.pop hlow hvalue).1, ?_⟩, ?_⟩
  · rw [hrx, ← h.pops]
    rfl
  · rw [hrx]
    exact h.next

/-- `notify_pop_to_rx_buffer` pops the packet that was read. -/
theorem outline_notifyPopToRxBuffer (h : Reading idx slot n d) :
    (Udriver.notifyPopToRxBuffer idx.toNat).Outline (RxQuiet idx) (fun d c r d' => device.execute d c = (r, d'))
      (fun _ => True) (fun _ => Taken idx slot n) d := by
  have hring : ConfigRegs.ringOf (ConfigRegs.bufferRxCtrl idx.toNat) = some idx := ConfigRegs.ringOf_toNat idx
  refine Program.Outline.bind (Program.Outline.command (R := Access.Response)
    (c := Access.readReg (ConfigRegs.bufferRxCtrl idx.toNat)) (Reading idx slot n) (fun _ => Reading idx slot n) h
    (fun _ _ => Reading.quiet) (fun _ _ => trivial) ?_ (fun _ _ _ => Reading.quiet) fun value d h => ⟨trivial, ?_⟩)
  · rintro d r d' hd hread
    obtain ⟨-, rfl⟩ := Prod.mk.inj hread
    exact hd
  have hclear : (value &&& Udriver.maskClear).getLsbD bufferPoppedOffset = false := (RxRing.getLsbD_maskClear value).1
  have hset : (value ||| Udriver.maskSet).getLsbD bufferPoppedOffset = true := (RxRing.getLsbD_maskSet value).1
  refine Program.Outline.bind (Program.Outline.command (R := Access.Response)
    (c := Access.writeReg (ConfigRegs.bufferRxCtrl idx.toNat) (value &&& Udriver.maskClear)) (Reading idx slot n)
    (fun _ d => Reading idx slot n d ∧ popped d.regs idx = false) h (fun _ _ => Reading.quiet) (fun _ _ => trivial) ?_
    (fun _ d d' hd hq => ⟨hd.1.quiet hq, RxQuiet.low hq hd.2⟩) fun _ d h => ⟨trivial, ?_⟩)
  · rintro d r d' hd hwrite
    obtain ⟨-, rfl⟩ := Prod.mk.inj hwrite
    refine ⟨hd.quiet (RxQuiet.writeReg fun _ => hclear), ?_⟩
    change popped (d.regs.write _ _) idx = false
    rw [popped_write, if_pos hring]
    exact hclear
  refine Program.Outline.bind (Program.Outline.command (R := Access.Response)
    (c := Access.writeReg (ConfigRegs.bufferRxCtrl idx.toNat) (value ||| Udriver.maskSet))
    (fun d => Reading idx slot n d ∧ popped d.regs idx = false) (fun _ => Taken idx slot n) h
    (fun d d' hd hq => ⟨hd.1.quiet hq, RxQuiet.low hq hd.2⟩) (fun _ _ => trivial) ?_ (fun _ _ _ => Taken.quiet)
    fun _ d h => ⟨trivial, ?_⟩)
  · rintro d r d' hd hwrite
    obtain ⟨-, rfl⟩ := Prod.mk.inj hwrite
    exact hd.1.taken hd.2 hset
  refine Program.Outline.command (R := Access.Response)
    (c := Access.writeReg (ConfigRegs.bufferRxCtrl idx.toNat) (value &&& Udriver.maskClear)) (Taken idx slot n)
    (fun _ => Taken idx slot n) h (fun _ _ => Taken.quiet) (fun _ _ => trivial) ?_ (fun _ _ _ => Taken.quiet)
    fun _ d h => ⟨trivial, h⟩
  rintro d r d' hd hwrite
  obtain ⟨-, rfl⟩ := Prod.mk.inj hwrite
  exact hd.quiet (RxQuiet.writeReg fun _ => hclear)

/-- What one `udriver_recv` has done. -/
def Polled (idx : BufferIdx) (n : ℕ) : Option UdpPacket → SharedRings → Prop
  | none, d => Popped idx n d
  | some p, d => ∃ slot, Taken idx slot n d ∧ slot.Shows p

/-- The control word: empty, or the place of the next packet. -/
theorem outline_readCtrl (h : Popped idx n d) :
    (Udriver.readReg (ConfigRegs.bufferRxCtrl idx.toNat)).Outline (RxQuiet idx)
      (fun d c r d' => device.execute d c = (r, d')) (fun _ => True)
      (fun reg d => Popped idx n d ∧ (reg.getLsbD bufferEmptyOffset = false → ∃ slot, Reading idx slot n d ∧
        (reg.extractLsb' bufferTailOffset 5).toNat = n % bufferRxLength)) d := by
  refine Program.Outline.command (R := Access.Response) (c := Access.readReg (ConfigRegs.bufferRxCtrl idx.toNat))
    (Popped idx n) (fun reg d => Popped idx n d ∧ (reg.getLsbD bufferEmptyOffset = false → ∃ slot, Reading idx slot n d ∧
        (reg.extractLsb' bufferTailOffset 5).toNat = n % bufferRxLength)) h (fun _ _ => Popped.quiet)
    (fun _ _ => trivial) ?_ ?_ fun reg d h => ⟨trivial, h⟩
  · rintro d reg d' hd hread
    have hword : (d.regs.read d.status (ConfigRegs.bufferRxCtrl idx.toNat), d) = (reg, d') := hread
    obtain ⟨rfl, rfl⟩ := Prod.mk.inj hword
    refine ⟨hd, fun hempty => ?_⟩
    have htracks := hd.kept.tracks
    rw [read_bufferRxCtrl, ConfigRegs.getLsbD_rxWord_empty, htracks.empty, decide_eq_false_iff_not] at hempty
    have hlt : (d.rx idx).pops < (d.rx idx).pushed.length := Nat.lt_of_le_of_ne htracks.pops_le (Ne.symm hempty)
    refine ⟨(d.rx idx).pushed[(d.rx idx).pops], ⟨hd.kept, hd.pops, ?_⟩, ?_⟩
    · rw [← hd.pops]
      exact List.getElem?_eq_getElem hlt
    · rw [read_bufferRxCtrl, ConfigRegs.extractLsb'_rxWord_tail, BitVec.toNat_ofNat, htracks.tail, ← hd.pops]
      exact Nat.mod_eq_of_lt (Nat.mod_lt _ (by decide))
  · rintro reg d d' ⟨hd, hnext⟩ hq
    refine ⟨hd.quiet hq, fun hempty => ?_⟩
    obtain ⟨slot, hreading, htail⟩ := hnext hempty
    exact ⟨slot, hreading.quiet hq, htail⟩

/-- `udriver_recv` takes the oldest packet, if there is one. -/
theorem outline_udriverRecv (h : Popped idx n d) :
    (Udriver.udriverRecv idx.toNat).Outline (RxQuiet idx) (fun d c r d' => device.execute d c = (r, d'))
      (fun _ => True) (Polled idx n) d := by
  refine Program.Outline.bind ((outline_readCtrl h).mono ?_)
  rintro reg d ⟨hd, hnext⟩
  cases hempty : reg.getLsbD bufferEmptyOffset with
  | true => exact .done (Popped idx n) hd (fun _ _ => Popped.quiet) fun d hd => ⟨trivial, hd⟩
  | false =>
    obtain ⟨slot, hreading, htail⟩ := hnext hempty
    change Program.Outline _ _ _ _ (Udriver.xrtBORead (Udriver.bufRxIdxOffsetBytes idx.toNat +
      (reg.extractLsb' bufferTailOffset 5).toNat * bufferElemMaxSize) Udriver.packetHdrSizeBytes >>= _) d
    rw [htail]
    have hread (start size : ℕ) {d : SharedRings} (hd : Reading idx slot n d) :=
      outline_xrtBORead (fun d c r d' => device.execute d c = (r, d')) (fun _ _ _ _ h => h)
        (fun _ _ => trivial) start size hd
    have hfirst := hread 0 Udriver.packetHdrSizeBytes hreading
    rw [Nat.add_zero] at hfirst
    refine Program.Outline.bind (hfirst.mono ?_)
    rintro header d ⟨hheader, hd⟩
    have hwords := header_eq hheader
    refine Program.Outline.bind ((hread _ _ hd).mono ?_)
    rintro payload d ⟨⟨hlength, hpayload⟩, hd⟩
    rw [hwords] at hlength
    refine Program.Outline.bind ((outline_notifyPopToRxBuffer hd).mono fun _ d hd => ?_)
    exact .done (Taken idx slot n) hd (fun _ _ => Taken.quiet) fun d hd =>
      ⟨trivial, slot, hd, ⟨hwords, hlength, hpayload⟩⟩

/-- A packet of the log stays where it is. -/
theorem getElem?_pushed_quiet (hquiet : RxQuiet idx d d') (hslot : (d.rx idx).pushed[n]? = some slot) :
    (d'.rx idx).pushed[n]? = some slot := by
  obtain ⟨rest, hrest⟩ := hquiet.pushed
  rw [← hrest, List.getElem?_append_left (List.getElem?_eq_some_iff.mp hslot).1, hslot]

/-- A packet that ends within its slot has fewer bytes than an `int` counts. -/
theorem received_eq_zero_iff (hfits : slot.Fits) :
    SocketLayer.received (some slot.packet) = 0 ↔ slot.packet.payload = [] := by
  have hlength : slot.packet.payload.length = Udriver.payloadSizeBytes ((List.range Udriver.packetHdrSizeBytes).map slot) := by
    simp [Slot.packet]
  rw [Slot.Fits, ← hlength, bufferElemMaxSize] at hfits
  rw [SocketLayer.received, BitVec.toInt_eq_toNat_of_lt, BitVec.toNat_ofNat, Nat.mod_eq_of_lt (by omega)]
  · rw [Int.natCast_eq_zero, List.length_eq_zero_iff]
  · rw [BitVec.toNat_ofNat]
    omega

/-- The oldest packet ends within its slot. -/
def OldestFits (idx : BufferIdx) (n : ℕ) (d : SharedRings) : Prop := ∀ oldest, (d.rx idx).pushed[n]? = some oldest → oldest.Fits

/-- What the loop of `recvfrom` has received: the oldest packet, or, if that had no payload, a later one. -/
def ReceivedFrom (idx : BufferIdx) (n : ℕ) (p : UdpPacket) (d : SharedRings) : Prop :=
  ∃ oldest, (d.rx idx).pushed[n]? = some oldest ∧
    (p = oldest.packet ∧ oldest.packet.payload ≠ [] ∧ (d.rx idx).pops = n + 1 ∨
      oldest.packet.payload = [] ∧ n + 1 < (d.rx idx).pops)

/-- The loop of `recvfrom`, if the oldest packet ends within its slot. -/
theorem outline_recvLoop (attempts : ℕ) (h : Popped idx n d) :
    (SocketLayer.recvLoop idx.toNat attempts).Outline (RxQuiet idx) (fun d c r d' => device.execute d c = (r, d'))
      (fun _ => True) (fun r d => ∀ p, r = some p → n < (d.rx idx).pops ∧ (OldestFits idx n d → ReceivedFrom idx n p d)) d := by
  induction attempts generalizing n d with
  | zero =>
    exact .done (fun _ => True) trivial (fun _ _ _ _ => trivial) fun _ _ => ⟨trivial, fun p hp => absurd hp nofun⟩
  | succ attempts ih =>
    refine Program.Outline.bind ((outline_udriverRecv h).mono ?_)
    intro r d hpolled
    cases r with
    | none =>
      change Program.Outline _ _ _ _ (if (0 : ℤ) = 0 then SocketLayer.recvLoop idx.toNat attempts else _) d
      rw [if_pos rfl]
      exact ih hpolled
    | some p =>
      obtain ⟨slot, htaken, hshows⟩ := hpolled
      change Program.Outline _ _ _ _ (if _ then SocketLayer.recvLoop idx.toNat attempts else _) d
      by_cases hzero : SocketLayer.received (some p) = 0
      · rw [if_pos hzero]
        have hlater := (ih htaken.popped).frame (fun d => (d.rx idx).pushed[n]? = some slot) htaken.next
          (fun d d' hslot hq => getElem?_pushed_quiet hq hslot) fun d c r d' hslot hexecute => by
            rw [← hslot, ← pushed_execute d c]
            exact congrArg (fun x => ((Prod.snd x).rx idx).pushed[n]?) hexecute.symm
        refine hlater.mono ?_
        rintro r d ⟨hreceived, hslot⟩ q hq
        obtain ⟨hpops, -⟩ := hreceived q hq
        refine ⟨Nat.lt_of_succ_lt hpops, fun hfits => ?_⟩
        have hfitsOldest := hfits slot hslot
        obtain rfl := hshows.eq_packet hfitsOldest
        exact ⟨slot, hslot, Or.inr ⟨(received_eq_zero_iff hfitsOldest).mp hzero, hpops⟩⟩
      · rw [if_neg hzero]
        refine .done (Taken idx slot n) htaken (fun _ _ => Taken.quiet) fun d hd => ⟨trivial, fun q hq => ?_⟩
        obtain rfl := Option.some.inj hq
        refine ⟨Nat.lt_of_lt_of_eq (Nat.lt_succ_self n) hd.popped.pops.symm, fun hfits => ?_⟩
        have hfitsOldest := hfits slot hd.next
        obtain rfl := hshows.eq_packet hfitsOldest
        exact ⟨slot, hd.next, Or.inl ⟨rfl, fun hempty => hzero ((received_eq_zero_iff hfitsOldest).mpr hempty),
          hd.popped.pops⟩⟩

end SharedRings

namespace SocketLayer

open SharedRings

/-- What a call leaves at its pointers of a packet: the first bytes of its payload, and the address of its sender. -/
structure Delivers (args : RecvArgs) (p : UdpPacket) (r : RecvReturn) : Prop where
  ret : r.outcome.ret = (min args.len.toNat p.payload.length : ℕ)
  written : r.written = min args.len.toNat p.payload.length
  bytes : ∀ k < min args.len.toNat p.payload.length, ∃ buf, r.buf = some buf ∧ p.payload[k]? = some (buf k)
  kept : ∀ k, min args.len.toNat p.payload.length ≤ k → r.buf.map (fun buf => buf k) = args.buf.map fun buf => buf k
  srcAddr : r.srcAddr = args.srcAddr.map fun _ => p.sender

/-- One packet was removed from the ring, the oldest one, and delivered. -/
structure ReceivesOldest (idx : BufferIdx) (args : RecvArgs) (d d' : SharedRings) (r : RecvReturn) : Prop where
  removed : (d'.rx idx).pops = (d.rx idx).pops + 1
  delivered : ∃ oldest, (d'.rx idx).pushed[(d.rx idx).pops]? = some oldest ∧ Delivers args oldest.packet r

/-- The packet has a payload, which the buffer has room for, and the local that is tested is `NULL` exactly if `src_addr`
is, or the address of the sender is there already. -/
structure Deliverable (args : RecvArgs) (p : UdpPacket) : Prop where
  filled : p.payload ≠ []
  room : p.payload.length ≤ args.len.toNat
  buf : args.buf ≠ none
  told : match args.srcAddr with
    | none => args.addr = 0
    | some srcAddr => args.addr ≠ 0 ∨ srcAddr = p.sender

/-- The call dereferences `NULL`. -/
def Dereferences (args : RecvArgs) (p : UdpPacket) : Prop :=
  args.buf = none ∧ p.payload ≠ [] ∨ args.addr ≠ 0 ∧ args.srcAddr = none

/-- What is returned without one. -/
theorem deliver_eq {args : RecvArgs} {p : UdpPacket} {r : RecvReturn} (hr : deliver args p = .returned r) :
    ¬ Dereferences args p ∧ r.outcome.ret = (min args.len.toNat p.payload.length : ℕ) ∧ r.written = p.payload.length ∧
      r.buf = args.buf.map (fun buf => UserHost.writeBytes buf 0 p.payload) ∧
      r.srcAddr = if args.addr ≠ 0 then args.srcAddr.map (fun _ => p.sender) else args.srcAddr := by
  unfold deliver at hr
  split at hr
  · exact Recvd.noConfusion hr
  · next hbuf =>
    split at hr
    · exact Recvd.noConfusion hr
    · next haddr =>
      obtain rfl := Recvd.returned.inj hr
      refine ⟨not_or.mpr ⟨hbuf, haddr⟩, ?_, rfl, rfl, rfl⟩
      dsimp only [Outcome.value]
      split
      · rw [Nat.min_eq_right (by omega)]
      · rw [Nat.min_eq_left (by omega)]

/-- Without one, it returns. -/
theorem exists_deliver_eq {args : RecvArgs} {p : UdpPacket} (hnot : ¬ Dereferences args p) :
    ∃ r, deliver args p = .returned r := by
  obtain ⟨hbuf, haddr⟩ := not_or.mp hnot
  exact ⟨_, (if_neg hbuf).trans (if_neg haddr)⟩

/-- A packet with a payload is delivered exactly if it can be. -/
theorem delivers_iff {args : RecvArgs} {p : UdpPacket} (hfilled : p.payload ≠ []) :
    (∃ r, deliver args p = .returned r ∧ Delivers args p r) ↔ Deliverable args p := by
  constructor
  · rintro ⟨r, hr, hdelivers⟩
    obtain ⟨hnot, -, hwritten, -, hsrcAddr⟩ := deliver_eq hr
    obtain ⟨hbuf, haddr⟩ := not_or.mp hnot
    refine ⟨hfilled, ?_, fun hnull => hbuf ⟨hnull, hfilled⟩, ?_⟩
    · have hsame := hwritten.symm.trans hdelivers.written
      omega
    · rw [hdelivers.srcAddr] at hsrcAddr
      cases hsrc : args.srcAddr with
      | none =>
        by_contra hset
        exact haddr ⟨hset, hsrc⟩
      | some srcAddr =>
        rw [hsrc] at hsrcAddr
        by_cases hset : args.addr = 0
        · rw [if_neg (not_not.mpr hset)] at hsrcAddr
          exact Or.inr (Option.some.inj hsrcAddr).symm
        · exact Or.inl hset
  · intro hdeliverable
    obtain ⟨buf, hbuf⟩ := Option.ne_none_iff_exists'.mp hdeliverable.buf
    have htold := hdeliverable.told
    have hnot : ¬ Dereferences args p := by
      rintro (⟨hnull, -⟩ | ⟨hset, hnull⟩)
      · exact hdeliverable.buf hnull
      · rw [hnull] at htold
        exact hset htold
    obtain ⟨r, hr⟩ := exists_deliver_eq hnot
    obtain ⟨-, hret, hwritten, hcopied, hsrcAddr⟩ := deliver_eq hr
    have hmin : min args.len.toNat p.payload.length = p.payload.length := Nat.min_eq_right hdeliverable.room
    rw [hbuf] at hcopied
    refine ⟨r, hr, hret, hwritten.trans hmin.symm, fun k hk => ⟨_, hcopied, ?_⟩, fun k hk => ?_, ?_⟩
    · rw [hmin] at hk
      have hbyte := UserHost.writeBytes_of_getElem? buf 0 (List.getElem?_eq_getElem hk)
      rw [Nat.zero_add] at hbyte
      exact (List.getElem?_eq_getElem hk).trans (congrArg some hbyte.symm)
    · rw [hmin] at hk
      rw [hcopied, hbuf, Option.map_some, Option.map_some, Option.map_some, UserHost.writeBytes, if_pos (Nat.zero_le k),
        Nat.sub_zero, List.getElem?_eq_none hk]
      rfl
    · rw [hsrcAddr]
      cases hsrc : args.srcAddr with
      | none => simp
      | some srcAddr =>
        rw [hsrc] at htold
        rcases htold with hset | rfl
        · rw [if_pos hset]
        · rw [Option.map_some]
          split <;> rfl

variable {dev : UdpIpDevice} {l : SocketLayer} {fd : Fd} {args : RecvArgs} {attempts : ℕ} {d d' : SharedRings}
  {cs : List Access} {a : Recvd}

/-- A call that has ended has received a packet. -/
theorem receivedFrom_of_trace (hbound : (l.socketFds fd).status = .bound) (hmulticast : (l.socketFds fd).socket.multicast ≠ 1)
    (hrange : dev.InRange (l.socketFds fd).socket.srcPort) (hkept : RxKept (dev.ring (l.socketFds fd).socket.srcPort) d)
    (htrace : Program.Trace (receiverResponds (dev.ring (l.socketFds fd).socket.srcPort))
      (l.recvfrom dev fd args attempts) d cs a d') (hended : a ≠ .going)
    (hfits : OldestFits (dev.ring (l.socketFds fd).socket.srcPort) (d.rx (dev.ring (l.socketFds fd).socket.srcPort)).pops d') :
    ∃ p, ReceivedFrom (dev.ring (l.socketFds fd).socket.srcPort) (d.rx (dev.ring (l.socketFds fd).socket.srcPort)).pops p d' ∧
      a = deliver args p := by
  rw [recvfrom, if_neg (not_not.mpr hbound), if_neg hmulticast, SocketRun.bufferId_toNat_eq_ring hrange] at htrace
  obtain ⟨first, second, found, d₁, rfl, hloop, hrest⟩ := htrace.split
  have hreceived := ((outline_recvLoop attempts ⟨hkept, rfl⟩).safe.of_trace hloop).1
  cases found with
  | none =>
    obtain ⟨-, rfl, -⟩ := hrest.of_pure
    exact absurd rfl hended
  | some p =>
    obtain ⟨-, rfl, rfl⟩ := hrest.of_pure
    exact ⟨p, (hreceived p rfl).2 hfits, rfl⟩

/-- What was received is the oldest packet, delivered, exactly if that can be delivered. -/
theorem receives_iff {idx : BufferIdx} {p : UdpPacket} (hreceived : ReceivedFrom idx (d.rx idx).pops p d') :
    (∃ r, deliver args p = .returned r ∧ ReceivesOldest idx args d d' r) ↔
      ∃ oldest, (d'.rx idx).pushed[(d.rx idx).pops]? = some oldest ∧ Deliverable args oldest.packet := by
  obtain ⟨oldest, holdest, ⟨rfl, hfilled, hpops⟩ | ⟨hempty, hpops⟩⟩ := hreceived
  · constructor
    · rintro ⟨r, hr, -, oldest', holdest', hdelivers⟩
      obtain rfl := Option.some.inj (holdest.symm.trans holdest')
      exact ⟨oldest, holdest, (delivers_iff hfilled).mp ⟨r, hr, hdelivers⟩⟩
    · rintro ⟨oldest', holdest', hdeliverable⟩
      obtain rfl := Option.some.inj (holdest.symm.trans holdest')
      obtain ⟨r, hr, hdelivers⟩ := (delivers_iff hfilled).mpr hdeliverable
      exact ⟨r, hr, hpops, oldest, holdest, hdelivers⟩
  · -- a packet without a payload was removed and skipped
    refine iff_of_false ?_ ?_
    · rintro ⟨r, -, hremoved, -⟩
      omega
    · rintro ⟨oldest', holdest', hdeliverable⟩
      obtain rfl := Option.some.inj (holdest.symm.trans holdest')
      exact hdeliverable.filled hempty

/-- A call of `recvfrom` on a bound descriptor without the multicast flag that has ended has removed the oldest packet of its
ring, and nothing else, and delivered it, exactly if that packet has a payload the buffer has room for and the local that is
tested is `NULL` exactly if `src_addr` is, or `src_addr` holds the sender's address already. -/
theorem receivesOldest_iff (hbound : (l.socketFds fd).status = .bound) (hmulticast : (l.socketFds fd).socket.multicast ≠ 1)
    (hrange : dev.InRange (l.socketFds fd).socket.srcPort) (hkept : RxKept (dev.ring (l.socketFds fd).socket.srcPort) d)
    (htrace : Program.Trace (receiverResponds (dev.ring (l.socketFds fd).socket.srcPort))
      (l.recvfrom dev fd args attempts) d cs a d') (hended : a ≠ .going)
    (hfits : OldestFits (dev.ring (l.socketFds fd).socket.srcPort) (d.rx (dev.ring (l.socketFds fd).socket.srcPort)).pops d') :
    (∃ r, a = .returned r ∧ ReceivesOldest (dev.ring (l.socketFds fd).socket.srcPort) args d d' r) ↔
      ∃ oldest, (d'.rx (dev.ring (l.socketFds fd).socket.srcPort)).pushed[
        (d.rx (dev.ring (l.socketFds fd).socket.srcPort)).pops]? = some oldest ∧ Deliverable args oldest.packet := by
  obtain ⟨p, hreceived, rfl⟩ := receivedFrom_of_trace hbound hmulticast hrange hkept htrace hended hfits
  exact receives_iff hreceived

section Example

/-- A packet with three bytes. -/
def threeByteSlot : Slot := fun k => if k = 0 then 3 else 0

theorem boundSocket_status : (boundSocket.socketFds 3).status = .bound := rfl

theorem boundSocket_inRange : SocketRun.localPorts.InRange (boundSocket.socketFds 3).socket.srcPort := by decide

/-- Its ring. -/
def filledRing : SharedRings := (SharedRings.start (fun _ => true) fun _ => 0).move (.receive 0 threeByteSlot)

theorem kept_filledRing : RxKept 0 filledRing := by
  have hstart : RxKept 0 (SharedRings.start (fun _ => true) fun _ => 0) := kept_start _ _ (.rx 0)
  exact hstart.receive rfl

/-- A run in which every access is executed at once pushes nothing. -/
theorem pushed_eval (p : UserCode Recvd) (d : SharedRings) :
    ((p.eval SharedRings.execute d).2.rx 0).pushed = (d.rx 0).pushed := by
  induction p generalizing d with
  | done a => rfl
  | perform c next ih => exact (ih _ _).trans (pushed_execute d c)

/-- The call has not come to an end. -/
def isGoing : Recvd → Bool
  | .going => true
  | _ => false

/-- Receiving the packet with a buffer of a length. -/
def receiveThree (len : BitVec 64) : UserCode Recvd :=
  boundSocket.recvfrom SocketRun.localPorts 3 ⟨some fun _ => 0, len, none, none, 0⟩ 1

/-- A run of it that has ended. -/
theorem exists_ended (len : BitVec 64)
    (hended : isGoing ((receiveThree len).eval SharedRings.execute filledRing).1 = false) :
    ∃ cs a d', Program.Trace (receiverResponds 0) (receiveThree len) filledRing cs a d' ∧ a ≠ .going ∧
      (d'.rx 0).pushed[(filledRing.rx 0).pops]? = some threeByteSlot := by
  have hexecute : ∀ (d : SharedRings) (c : Access),
      receiverResponds 0 d c (SharedRings.execute d c).1 (SharedRings.execute d c).2 :=
    fun d _ => ⟨d, quiet_refl (.rx 0) d, rfl⟩
  obtain ⟨cs, htrace⟩ := Program.exists_trace SharedRings.execute hexecute (receiveThree len) filledRing
  refine ⟨cs, _, _, htrace, fun hgoing => ?_, ?_⟩
  · rw [hgoing] at hended
    exact Bool.noConfusion hended
  · rw [pushed_eval]
    rfl

/-- The packet ends within its slot. -/
theorem oldestFits_three {d : SharedRings} (hnext : (d.rx 0).pushed[(filledRing.rx 0).pops]? = some threeByteSlot) :
    OldestFits 0 (filledRing.rx 0).pops d := by
  intro oldest holdest
  obtain rfl := Option.some.inj (hnext.symm.trans holdest)
  decide

/-- Three bytes are received into a buffer of three. -/
theorem receivesOldest_three : ∃ cs a d', Program.Trace (receiverResponds 0) (receiveThree 3) filledRing cs a d' ∧
    ∃ r, a = .returned r ∧ ReceivesOldest 0 ⟨some fun _ => 0, 3, none, none, 0⟩ filledRing d' r := by
  obtain ⟨cs, a, d', htrace, hended, hnext⟩ := exists_ended 3 (by decide +kernel)
  refine ⟨cs, a, d', htrace, ?_⟩
  exact (receivesOldest_iff boundSocket_status (by decide) boundSocket_inRange
    kept_filledRing htrace hended (oldestFits_three hnext)).mpr ⟨threeByteSlot, hnext, by decide, by decide, nofun, rfl⟩

/-- Into a buffer of two bytes three are written. -/
theorem not_receivesOldest : ¬ ∀ (dev : UdpIpDevice) (l : SocketLayer) (fd : Fd) (args : RecvArgs) (attempts : ℕ)
    (d d' : SharedRings) (cs : List Access) (a : Recvd), (l.socketFds fd).status = .bound →
    (l.socketFds fd).socket.multicast ≠ 1 → dev.InRange (l.socketFds fd).socket.srcPort →
    RxKept (dev.ring (l.socketFds fd).socket.srcPort) d →
    Program.Trace (receiverResponds (dev.ring (l.socketFds fd).socket.srcPort)) (l.recvfrom dev fd args attempts) d cs a d' →
    a ≠ .going →
    OldestFits (dev.ring (l.socketFds fd).socket.srcPort) (d.rx (dev.ring (l.socketFds fd).socket.srcPort)).pops d' →
    ∃ r, a = .returned r ∧ ReceivesOldest (dev.ring (l.socketFds fd).socket.srcPort) args d d' r := by
  intro hall
  obtain ⟨cs, a, d', htrace, hended, hnext⟩ := exists_ended 2 (by decide +kernel)
  have hreceives := hall SocketRun.localPorts boundSocket 3 ⟨some fun _ => 0, 2, none, none, 0⟩ 1 filledRing d' cs a
    rfl (by decide) (by decide) kept_filledRing htrace hended (oldestFits_three hnext)
  obtain ⟨p, hreceived, rfl⟩ := receivedFrom_of_trace boundSocket_status (by decide) boundSocket_inRange
    kept_filledRing htrace hended (oldestFits_three hnext)
  obtain ⟨oldest, holdest, hdeliverable⟩ := (receives_iff hreceived).mp hreceives
  obtain rfl : threeByteSlot = oldest := Option.some.inj (hnext.symm.trans holdest)
  exact absurd hdeliverable.room (by decide)

end Example

end SocketLayer

end UdpIpCore
