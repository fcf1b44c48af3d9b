import UdpIpCore.Userspace.SharedRings

/-!
# Concurrent senders and receivers

Any number of threads call `udriver_send` and `udriver_recv`. No call locks its ring: between
the read of the head and the push, or between the check of a ring and the pop, another thread
can do the same.
-/

namespace UdpIpCore

open Interaction

/-- The calls. -/
inductive RingCall
  | send (p : TxPacket)
  | recv (idx : BufferIdx)

/-- What the calls return. -/
inductive CallResult
  | sent (accepted : Bool)
  | received (packet : Option UdpPacket)

/-- The ring a call is for. -/
inductive RingName
  | tx
  | rx (idx : BufferIdx)
deriving DecidableEq

namespace SharedRings

/-- A sender is inside from its read of the head to its push, a receiver from the check that finds a
packet to its pop. -/
def inside (call : RingCall) (before : Bool) : (c : Access) → c.Response → Bool
  | .readReg reg, r => before || match call with
    | .send _ => decide (reg = RegAddr.buftxHead)
    | .recv idx => decide (reg = ConfigRegs.bufferRxCtrl idx.toNat) && !r.getLsbD bufferEmptyOffset
  | .writeReg _ value, _ => before && !value.getLsbD 0
  | .load _, _ => before
  | .store _ _, _ => before

/-- `udriver_send` and `udriver_recv`. -/
def calls : Calls Access Access.Response RingCall CallResult RingName where
  code
    | .send p => do
      let accepted ← Udriver.udriverSend p.toUdpPacket
      return .sent accepted
    | .recv idx => do
      let packet ← Udriver.udriverRecv idx.toNat
      return .received packet
  resource
    | .send _ => .tx
    | .recv idx => .rx idx
  inside := inside

/-- What the calls rely on and what they keep. -/
def contract : Contract SharedRings Access RingCall CallResult RingName Slot where
  kept
    | .tx => TxKept
    | .rx idx => RxKept idx
  quiet
    | .tx => TxQuiet
    | .rx idx => RxQuiet idx
  admits
    | .send p => p.Fits
    | .recv _ => True
  allowed
    | .tx, .writeReg reg _ => reg = RegAddr.buftxPushed
    | .tx, .store offset _ => Udriver.bufTxOffsetBytes ≤ offset
    | .rx idx, .writeReg reg _ => reg = ConfigRegs.bufferRxCtrl idx.toNat
    | .rx _, .store _ _ => False
    | _, .readReg _ => True
    | _, .load _ => True
  late
    | .writeReg _ value => value.getLsbD 0 = false
    | _ => False
  ready
    | d, .store _ _ => d.tx.ring.full = false
    | _, _ => True
  log
    | .tx, d => d.tx.pushed
    | .rx idx, d => (d.rx idx).pushed.take (d.rx idx).pops
  effective
    | _, .sent accepted => accepted
    | _, .received packet => packet.isSome
  accounts
    | .send p, .sent true, slot => p.In slot
    | .recv _, .received (some packet), slot => slot.Shows packet
    | _, _, _ => False

variable {idx : BufferIdx} {d d' : SharedRings} {slot : Slot} {n m k : ℕ} {p : TxPacket}

/-- The packet a receiver has found is the next one. -/
structure Reading (idx : BufferIdx) (slot : Slot) (n : ℕ) (d : SharedRings) : Prop where
  kept : RxKept idx d
  pops : (d.rx idx).pops = n
  next : (d.rx idx).pushed[n]? = some slot

/-- The first `k` bytes of the packet are in the free slot at the head. -/
structure Filling (p : TxPacket) (m k : ℕ) (d : SharedRings) : Prop where
  kept : TxKept d
  head : d.tx.pushed.length = m
  room : 0 < k → m < d.tx.transmitted.length + bufferTxLength
  filled : ∀ i < k, ∀ b, p.bytes[i]? = some b → d.memory (TxRing.slotOffset (m % bufferTxLength) + i) = b

/-- A packet that was found stays the next one. -/
theorem Reading.quiet (h : Reading idx slot n d) (hquiet : RxQuiet idx d d') : Reading idx slot n d' := by
  refine ⟨hquiet.kept h.kept, hquiet.pops.trans h.pops, ?_⟩
  obtain ⟨rest, hrest⟩ := hquiet.pushed
  rw [← hrest, List.getElem?_append_left (List.getElem?_eq_some_iff.mp h.next).1, h.next]

/-- The bytes in the slot at the head stay. -/
theorem Filling.quiet (h : Filling p m k d) (hquiet : TxQuiet d d') : Filling p m k d' := by
  refine ⟨hquiet.kept h.kept, ?_, fun hk => ?_, fun i hi b hb => ?_⟩
  · rw [hquiet.pushed, h.head]
  · exact Nat.lt_of_lt_of_le (h.room hk) (Nat.add_le_add_right hquiet.transmitted _)
  · rw [hquiet.memory _ (by simp only [TxRing.slotOffset]; omega)]
    exact h.filled i hi b hb

/-- Every step is quiet that leaves the device. -/
theorem quiet_refl (q : RingName) (d : SharedRings) : contract.quiet q d d := by
  cases q with
  | tx => exact .of_same rfl (fun _ _ => rfl) id
  | rx idx => exact .of_same rfl (fun _ _ _ _ => rfl) id

/-- The pushed register is no control word. -/
theorem ringOf_buftxPushed : ConfigRegs.ringOf RegAddr.buftxPushed = none := by decide

/-- What a call does in its section is quiet for the other rings. -/
theorem quiet_of_allowed {q q' : RingName} {c : Access} (hne : q ≠ q') (hallowed : contract.allowed q c)
    (d : SharedRings) : contract.quiet q' d (d.execute c).2 := by
  cases c with
  | readReg reg => exact quiet_refl q' d
  | load offset => exact quiet_refl q' d
  | writeReg reg value =>
    cases q with
    | tx =>
      obtain rfl : reg = RegAddr.buftxPushed := hallowed
      cases q' with
      | tx => exact absurd rfl hne
      | rx other => exact RxQuiet.writeReg fun hring => by simp [ringOf_buftxPushed] at hring
    | rx idx =>
      obtain rfl : reg = ConfigRegs.bufferRxCtrl idx.toNat := hallowed
      have hring := ConfigRegs.ringOf_toNat idx
      cases q' with
      | tx =>
        refine TxQuiet.writeReg fun hreg => ?_
        rw [hreg, ringOf_buftxPushed] at hring
        exact Option.noConfusion rfl (heq_of_eq hring)
      | rx other =>
        refine RxQuiet.writeReg fun hother => ?_
        rw [hring] at hother
        exact absurd (congrArg RingName.rx (Option.some.inj hother)) hne
  | store offset value =>
    cases q with
    | tx =>
      cases q' with
      | tx => exact absurd rfl hne
      | rx other => exact RxQuiet.store hallowed
    | rx idx => exact hallowed.elim

/-- A write that clears is quiet for every ring. -/
theorem quiet_of_late {c : Access} (hlate : contract.late c) (q : RingName) (d : SharedRings) :
    contract.quiet q d (d.execute c).2 := by
  cases c with
  | readReg reg => exact hlate.elim
  | load offset => exact hlate.elim
  | store offset value => exact hlate.elim
  | writeReg reg value =>
    cases q with
    | tx => exact TxQuiet.writeReg fun _ => hlate
    | rx idx => exact RxQuiet.writeReg fun _ => hlate

/-- A quiet step pushes no packet of a sender and pops none of a receiver. -/
theorem log_of_quiet {q : RingName} (hkept : contract.kept q d) (hquiet : contract.quiet q d d') :
    contract.log q d' = contract.log q d := by
  cases q with
  | tx => exact TxQuiet.pushed hquiet
  | rx idx =>
    obtain ⟨rest, hrest⟩ := RxQuiet.pushed hquiet
    have hpops : (d'.rx idx).pops = (d.rx idx).pops := RxQuiet.pops hquiet
    have hle : (d.rx idx).pops ≤ (d.rx idx).pushed.length := (RxKept.tracks hkept).pops_le
    change (d'.rx idx).pushed.take (d'.rx idx).pops = (d.rx idx).pushed.take (d.rx idx).pops
    rw [hpops, ← hrest, List.take_append_of_le_length hle]

/-- A write that clears pushes and pops nothing. -/
theorem log_writeReg {value : BitVec 32} (hclear : value.getLsbD 0 = false) (q : RingName) (reg : RegAddr)
    (d : SharedRings) : contract.log q (d.writeReg reg value) = contract.log q d := by
  cases q with
  | tx => exact congrArg TxQueue.pushed (tx_writeReg fun _ => hclear)
  | rx idx => exact congrArg (fun queue : RxQueue => queue.pushed.take queue.pops) (rx_writeReg fun _ => hclear)

/-- `udriver_recv` once it has found the ring not empty. -/
def recvFound (bufferId base : ℕ) : UserCode (Option UdpPacket) := do
  let header ← Udriver.xrtBORead base Udriver.packetHdrSizeBytes
  let payload ← Udriver.xrtBORead (base + Udriver.packetHdrSizeBytes) (Udriver.payloadSizeBytes header)
  Udriver.notifyPopToRxBuffer bufferId
  return some ⟨header, payload⟩

/-- `udriver_send` once it has read the head. -/
def sendAt (p : TxPacket) (base : ℕ) : UserCode Bool := do
  Udriver.xrtBOWrite base p.header
  Udriver.xrtBOWrite (base + Udriver.packetHdrSizeBytes) p.payload
  Udriver.writeReg RegAddr.buftxPushed 0
  Udriver.writeReg RegAddr.buftxPushed 1
  Udriver.writeReg RegAddr.buftxPushed 0
  return true

/-- A receiver first reads the control word. -/
theorem code_recv (idx : BufferIdx) : calls.code (.recv idx) =
    .perform (.readReg (ConfigRegs.bufferRxCtrl idx.toNat)) fun reg =>
      (if reg.getLsbD bufferEmptyOffset then return none
      else recvFound idx.toNat (RxRing.slotOffset idx (reg.extractLsb' bufferTailOffset 5).toNat)) >>=
        fun packet => return .received packet := rfl

/-- A sender first reads the full flag, then the head. -/
theorem code_send (p : TxPacket) : calls.code (.send p) =
    .perform (.readReg RegAddr.buftxFull) fun full =>
      (if full ≠ 0 then return false
      else .perform (.readReg RegAddr.buftxHead) fun head => sendAt p (TxRing.slotOffset head.toNat)) >>=
        fun accepted => return .sent accepted := rfl

/-- Reading bytes only loads. -/
theorem within_xrtBORead {allowed : Access → Prop} (h : ∀ offset, allowed (.load offset)) (size offset : ℕ) :
    (Udriver.xrtBORead offset size).Within allowed := by
  induction size generalizing offset with
  | zero => exact Program.Within.pure _
  | succ size ih =>
    refine Program.Within.bind (Program.Within.command (R := Access.Response) (h offset)) fun b => ?_
    exact Program.Within.bind (ih (offset + 1)) fun rest => Program.Within.pure _

/-- Writing bytes only stores from the offset on. -/
theorem within_xrtBOWrite {allowed : Access → Prop} {base : ℕ} (h : ∀ offset b, base ≤ offset → allowed (.store offset b))
    (bytes : List (BitVec 8)) {offset : ℕ} (hoffset : base ≤ offset) :
    (Udriver.xrtBOWrite offset bytes).Within allowed := by
  induction bytes generalizing offset with
  | nil => exact Program.Within.pure _
  | cons b rest ih =>
    refine Program.Within.bind (Program.Within.command (R := Access.Response) (h offset b hoffset)) fun _ => ?_
    exact ih (Nat.le_succ_of_le hoffset)

/-- The control word of an RX ring. -/
theorem read_bufferRxCtrl (d : SharedRings) (idx : BufferIdx) :
    d.regs.read d.status (ConfigRegs.bufferRxCtrl idx.toNat) = ConfigRegs.rxWord (d.regs.bufrxTemp idx)
      ⟨false, (d.rx idx).ring.full, (d.rx idx).ring.empty, BitVec.ofNat 5 (d.rx idx).ring.tailIndex,
        BitVec.ofNat 5 (d.rx idx).ring.headIndex⟩ := by
  rw [ConfigRegs.read, ConfigRegs.ringOf_toNat]
  rfl

/-- The packet that was found and the others that wait. -/
theorem Reading.drop_eq (h : Reading idx slot n d) :
    (d.rx idx).pushed.drop (d.rx idx).pops = slot :: (d.rx idx).pushed.drop ((d.rx idx).pops + 1) := by
  rw [h.pops]
  obtain ⟨hlt, hget⟩ := List.getElem?_eq_some_iff.mp h.next
  rw [List.drop_eq_getElem_cons hlt, hget]

/-- The pop of the packet that was read. -/
theorem Reading.pop (h : Reading idx slot n d) (hlow : popped d.regs idx = false) {value : BitVec 32}
    (hvalue : value.getLsbD bufferPoppedOffset = true) :
    RxKept idx (d.writeReg (ConfigRegs.bufferRxCtrl idx.toNat) value) ∧
      contract.log (.rx idx) (d.writeReg (ConfigRegs.bufferRxCtrl idx.toNat) value) =
        contract.log (.rx idx) d ++ [slot] := by
  have hrx := rx_writeReg_pop (d := d) hlow hvalue
  have hlt : n < (d.rx idx).pushed.length := (List.getElem?_eq_some_iff.mp h.next).1
  have hholds := h.kept.holds
  rw [h.drop_eq] at hholds
  refine ⟨⟨?_, ?_, ?_⟩, ?_⟩
  · rw [hrx]
    exact hholds.pop hlow hvalue
  · rw [hrx]
    change (d.rx idx).pops + 1 ≤ (d.rx idx).pushed.length
    rw [h.pops]
    exact hlt
  · rw [hrx]
    change (decide (0 < (d.rx idx).overruns) || ((d.rx idx).underrun || (d.rx idx).ring.empty)) = false
    rw [← Bool.or_assoc, hholds.empty_eq, List.isEmpty_cons, Bool.or_false]
    exact h.kept.unmisused
  · change List.take _ ((d.writeReg _ value).rx idx).pushed = _
    rw [hrx]
    change (d.rx idx).pushed.take ((d.rx idx).pops + 1) = (d.rx idx).pushed.take (d.rx idx).pops ++ [slot]
    rw [List.take_add_one, h.pops, h.next]
    rfl

/-- `notify_pop_to_rx_buffer` pops the packet that was read. -/
theorem inside_notifyPopToRxBuffer (h : Reading idx slot n d) {packet : UdpPacket} (hpacket : slot.Shows packet) :
    (Udriver.notifyPopToRxBuffer idx.toNat >>= fun _ => pure (.received (some packet))).Inside device calls
      contract (.recv idx) d := by
  have hquiet := fun d d' (hd : Reading idx slot n d) (hq : RxQuiet idx d d') => hd.quiet hq
  refine .stay (Reading idx slot n) h hquiet (fun _ hd => hd.kept) trivial (fun _ => rfl) (fun _ => rfl)
    fun d hd _ => ?_
  generalize (device.execute d (.readReg (ConfigRegs.bufferRxCtrl idx.toNat))).1 = value
  have hclear : (value &&& Udriver.maskClear).getLsbD 0 = false := (RxRing.getLsbD_maskClear value).1
  have hset : (value ||| Udriver.maskSet).getLsbD 0 = true := (RxRing.getLsbD_maskSet value).1
  have hring : ConfigRegs.ringOf (ConfigRegs.bufferRxCtrl idx.toNat) = some idx := ConfigRegs.ringOf_toNat idx
  refine .stay (Reading idx slot n) hd hquiet (fun _ hd => hd.kept) rfl
    (log_writeReg hclear _ _) (fun _ => ?_) fun d hd _ => ?_
  · change (true && !(value &&& Udriver.maskClear).getLsbD 0) = true
    rw [hclear]
    rfl
  have hlow : popped (d.writeReg (ConfigRegs.bufferRxCtrl idx.toNat) (value &&& Udriver.maskClear)).regs idx = false := by
    change popped (d.regs.write _ _) idx = false
    rw [popped_write, if_pos hring]
    exact hclear
  have hcleared : Reading idx slot n (d.writeReg (ConfigRegs.bufferRxCtrl idx.toNat) (value &&& Udriver.maskClear)) :=
    hd.quiet (RxQuiet.writeReg fun _ => hclear)
  refine .leave (fun d => Reading idx slot n d ∧ popped d.regs idx = false) ⟨hcleared, hlow⟩
    (fun d d' hd hq => ⟨hd.1.quiet hq, RxQuiet.low hq hd.2⟩) (fun _ hd => hd.1.kept) rfl (fun _ => ?_) fun d hd _ => ?_
  · change (true && !(value ||| Udriver.maskSet).getLsbD 0) = false
    rw [hset]
    rfl
  · obtain ⟨hkept, hlog⟩ := hd.1.pop hd.2 hset
    refine ⟨hkept, .received (some packet), slot, hlog, rfl, hpacket, ?_⟩
    exact ⟨hclear, fun _ => ⟨rfl, rfl⟩⟩

/-- The bytes of the next packet in memory. -/
theorem Reading.load (h : Reading idx slot n d) {off : ℕ} (hoff : off < bufferElemMaxSize) :
    d.memory (RxRing.slotOffset idx (n % bufferRxLength) + off) = slot off :=
  h.kept.unread n slot h.next (Nat.le_of_eq h.pops) off hoff

/-- What a receiver performs before its pop. -/
theorem stays_of_load (c : Access) (hc : ∃ offset, c = .load offset) :
    contract.allowed (.rx idx) c ∧ (∀ r, inside (.recv idx) true c r = true) ∧
      ∀ d, contract.log (.rx idx) (device.execute d c).2 = contract.log (.rx idx) d := by
  obtain ⟨offset, rfl⟩ := hc
  exact ⟨trivial, fun _ => rfl, fun _ => rfl⟩

/-- Reading bytes from the next packet on, of which those in its slot are known. -/
theorem outline_xrtBORead (responds : SharedRings → (c : Access) → c.Response → SharedRings → Prop)
    {inv : SharedRings → Prop} (hresponds : ∀ d c r d', responds d c r d' → device.execute d c = (r, d'))
    (hinv : ∀ d, Reading idx slot n d → inv d) (start size : ℕ) (h : Reading idx slot n d) :
    (Udriver.xrtBORead (RxRing.slotOffset idx (n % bufferRxLength) + start) size).Outline (RxQuiet idx) responds inv
      (fun bytes d => (bytes.length = size ∧ ∀ k b, bytes[k]? = some b → start + k < bufferElemMaxSize →
        b = slot (start + k)) ∧ Reading idx slot n d) d := by
  refine Udriver.outline_xrtBORead_such (Reading idx slot n)
    (fun k b => start + k < bufferElemMaxSize → b = slot (start + k)) (fun _ _ hd hq => hd.quiet hq) hinv size _ d h ?_
  rintro d k b d' hd - hload
  obtain ⟨rfl, rfl⟩ := Prod.mk.inj (hresponds _ _ _ _ hload)
  rw [Nat.add_assoc]
  exact ⟨fun hk => hd.load hk, hd⟩

/-- The header of a slot, from its bytes. -/
theorem header_eq {header : List (BitVec 8)} (h : header.length = Udriver.packetHdrSizeBytes ∧
    ∀ k b, header[k]? = some b → 0 + k < bufferElemMaxSize → b = slot (0 + k)) :
    header = (List.range Udriver.packetHdrSizeBytes).map slot := by
  refine List.ext_getElem (by rw [h.1, List.length_map, List.length_range]) fun k hk _ => ?_
  have hlt : k < bufferElemMaxSize := Nat.lt_of_lt_of_le hk (by rw [h.1]; decide)
  rw [h.2 k _ (List.getElem?_eq_getElem hk) (by rwa [Nat.zero_add]), List.getElem_map, List.getElem_range,
    Nat.zero_add]

/-- A receiver that has found a packet reads it and pops it. -/
theorem inside_recvFound (h : Reading idx slot n d) :
    (recvFound idx.toNat (RxRing.slotOffset idx (n % bufferRxLength)) >>= fun packet =>
      pure (.received packet)).Inside device calls contract (.recv idx) d := by
  have hread (start size : ℕ) {d : SharedRings} (hd : Reading idx slot n d) :=
    outline_xrtBORead (fun d c r d' => contract.ready d c ∧ device.execute d c = (r, d'))
      (fun _ _ _ _ h => h.2) (fun _ hd => hd.kept) start size hd
  have hfirst := hread 0 Udriver.packetHdrSizeBytes h
  rw [Nat.add_zero] at hfirst
  rw [recvFound, Program.bind_assoc]
  refine Program.Inside.bind stays_of_load (within_xrtBORead (fun offset => ⟨offset, rfl⟩) _ _) (hfirst.mono ?_)
  rintro header d ⟨hheader, hd⟩
  have hwords := header_eq hheader
  rw [Program.bind_assoc]
  refine Program.Inside.bind stays_of_load (within_xrtBORead (fun offset => ⟨offset, rfl⟩) _ _)
    ((hread _ _ hd).mono ?_)
  rintro payload d ⟨⟨hlength, hpayload⟩, hd⟩
  rw [Program.bind_assoc]
  rw [hwords] at hlength
  exact inside_notifyPopToRxBuffer hd ⟨hwords, hlength, hpayload⟩

/-- A receiver only looks at the control word until it finds a packet. -/
theorem outside_recv (idx : BufferIdx) :
    (calls.code (.recv idx)).Outside device calls contract (.recv idx) := by
  rw [code_recv]
  refine ⟨fun _ => rfl, fun d (hkept : RxKept idx d) => ?_⟩
  have hread : (device.execute d (.readReg (ConfigRegs.bufferRxCtrl idx.toNat))).1 = _ := read_bufferRxCtrl d idx
  have hinside (stored : BitVec 32) (status : RingStatus) : calls.inside (.recv idx) false
      (.readReg (ConfigRegs.bufferRxCtrl idx.toNat)) (ConfigRegs.rxWord stored status) = !status.empty := by
    change (false || (decide _ && !(ConfigRegs.rxWord stored status).getLsbD _)) = _
    rw [ConfigRegs.getLsbD_rxWord_empty, decide_eq_true rfl]
    rfl
  rw [hread]
  beta_reduce
  rw [hinside, ConfigRegs.getLsbD_rxWord_empty, ConfigRegs.extractLsb'_rxWord_tail]
  cases hempty : (d.rx idx).ring.empty with
  | true => exact ⟨fun hfound => Bool.noConfusion hfound, fun _ => rfl⟩
  | false =>
    refine ⟨fun _ => ?_, fun hnone => Bool.noConfusion hnone⟩
    have htracks := hkept.tracks
    rw [htracks.empty, decide_eq_false_iff_not] at hempty
    have hlt : (d.rx idx).pops < (d.rx idx).pushed.length := Nat.lt_of_le_of_ne htracks.pops_le (Ne.symm hempty)
    have htail : (BitVec.ofNat 5 (d.rx idx).ring.tailIndex).toNat = (d.rx idx).pops % bufferRxLength := by
      rw [BitVec.toNat_ofNat, htracks.tail]
      exact Nat.mod_eq_of_lt (Nat.mod_lt _ (by decide))
    rw [htail]
    exact inside_recvFound ⟨hkept, rfl, List.getElem?_eq_getElem hlt⟩

/-- The head as the sender reads it. -/
theorem TxKept.toNat_read_head (h : TxKept d) :
    (d.regs.read d.status RegAddr.buftxHead).toNat = d.tx.pushed.length % bufferTxLength := by
  have hread : d.regs.read d.status RegAddr.buftxHead = (BitVec.ofNat 5 d.tx.ring.headIndex).setWidth 32 := rfl
  have hlt : d.tx.pushed.length % bufferTxLength < 32 := Nat.mod_lt _ (by decide)
  rw [hread, h.tracks.head, BitVec.toNat_setWidth, BitVec.toNat_ofNat, Nat.mod_eq_of_lt hlt,
    Nat.mod_eq_of_lt (by omega)]

/-- The next byte of the packet is written into a ring with room. -/
theorem Filling.store (h : Filling p m k d) (hfits : p.Fits) (hfull : d.tx.ring.full = false) {b : BitVec 8}
    (hb : p.bytes[k]? = some b) :
    Filling p m (k + 1) (d.store (TxRing.slotOffset (m % bufferTxLength) + k) b) := by
  have hk : k < bufferElemMaxSize := Nat.lt_of_lt_of_le (List.getElem?_eq_some_iff.mp hb).1 hfits.length_bytes
  have htracks := h.kept.tracks
  have hroom : m < d.tx.transmitted.length + bufferTxLength := by
    rw [htracks.full, decide_eq_false_iff_not] at hfull
    rw [← h.head]
    exact Nat.lt_of_le_of_ne htracks.fits hfull
  refine ⟨⟨htracks, fun i stored hstored hwaiting off hoff => ?_, h.kept.transmitted, h.kept.unmisused⟩, h.head,
    fun _ => hroom, fun i hi b' hb' => ?_⟩
  · rw [← h.kept.waiting i stored hstored hwaiting off hoff]
    refine if_neg fun heq => ?_
    -- a slot that waits is not the head of a ring with room
    have hi : i < m := h.head ▸ (List.getElem?_eq_some_iff.mp hstored).1
    have hwaiting' : d.tx.transmitted.length ≤ i := hwaiting
    have hne : m % bufferTxLength ≠ i % bufferTxLength := by
      intro hsame
      have hmi := (CircularBuffer.mod_eq_iff (Nat.le_of_lt hi) (by omega)).mp hsame
      omega
    simp only [TxRing.slotOffset, bufferElemMaxSize] at heq hoff hk
    omega
  · by_cases hik : i = k
    · subst hik
      exact (if_pos rfl).trans (Option.some.inj (hb.symm.trans hb'))
    · exact (if_neg (by omega)).trans (h.filled i (by omega) b' hb')

/-- The push of the packet in the slot at the head. -/
theorem Filling.push (h : Filling p m p.bytes.length d) (hlow : d.regs.buftxPushed = false) :
    TxKept (d.writeReg RegAddr.buftxPushed 1) ∧ ∃ slot, p.In slot ∧
      (d.writeReg RegAddr.buftxPushed 1).tx.pushed = d.tx.pushed ++ [slot] := by
  have hrises : (!d.regs.buftxPushed && (d.regs.write RegAddr.buftxPushed 1).buftxPushed) = true := by
    rw [hlow]
    rfl
  have htx : (d.writeReg RegAddr.buftxPushed 1).tx = d.tx.push (d.txSlot d.tx.ring.headIndex) := if_pos hrises
  have htracks := h.kept.tracks
  have hroom : d.tx.pushed.length < d.tx.transmitted.length + bufferTxLength := by
    rw [h.head]
    refine h.room ?_
    rw [TxPacket.bytes, List.length_append, p.header_length]
    exact Nat.lt_of_lt_of_le (by decide) (Nat.le_add_right _ _)
  have hpushed : (d.tx.push (d.txSlot d.tx.ring.headIndex)).pushed = d.tx.pushed ++ [d.txSlot d.tx.ring.headIndex] := rfl
  refine ⟨⟨?_, fun i stored hstored hwaiting off hoff => ?_, ?_, ?_⟩, d.txSlot d.tx.ring.headIndex, ?_, ?_⟩
  · rw [htx, hpushed, List.length_append]
    exact CircularBuffer.tracks_step (by decide) htracks (fun _ => Or.inr hroom) fun hpop => absurd hpop Bool.false_ne_true
  · rw [htx, hpushed] at hstored
    rw [htx] at hwaiting
    by_cases hold : i < d.tx.pushed.length
    · rw [List.getElem?_append_left hold] at hstored
      exact h.kept.waiting i stored hstored hwaiting off hoff
    · have hlast : i = d.tx.pushed.length := by
        have hlt := (List.getElem?_eq_some_iff.mp hstored).1
        simp only [List.length_append, List.length_singleton] at hlt
        omega
      subst hlast
      rw [List.getElem?_concat_length] at hstored
      rw [← Option.some.inj hstored, htracks.head]
      rfl
  · have hle : d.tx.transmitted.length ≤ d.tx.pushed.length := htracks.pops_le
    have htransmitted : (d.tx.push (d.txSlot d.tx.ring.headIndex)).transmitted = d.tx.transmitted := rfl
    rw [htx, hpushed, htransmitted, List.take_append_of_le_length hle]
    exact h.kept.transmitted
  · rw [htx]
    change (d.tx.misused || d.tx.ring.full) = false
    rw [h.kept.unmisused, htracks.full, decide_eq_false (by omega)]
    rfl
  · intro i b hb
    rw [txSlot, htracks.head, h.head]
    exact h.filled i (List.getElem?_eq_some_iff.mp hb).1 b hb
  · rw [htx, hpushed]

/-- What a sender performs before it pushes. -/
theorem stays_of_store (p : TxPacket) (c : Access) (hc : ∃ offset b, Udriver.bufTxOffsetBytes ≤ offset ∧ c = .store offset b) :
    contract.allowed .tx c ∧ (∀ r, inside (.send p) true c r = true) ∧
      ∀ d, contract.log .tx (device.execute d c).2 = contract.log .tx d := by
  obtain ⟨offset, b, hoffset, rfl⟩ := hc
  exact ⟨hoffset, fun _ => rfl, fun _ => rfl⟩

/-- Writing a part of the packet. -/
theorem outline_xrtBOWrite (hfits : p.Fits) (chunk : List (BitVec 8)) (h : Filling p m k d)
    (hchunk : ∀ i b, chunk[i]? = some b → p.bytes[k + i]? = some b) :
    (Udriver.xrtBOWrite (TxRing.slotOffset (m % bufferTxLength) + k) chunk).Outline TxQuiet
      (fun d c r d' => contract.ready d c ∧ device.execute d c = (r, d')) TxKept
      (fun _ d => Filling p m (k + chunk.length) d) d := by
  refine Udriver.outline_xrtBOWrite_of (Filling p m) p.bytes _ (fun _ _ _ hd hq => hd.quiet hq) (fun _ _ hd => hd.kept)
    ?_ chunk k d h hchunk
  rintro k d b r d' hd hb ⟨hfull, hstore⟩
  obtain ⟨-, rfl⟩ := Prod.mk.inj hstore
  exact hd.store hfits hfull hb

/-- A sender that has read the head fills the slot and pushes it. -/
theorem inside_sendAt (hfits : p.Fits) (h : Filling p m 0 d) :
    (sendAt p (TxRing.slotOffset (m % bufferTxLength)) >>= fun accepted => pure (.sent accepted)).Inside device calls
      contract (.send p) d := by
  have hwithin {k : ℕ} (chunk : List (BitVec 8)) : (Udriver.xrtBOWrite (TxRing.slotOffset (m % bufferTxLength) + k)
      chunk).Within fun c => ∃ offset b, Udriver.bufTxOffsetBytes ≤ offset ∧ c = .store offset b :=
    within_xrtBOWrite (fun offset b hoffset => ⟨offset, b, hoffset, rfl⟩) chunk
      (by simp only [TxRing.slotOffset]; omega)
  have hheader := outline_xrtBOWrite hfits p.header h fun i b hb => by
    rw [Nat.zero_add, TxPacket.bytes, List.getElem?_append_left (List.getElem?_eq_some_iff.mp hb).1, hb]
  rw [Nat.add_zero, Nat.zero_add, p.header_length] at hheader
  rw [sendAt, Program.bind_assoc]
  refine Program.Inside.bind (stays_of_store p) (hwithin (k := 0) p.header) (hheader.mono fun _ d hd => ?_)
  have hpayload := outline_xrtBOWrite hfits p.payload hd fun i b hb => by
    rw [TxPacket.bytes, ← p.header_length, List.getElem?_append_right (Nat.le_add_right _ _),
      Nat.add_sub_cancel_left, hb]
  rw [Program.bind_assoc]
  refine Program.Inside.bind (stays_of_store p) (hwithin p.payload) (hpayload.mono fun _ d hd => ?_)
  have hall : Udriver.packetHdrSizeBytes + p.payload.length = p.bytes.length := by
    rw [TxPacket.bytes, List.length_append, p.header_length]
  rw [hall] at hd
  refine .stay (Filling p m p.bytes.length) hd (fun _ _ hd hq => hd.quiet hq) (fun _ hd => hd.kept) rfl
    (log_writeReg rfl _ _) (fun _ => rfl) fun d hd _ => ?_
  have hcleared : Filling p m p.bytes.length (d.writeReg RegAddr.buftxPushed 0) := hd.quiet (TxQuiet.writeReg fun _ => rfl)
  refine .leave (fun d => Filling p m p.bytes.length d ∧ d.regs.buftxPushed = false) ⟨hcleared, rfl⟩
    (fun _ _ hd hq => ⟨hd.1.quiet hq, TxQuiet.low hq hd.2⟩) (fun _ hd => hd.1.kept) rfl (fun _ => rfl) fun d hd _ => ?_
  obtain ⟨hkept, slot, hin, hpushed⟩ := hd.1.push hd.2
  exact ⟨hkept, .sent true, slot, hpushed, rfl, hin, rfl, fun _ => ⟨rfl, rfl⟩⟩

/-- A sender only looks at the ring until it has read the head. -/
theorem outside_send (hfits : p.Fits) : (calls.code (.send p)).Outside device calls contract (.send p) := by
  rw [code_send]
  refine ⟨fun _ => rfl, fun d _ => ⟨fun hin => Bool.noConfusion hin, fun _ => ?_⟩⟩
  beta_reduce
  split
  · rfl
  · refine ⟨fun _ => rfl, fun d (hkept : TxKept d) => ⟨fun _ => ?_, fun hout => Bool.noConfusion hout⟩⟩
    have hhead : (device.execute d (.readReg RegAddr.buftxHead)).1.toNat = d.tx.pushed.length % bufferTxLength :=
      hkept.toNat_read_head
    change (sendAt p (TxRing.slotOffset (device.execute d (.readReg RegAddr.buftxHead)).1.toNat) >>= fun accepted =>
      pure (.sent accepted)).Inside device calls contract (.send p) d
    rw [hhead]
    exact inside_sendAt hfits ⟨hkept, rfl, fun hk => absurd hk (Nat.lt_irrefl 0), fun i hi => absurd hi (Nat.not_lt_zero i)⟩

/-- The outlines of single calls hold under everything the other threads and the PL do. -/
theorem lawful : contract.Lawful device calls where
  refl := quiet_refl
  kept := fun q d d' hquiet => by
    cases q with
    | tx => exact TxQuiet.kept hquiet
    | rx idx => exact RxQuiet.kept hquiet
  log := fun _ _ _ => log_of_quiet
  frame := fun _ _ _ d hne hallowed => quiet_of_allowed hne hallowed d
  late := fun _ q d hlate => quiet_of_late hlate q d
  outside := by
    intro k hadmits
    cases k with
    | send p => exact outside_send hadmits
    | recv idx => exact outside_recv idx

/-- The packets among the results that `udriver_send` has accepted. -/
def sentPackets (results : List (RingCall × CallResult)) : List TxPacket :=
  results.filterMap fun
    | (.send p, .sent true) => some p
    | _ => none

/-- The packets among the results that `udriver_recv` has returned from a ring. -/
def receivedPackets (idx : BufferIdx) (results : List (RingCall × CallResult)) : List UdpPacket :=
  results.filterMap fun
    | (.recv other, .received (some packet)) => if other = idx then some packet else none
    | _ => none

/-- The system: threads that call, and the rings. -/
abbrev System (T : Type) := Threads T Access Access.Response RingCall CallResult SharedRings

/-- The accepted packets are those pushed, each once, and what is transmitted are these in their order and
unchanged; the popped packets of each ring are those returned, each once; and no ring was pushed when full
or popped when empty. Besides the calls that have returned, the pending ones count: at most one of each
thread, which has pushed or popped and is to return. -/
structure Exact {T : Type} (s : System T) : Prop where
  calls : ∃ pending : List (T × RingCall × CallResult), (pending.map (·.1)).Nodup ∧
    (∀ y ∈ pending, ∃ x, s.running y.1 = some x ∧ x.call = y.2.1) ∧
    (∃ order, order.Perm (sentPackets (s.results ++ pending.map (·.2))) ∧
      List.Forall₂ TxPacket.In order s.device.tx.pushed) ∧
    ∀ idx, (receivedPackets idx (s.results ++ pending.map (·.2))).Perm
      (((s.device.rx idx).pushed.take (s.device.rx idx).pops).map Slot.packet)
  transmitted : s.device.tx.transmitted =
    (s.device.tx.pushed.take s.device.tx.transmitted.length).map TxRing.slotBytes
  popped : ∀ idx, (s.device.rx idx).pops ≤ (s.device.rx idx).pushed.length
  unmisused : s.device.tx.misused = false ∧ ∀ idx, (s.device.rx idx).misused = false

/-- No call enters its section while another one for the same ring is inside, a sender writes only while
the TX ring has room, and the PL pushes only into an RX ring with room. The packets, those to send and those
that are pushed, end within a slot. -/
structure Orderly {T : Type} (s : System T) (i : ThreadStep T RingCall PlStep) : Prop where
  exclusive : Threads.Exclusive device SharedRings.calls s i
  storesWithRoom : ∀ offset b, s.Performs i (.store offset b) → s.device.tx.ring.full = false
  receivesWithRoom : ∀ idx slot, i = .move (.receive idx slot) → (s.device.rx idx).ring.full = false
  sendsFitting : ∀ t p, i = .call t (.send p) → p.Fits
  receivesFitting : ∀ idx slot, i = .move (.receive idx slot) → slot.Fits

/-- The effects on the TX ring are the accepted packets. -/
theorem sentPackets_effects (results : List (RingCall × CallResult)) :
    sentPackets (Threads.effects calls contract .tx results) = sentPackets results := by
  rw [sentPackets, sentPackets, Threads.effects, List.filterMap_filter]
  congr 1
  funext y
  obtain ⟨call | call, result⟩ := y
  · cases result with
    | sent accepted => cases accepted <;> rfl
    | received packet => cases packet <;> rfl
  · rfl

/-- The effects on an RX ring are the returned packets. -/
theorem receivedPackets_effects (idx : BufferIdx) (results : List (RingCall × CallResult)) :
    receivedPackets idx (Threads.effects calls contract (.rx idx) results) = receivedPackets idx results := by
  rw [receivedPackets, receivedPackets, Threads.effects, List.filterMap_filter]
  congr 1
  funext y
  obtain ⟨p | other, result⟩ := y
  · rfl
  · cases result with
    | sent accepted => simp
    | received packet =>
      cases packet with
      | none => simp [contract]
      | some packet => by_cases hother : other = idx <;> simp [calls, contract, hother]

/-- The pushed slots hold the packets of the calls they are the effects of. -/
theorem forall₂_sentPackets {order : List (RingCall × CallResult)} {slots : List Slot}
    (h : List.Forall₂ (fun y slot => contract.accounts y.1 y.2 slot) order slots)
    (hring : ∀ y ∈ order, calls.resource y.1 = .tx) : List.Forall₂ TxPacket.In (sentPackets order) slots := by
  induction h with
  | nil => exact .nil
  | @cons y slot order slots haccounts _ ih =>
    have hrest := ih fun y hy => hring y (List.mem_cons_of_mem _ hy)
    have hfirst := hring y List.mem_cons_self
    obtain ⟨call, result⟩ := y
    cases call with
    | recv idx => exact RingName.noConfusion hfirst
    | send p =>
      cases result with
      | received packet => exact haccounts.elim
      | sent accepted =>
        cases accepted with
        | false => exact haccounts.elim
        | true => exact .cons haccounts hrest

/-- The popped slots, if their packets end within them, hold the packets of the calls they are the effects of. -/
theorem receivedPackets_eq {order : List (RingCall × CallResult)} {slots : List Slot}
    (h : List.Forall₂ (fun y slot => contract.accounts y.1 y.2 slot) order slots)
    (hring : ∀ y ∈ order, calls.resource y.1 = .rx idx) (hfits : ∀ slot ∈ slots, slot.Fits) :
    receivedPackets idx order = slots.map Slot.packet := by
  induction h with
  | nil => rfl
  | @cons y slot order slots haccounts _ ih =>
    have hrest := ih (fun y hy => hring y (List.mem_cons_of_mem _ hy)) fun slot hslot =>
      hfits slot (List.mem_cons_of_mem _ hslot)
    have hfirst := hring y List.mem_cons_self
    obtain ⟨call, result⟩ := y
    cases call with
    | send p => exact RingName.noConfusion hfirst
    | recv other =>
      obtain rfl := RingName.rx.inj hfirst
      cases result with
      | sent accepted => exact haccounts.elim
      | received packet =>
        cases packet with
        | none => exact haccounts.elim
        | some packet =>
          obtain rfl : packet = slot.packet := Slot.Shows.eq_packet haccounts (hfits slot List.mem_cons_self)
          rw [List.map_cons, ← hrest]
          simp [receivedPackets]

/-- What the outlines of the calls give at every time. -/
theorem exact_of_inv {T : Type} {s : System T} {pending : List (T × RingCall × CallResult)}
    {order : RingName → List (RingCall × CallResult)}
    (h : Threads.Inv device SharedRings.calls contract pending order s)
    (hfits : ∀ idx, ∀ slot ∈ (s.device.rx idx).pushed, slot.Fits) : Exact s := by
  have htx : TxKept s.device := h.kept .tx
  have hrx (idx : BufferIdx) : RxKept idx s.device := h.kept (.rx idx)
  have hring (q : RingName) : ∀ y ∈ order q, SharedRings.calls.resource y.1 = q := by
    intro y hy
    have heffect := (h.perm q).mem_iff.mp hy
    simp only [Threads.effects, List.mem_filter, Bool.and_eq_true, decide_eq_true_eq] at heffect
    exact heffect.2.1
  have hsent := forall₂_sentPackets (h.accounted .tx) (hring .tx)
  refine ⟨⟨pending, h.once, h.running, ⟨sentPackets (order .tx), ?_, hsent⟩, fun idx => ?_⟩,
    htx.transmitted, fun idx => (hrx idx).tracks.pops_le, htx.unmisused, fun idx => (hrx idx).unmisused⟩
  · rw [← sentPackets_effects (s.results ++ _)]
    exact (h.perm .tx).filterMap _
  · have hpopped := receivedPackets_eq (h.accounted (.rx idx)) (hring (.rx idx)) fun slot hslot =>
      hfits idx slot (List.mem_of_mem_take hslot)
    change _ = ((s.device.rx idx).pushed.take (s.device.rx idx).pops).map Slot.packet at hpopped
    rw [← hpopped, ← receivedPackets_effects idx (s.results ++ _)]
    exact ((h.perm (.rx idx)).filterMap _).symm

/-- After reset every ring is empty. -/
theorem kept_start (opened : BufferIdx → Bool) (control : RegAddr → BitVec 32) (q : RingName) :
    contract.kept q (start opened control) := by
  cases q with
  | tx =>
    exact ⟨CircularBuffer.tracks_reset (by decide), fun k _ hslot => Option.noConfusion rfl (heq_of_eq hslot), rfl, rfl⟩
  | rx idx =>
    have hholds : RxHolds idx 0 [] (start opened control) :=
      ⟨CircularBuffer.tracks_reset (by decide), fun k _ hslot => Option.noConfusion rfl (heq_of_eq hslot)⟩
    exact ⟨hholds, Nat.le_refl _, rfl⟩

/-- No call in its section notices what the PL does. -/
theorem quiet_move {step : PlStep} (hlegal : d.legal step)
    (hroom : ∀ idx slot, step = .receive idx slot → (d.rx idx).ring.full = false) (q : RingName) :
    contract.quiet q d (d.move step) := by
  cases step with
  | receive idx slot =>
    cases q with
    | tx => exact TxQuiet.receive d idx slot
    | rx other => exact RxQuiet.receive (hroom idx slot rfl)
  | transmit =>
    cases q with
    | tx => exact TxQuiet.transmit hlegal
    | rx idx => exact .of_same rfl (fun _ _ _ _ => rfl) id

/-- In an orderly run every pushed packet ends within its slot. -/
theorem fits_step {T : Type} [DecidableEq T] {s : System T} {i : ThreadStep T RingCall PlStep} (horderly : Orderly s i)
    (h : ∀ idx, ∀ slot ∈ (s.device.rx idx).pushed, slot.Fits) :
    ∀ idx, ∀ slot ∈ (((Threads.machine device calls).step s i).device.rx idx).pushed, slot.Fits := by
  intro idx slot hslot
  cases i with
  | call t k => exact h idx slot hslot
  | move step =>
    rcases mem_pushed_move hslot with hold | rfl
    · exact h idx slot hold
    · exact horderly.receivesFitting idx slot rfl
  | advance t =>
    change slot ∈ ((s.step device calls (.advance t)).device.rx idx).pushed at hslot
    rw [Threads.step] at hslot
    split at hslot
    · exact h idx slot hslot
    · exact h idx slot hslot
    · change slot ∈ ((s.device.execute _).2.rx idx).pushed at hslot
      rw [pushed_execute] at hslot
      exact h idx slot hslot

/-- In every orderly run of any number of threads, from any open sockets, the calls are exact. -/
theorem exact_of_orderly {T : Type} [DecidableEq T] (opened : BufferIdx → Bool) (control : RegAddr → BitVec 32)
    (s : System T) (hreach : ((Threads.machine device calls).restrict Orderly).Reachable
      (Threads.start (start opened control)) s) : Exact s := by
  have hinv : (∃ pending order, Threads.Inv device calls contract pending order s) ∧
      ∀ idx, ∀ slot ∈ (s.device.rx idx).pushed, slot.Fits := by
    refine @Clocked.Machine.invariant _ _ _ _
      (fun s => (∃ pending order, Threads.Inv device calls contract pending order s) ∧
        ∀ idx, ∀ slot ∈ (s.device.rx idx).pushed, slot.Fits)
      ⟨⟨[], _, Threads.inv_start (kept_start opened control) ?_⟩, fun idx _ hslot => absurd hslot List.not_mem_nil⟩ ?_ s hreach
    · intro q
      cases q <;> rfl
    · rintro s i ⟨⟨pending, order, h⟩, hfits⟩ ⟨hlegal, horderly⟩
      refine ⟨Threads.inv_step lawful i h hlegal ?_ horderly.exclusive ?_ ?_, fits_step horderly hfits⟩
      · intro t k hcall
        cases k with
        | send p => exact horderly.sendsFitting t p hcall
        | recv idx => trivial
      · intro c hperforms
        cases c with
        | store offset b => exact horderly.storesWithRoom offset b hperforms
        | readReg reg => trivial
        | writeReg reg value => trivial
        | load offset => trivial
      · rintro step rfl q
        exact quiet_move hlegal (fun idx slot hstep => horderly.receivesWithRoom idx slot (by rw [hstep])) q
  obtain ⟨⟨pending, order, h⟩, hfits⟩ := hinv
  exact exact_of_inv h hfits

section Example

instance (d : SharedRings) (step : PlStep) : Decidable (device.legal d step) :=
  inferInstanceAs (Decidable (d.legal step))

/-- What makes a step of two threads orderly. -/
def Fair (s : System Bool) (i : ThreadStep Bool RingCall PlStep) : Prop :=
  (∀ t, Threads.entered device SharedRings.calls s i = none ∨
    Threads.occupied SharedRings.calls s t ≠ Threads.entered device SharedRings.calls s i) ∧
  match i with
  | .call _ (.send p) => p.Fits
  | .call _ (.recv _) => True
  | .advance t => (s.performed (.advance t : ThreadStep Bool RingCall PlStep)).all (fun
      | .store _ _ => !s.device.tx.ring.full
      | _ => true) = true
  | .move (.receive idx slot) => (s.device.rx idx).ring.full = false ∧ slot.Fits
  | .move .transmit => True

instance (s : System Bool) : (i : ThreadStep Bool RingCall PlStep) → Decidable (Fair s i)
  | .call _ (.send _) => inferInstanceAs (Decidable (_ ∧ TxPacket.Fits _))
  | .call _ (.recv _) => inferInstanceAs (Decidable (_ ∧ True))
  | .advance _ => inferInstanceAs (Decidable (_ ∧ _ = true))
  | .move (.receive _ slot) => inferInstanceAs (Decidable (_ ∧ _ = false ∧ slot.Fits))
  | .move .transmit => inferInstanceAs (Decidable (_ ∧ True))

instance (s : System Bool) (i : ThreadStep Bool RingCall PlStep) :
    Decidable (((Threads.machine device SharedRings.calls).restrict Fair).legal s i) :=
  inferInstanceAs (Decidable (_ ∧ Fair s i))

/-- Such a step is. -/
theorem Fair.orderly {s : System Bool} {i : ThreadStep Bool RingCall PlStep} (h : Fair s i) : Orderly s i where
  exclusive := Threads.exclusive_of_entered h.1
  storesWithRoom := by
    intro offset b hperforms
    have hcommand := Threads.performed_of_performs hperforms
    obtain ⟨t, x, next, rfl, -⟩ := hperforms
    have hroom := h.2
    simp only [hcommand, Option.all_some, Bool.not_eq_true'] at hroom
    exact hroom
  receivesWithRoom := by
    rintro idx slot rfl
    exact h.2.1
  sendsFitting := by
    rintro t p rfl
    exact h.2
  receivesFitting := by
    rintro idx slot rfl
    exact h.2.2

/-- A packet of one byte. -/
def oneByte (b : BitVec 8) : TxPacket := ⟨⟨1 :: List.replicate 39 0, [b]⟩, rfl⟩

/-- The same in a slot. -/
def oneByteSlot (b : BitVec 8) : Slot := fun k => if k = 0 then 1 else if k = Udriver.packetHdrSizeBytes then b else 0

/-- Two packets arrive. Of two threads first one sends while the other one receives, access by access in turn,
then the other way round. Both packets that were sent are transmitted. -/
def twoThreads : List (ThreadStep Bool RingCall PlStep) :=
  let turns : List (ThreadStep Bool RingCall PlStep) := (List.replicate 47 [.advance false, .advance true]).flatten
  .move (.receive 0 (oneByteSlot 5)) :: .move (.receive 0 (oneByteSlot 6)) ::
    .call false (.send (oneByte 7)) :: .call true (.recv 0) :: (turns ++
      .call false (.recv 0) :: .call true (.send (oneByte 8)) :: (turns ++ [.move .transmit, .move .transmit]))

/-- After it. -/
def afterTwoThreads : System Bool :=
  (Threads.machine device calls).run (Threads.start (start (fun _ => true) fun _ => 0)) twoThreads

/-- The run is exact, and all four calls have returned. -/
theorem exact_twoThreads : Exact afterTwoThreads ∧
    (sentPackets afterTwoThreads.results).map (·.payload) = [[7], [8]] ∧
    (receivedPackets 0 afterTwoThreads.results).map (·.payload) = [[5], [6]] ∧
    afterTwoThreads.device.tx.transmitted.length = 2 := by
  refine ⟨exact_of_orderly (fun _ => true) (fun _ => 0) _ ⟨twoThreads, ?_, rfl⟩, by decide +kernel⟩
  have hfair : ((Threads.machine device calls).restrict Fair).Legal
      (Threads.start (start (fun _ => true) fun _ => 0)) twoThreads := by decide +kernel
  exact Clocked.Machine.Legal.mono ((Threads.machine device calls).restrict Fair)
    ((Threads.machine device calls).restrict Orderly) rfl hfair fun _ _ _ h => ⟨h.1, h.2.orderly⟩

end Example

section Counterexample

/-- One packet; two receivers find it, then each of them reads and pops the slot. -/
def twoReceivers : List (ThreadStep Bool RingCall PlStep) :=
  [.move (.receive 0 fun _ => 0), .call false (.recv 0), .call true (.recv 0), .advance false, .advance true] ++
    List.replicate 45 (.advance false) ++ List.replicate 45 (.advance true)

/-- Two receivers return one packet, and the second of them pops an empty ring. -/
theorem not_exact : ¬ ∀ s : System Bool, (Threads.machine device calls).Reachable
    (Threads.start (start (fun _ => true) fun _ => 0)) s → Exact s := by
  intro h
  have hexact := h _ ⟨twoReceivers, by decide +kernel, rfl⟩
  have hunmisused := hexact.unmisused.2 0
  revert hunmisused
  decide +kernel

end Counterexample

end SharedRings

end UdpIpCore
