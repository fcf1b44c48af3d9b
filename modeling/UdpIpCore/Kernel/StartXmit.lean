import UdpIpCore.Kernel.DataPath
import UdpIpCore.Kernel.PktCompose

/-!
# The transmit path of the network driver

`udp_core_ndo_start_xmit` with the socket buffer, the statistics and the TX ring. A packet that
the device cannot carry is dropped and one that was copied is sent; in both cases the buffer is
freed and counted. With a full ring it is neither.
-/

namespace UdpIpCore

open Interaction

namespace Kernel

/-- `NETDEV_TX_OK`. -/
def netdevTxOk : ℕ := 0

/-- The address of the slot, as a `u32` from the head. -/
def txSlotOffset (head : BitVec 32) : ℕ :=
  (BitVec.ofNat 32 Udriver.bufTxOffsetBytes + head * BitVec.ofNat 32 bufferElemMaxSize).toNat

/-- The bytes `memcpy` takes from the buffer. -/
def SkBuff.copied (skb : SkBuff) (udpPacket : RawPacket ℕ) : List (BitVec 8) :=
  (List.range udpPacket.payloadSizeBytes.toNat).map fun i => skb.memory (udpPacket.payload + i)

/-- The part of `udp_core_ndo_start_xmit` that fills a slot and pushes it. -/
def fillAndPush (head : BitVec 32) (header payload : List (BitVec 8)) : UserCode Unit := do
  let offset := txSlotOffset head
  Udriver.xrtBOWrite offset header
  Udriver.xrtBOWrite (offset + Udriver.packetHdrSizeBytes) payload
  Udriver.writeReg RegAddr.buftxPushed 0
  Udriver.writeReg RegAddr.buftxPushed 1
  Udriver.writeReg RegAddr.buftxPushed 0

/-- `udp_core_ndo_start_xmit`. -/
def startXmit (skb : SkBuff) : NetCode ℕ :=
  match compose skb with
  | none => do
    Program.command NetCmd.txDropped
    Program.command NetCmd.kfreeSkb
    return netdevTxOk
  | some udpPacket => do
    let txSlotFull ← accesses (Udriver.readReg RegAddr.buftxFull)
    if txSlotFull ≠ 0 then return netdevTxOk
    let head ← accesses (Udriver.readReg RegAddr.buftxHead)
    accesses (fillAndPush head udpPacket.header (skb.copied udpPacket))
    Program.command (NetCmd.txPackets udpPacket.payloadSizeBytes.toNat)
    Program.command NetCmd.kfreeSkb
    return netdevTxOk

/-- The memory of the TX ring is as it was, but for the slot with the index. -/
def UnchangedBut (index : ℕ) (d d' : SharedRings) : Prop :=
  ∀ a, Udriver.bufTxOffsetBytes ≤ a →
    a < TxRing.slotOffset index ∨ TxRing.slotOffset index + bufferElemMaxSize ≤ a → d'.memory a = d.memory a

/-- One slot was filled with the packet of the buffer and pushed, and no other one. -/
def Pushed (skb : SkBuff) (d d' : SharedRings) : Prop :=
  ∃ udpPacket slot, compose skb = some udpPacket ∧ d'.tx.pushed = d.tx.pushed ++ [slot] ∧
    (∀ k b, (udpPacket.header ++ skb.copied udpPacket)[k]? = some b → slot k = b) ∧
    UnchangedBut (d.tx.pushed.length % bufferTxLength) d d'

/-- Buffer, statistics and ring are in step over a call that has returned `ret`. -/
structure Accounted (skb : SkBuff) (h h' : NetHost) (ret : ℕ) : Prop where
  freed : ret = netdevTxOk → h'.freed = h.freed + 1
  counted : ret = netdevTxOk →
    (h'.stats.txPackets = h.stats.txPackets + 1 ∧ h'.stats.txDropped = h.stats.txDropped) ∨
      (h'.stats.txPackets = h.stats.txPackets ∧ h'.stats.txDropped = h.stats.txDropped + 1)
  sent : ret = netdevTxOk →
    (h'.stats.txPackets = h.stats.txPackets + 1 ↔ Pushed skb h.device h'.device)
  busy : ret ≠ netdevTxOk → h'.freed = h.freed ∧ h'.stats = h.stats ∧ h'.device.tx.pushed = h.device.tx.pushed ∧
    ∀ a, Udriver.bufTxOffsetBytes ≤ a → h'.device.memory a = h.device.memory a

/-- The buffers that are handed to the driver one after the other. -/
def transmitter : Clocked.Machine NetHost SkBuff where
  step := fun h skb => (h.run (startXmit skb)).2
  legal := fun _ _ => True

/-- The call for the buffer leaves all in step. -/
def InStep (h : NetHost) (skb : SkBuff) : Prop :=
  Accounted skb h (h.run (startXmit skb)).2 (h.run (startXmit skb)).1

/-- A packet the device can carry finds room in the ring. -/
def Uncongested (h : NetHost) (skb : SkBuff) : Prop := compose skb ≠ none → h.settled.tx.ring.full = false

section Frame

variable {α : Type} {h : NetHost}

/-- Accesses to the device free and count nothing. -/
theorem run_accesses (p : UserCode α) :
    (h.run (accesses p)).2.stats = h.stats ∧ (h.run (accesses p)).2.freed = h.freed := by
  induction p generalizing h with
  | done a => exact ⟨rfl, rfl⟩
  | perform c next ih => exact ih (h.settled.execute c).1

/-- What holds of the device after some accesses, and that nothing was freed or counted. -/
theorem NetHost.Ends.frame {p : UserCode α} {post : α → SharedRings → Prop}
    (hp : h.Ends (accesses p) fun a h' => post a h'.device) :
    h.Ends (accesses p) fun a h' => post a h'.device ∧ h'.stats = h.stats ∧ h'.freed = h.freed :=
  ⟨hp, run_accesses p⟩

end Frame

section Packet

variable {skb : SkBuff} {udpPacket : RawPacket ℕ}

/-- The words of a header. -/
theorem length_header {Payload : Type} (p : RawPacket Payload) : p.header.length = Udriver.packetHdrSizeBytes := by
  simp [RawPacket.header, ByteOrder.length_leBytes]

/-- A composed packet fits into a slot. -/
theorem length_copied (hcompose : compose skb = some udpPacket) :
    Udriver.packetHdrSizeBytes + (skb.copied udpPacket).length ≤ bufferElemMaxSize := by
  obtain ⟨hsize, hbytes, -⟩ := of_compose hcompose
  have hle := (toNat_udpPayloadSize hsize).2
  rw [SkBuff.copied, List.length_map, List.length_range, hbytes]
  calc 40 + skb.udpPayloadSize.toNat ≤ 40 + maxPayloadSize := Nat.add_le_add_left hle 40
    _ ≤ bufferElemMaxSize := by decide

/-- The packet as it is sent. -/
def SkBuff.txPacket (skb : SkBuff) (_hcompose : compose skb = some udpPacket) : TxPacket where
  header := udpPacket.header
  payload := skb.copied udpPacket
  header_length := length_header udpPacket

/-- It fits a slot. -/
theorem SkBuff.txPacket_fits (hcompose : compose skb = some udpPacket) : (skb.txPacket hcompose).Fits :=
  length_copied hcompose

/-- The address of the slot at the head, which is below 32. -/
theorem txSlotOffset_eq {head : BitVec 32} (hhead : head.toNat < bufferTxLength) :
    txSlotOffset head = TxRing.slotOffset head.toNat := by
  have hlt : head.toNat < 32 := hhead
  rw [txSlotOffset, TxRing.slotOffset]
  simp only [BitVec.toNat_add, BitVec.toNat_mul, BitVec.toNat_ofNat]
  have hbase : Udriver.bufTxOffsetBytes = 67108864 := rfl
  rw [hbase, bufferElemMaxSize]
  omega

end Packet

section Slot

variable {h : NetHost} {d₀ d d' : SharedRings} {p : TxPacket} {k : ℕ}

/-- The address of the slot that is filled. -/
def slotBase (d₀ : SharedRings) : ℕ := TxRing.slotOffset (d₀.tx.pushed.length % bufferTxLength)

/-- The first `k` bytes of the packet are in the free slot at the head, and the others are as they were. -/
structure Staged (d₀ : SharedRings) (p : TxPacket) (k : ℕ) (d : SharedRings) : Prop where
  pushed : d.tx.pushed = d₀.tx.pushed
  filling : SharedRings.Filling p d₀.tx.pushed.length k d
  room : d₀.tx.pushed.length < d.tx.transmitted.length + bufferTxLength
  others : UnchangedBut (d₀.tx.pushed.length % bufferTxLength) d₀ d

/-- The packet was pushed. -/
structure Sent (d₀ : SharedRings) (p : TxPacket) (d : SharedRings) : Prop where
  kept : SharedRings.TxKept d
  pushed : ∃ slot, d.tx.pushed = d₀.tx.pushed ++ [slot] ∧ p.In slot
  others : UnchangedBut (d₀.tx.pushed.length % bufferTxLength) d₀ d

/-- The slot stays as it is while the PL goes on. -/
theorem Staged.quiet (hd : Staged d₀ p k d) (hquiet : SharedRings.TxQuiet d d') : Staged d₀ p k d' where
  pushed := hquiet.pushed.trans hd.pushed
  filling := hd.filling.quiet hquiet
  room := Nat.lt_of_lt_of_le hd.room (Nat.add_le_add_right hquiet.transmitted _)
  others := fun a ha hout => (hquiet.memory a ha).trans (hd.others a ha hout)

/-- What was pushed stays so. -/
theorem Sent.quiet (hd : Sent d₀ p d) (hquiet : SharedRings.TxQuiet d d') : Sent d₀ p d' where
  kept := hquiet.kept hd.kept
  pushed := by
    rw [hquiet.pushed]
    exact hd.pushed
  others := fun a ha hout => (hquiet.memory a ha).trans (hd.others a ha hout)

/-- The head of a ring with room. -/
theorem staged_start (hkept : SharedRings.TxKept d) (hquiet : SharedRings.TxQuiet d₀ d) (hfull : d.tx.ring.full = false) :
    Staged d₀ p 0 d where
  pushed := hquiet.pushed
  filling := ⟨hkept, congrArg List.length hquiet.pushed, fun hk => absurd hk (Nat.lt_irrefl 0),
    fun i hi => absurd hi (Nat.not_lt_zero i)⟩
  room := by
    have htracks := hkept.tracks
    rw [htracks.full, decide_eq_false_iff_not] at hfull
    rw [← hquiet.pushed]
    exact Nat.lt_of_le_of_ne htracks.fits hfull
  others := fun a ha _ => hquiet.memory a ha

/-- A ring with room is not full. -/
theorem Staged.not_full (hd : Staged d₀ p k d) : d.tx.ring.full = false := by
  have hroom := hd.room
  rw [hd.filling.kept.tracks.full, decide_eq_false_iff_not, hd.pushed]
  omega

/-- The next byte is written. -/
theorem Staged.store (hfits : p.Fits) (hd : Staged d₀ p k d) {b : BitVec 8} (hb : p.bytes[k]? = some b) :
    Staged d₀ p (k + 1) (d.store (slotBase d₀ + k) b) := by
  have hfilling := hd.filling.store hfits hd.not_full hb
  have hk : k < bufferElemMaxSize := Nat.lt_of_lt_of_le (List.getElem?_eq_some_iff.mp hb).1 hfits.length_bytes
  refine ⟨hd.pushed, hfilling, hd.room, fun a ha hout => ?_⟩
  rw [← hd.others a ha hout]
  refine if_neg ?_
  simp only [slotBase]
  omega

/-- A part of the packet is copied. -/
theorem ends_xrtBOWrite (hfits : p.Fits) (chunk : List (BitVec 8)) (hd : Staged d₀ p k h.device)
    (hchunk : ∀ i b, chunk[i]? = some b → p.bytes[k + i]? = some b) :
    h.Ends (accesses (Udriver.xrtBOWrite (slotBase d₀ + k) chunk)) fun _ h' =>
      Staged d₀ p (k + chunk.length) h'.device := by
  induction chunk generalizing h k with
  | nil => exact hd
  | cons b rest ih =>
    have hb : p.bytes[k]? = some b := hchunk 0 b rfl
    have hsettled := hd.quiet (SharedRings.txQuiet_settle _ (h.moves 0))
    refine NetHost.Ends.access ?_
    have hrest := ih (h := (h.execute (.access (.store (slotBase d₀ + k) b))).2) (hsettled.store hfits hb) fun i b' hb' => by
      rw [Nat.add_assoc, Nat.add_comm 1]
      exact hchunk (i + 1) b' hb'
    rw [List.length_cons, Nat.add_comm rest.length, ← Nat.add_assoc]
    exact hrest

/-- The pushed bit goes low. -/
theorem quiet_clear (d : SharedRings) : SharedRings.TxQuiet d (d.writeReg RegAddr.buftxPushed 0) :=
  .writeReg fun _ => rfl

/-- The pulse of the pushed bit sends the packet. -/
theorem ends_pulse (hd : Staged d₀ p p.bytes.length h.device) :
    h.Ends (accesses do
      Udriver.writeReg RegAddr.buftxPushed 0
      Udriver.writeReg RegAddr.buftxPushed 1
      Udriver.writeReg RegAddr.buftxPushed 0) fun _ h' => Sent d₀ p h'.device := by
  let h₁ := (h.execute (.access (.writeReg RegAddr.buftxPushed 0))).2
  have hlow : Staged d₀ p p.bytes.length h₁.device ∧ h₁.device.regs.buftxPushed = false :=
    ⟨(hd.quiet (SharedRings.txQuiet_settle _ (h.moves 0))).quiet (quiet_clear _), rfl⟩
  have hquiet := SharedRings.txQuiet_settle h₁.device (h₁.moves 0)
  have hready := hlow.1.quiet hquiet
  obtain ⟨hkept, slot, hin, hpush⟩ := hready.filling.push (hquiet.low hlow.2)
  let h₂ := (h₁.execute (.access (.writeReg RegAddr.buftxPushed 1))).2
  have hsent : Sent d₀ p h₂.device := by
    refine ⟨hkept, ⟨slot, ?_, hin⟩, hready.others⟩
    rw [← hready.pushed]
    exact hpush
  exact (hsent.quiet (SharedRings.txQuiet_settle _ (h₂.moves 0))).quiet (quiet_clear _)

/-- The slot at the head is filled and pushed. -/
theorem ends_fillAndPush (hfits : p.Fits) (hd : Staged d₀ p 0 h.device) :
    h.Ends (accesses (Udriver.readReg RegAddr.buftxHead >>= fun head => fillAndPush head p.header p.payload)) fun _ h' =>
      Sent d₀ p h'.device := by
  have hsettled := hd.quiet (SharedRings.txQuiet_settle _ (h.moves 0))
  have hhead : (h.settled.regs.read h.settled.status RegAddr.buftxHead).toNat = d₀.tx.pushed.length % bufferTxLength := by
    rw [← hsettled.pushed]
    exact hsettled.filling.kept.toNat_read_head
  have hbase : txSlotOffset (h.settled.regs.read h.settled.status RegAddr.buftxHead) = slotBase d₀ := by
    rw [txSlotOffset_eq (by rw [hhead]; exact Nat.mod_lt _ (by decide)), hhead, slotBase]
  refine NetHost.Ends.readReg ?_
  let h₁ := (h.execute (.access (.readReg RegAddr.buftxHead))).2
  change h₁.Ends (accesses (Udriver.xrtBOWrite (txSlotOffset (h.settled.regs.read h.settled.status RegAddr.buftxHead))
    p.header >>= fun _ => _)) _
  rw [hbase]
  have hheader := ends_xrtBOWrite (h := h₁) hfits p.header hsettled fun i b hb => by
    rw [Nat.zero_add, TxPacket.bytes, List.getElem?_append_left (List.getElem?_eq_some_iff.mp hb).1, hb]
  rw [Nat.add_zero, Nat.zero_add, p.header_length] at hheader
  refine NetHost.Ends.accesses_bind (hheader.mono fun _ h₂ hd => NetHost.Ends.accesses_bind ?_)
  have hpayload := ends_xrtBOWrite hfits p.payload hd fun i b hb => by
    rw [TxPacket.bytes, ← p.header_length, List.getElem?_append_right (Nat.le_add_right _ _),
      Nat.add_sub_cancel_left, hb]
  have hall : Udriver.packetHdrSizeBytes + p.payload.length = p.bytes.length := by
    rw [TxPacket.bytes, List.length_append, p.header_length]
  rw [hall] at hpayload
  exact hpayload.mono fun _ h₃ hd => ends_pulse hd

end Slot

section Call

variable {h : NetHost} {skb : SkBuff} {udpPacket : RawPacket ℕ}

/-- A buffer the device cannot carry is dropped. -/
theorem run_startXmit_dropped (hcompose : compose skb = none) :
    h.run (startXmit skb) =
      (netdevTxOk, { h with stats := { h.stats with txDropped := h.stats.txDropped + 1 }, freed := h.freed + 1 }) := by
  rw [startXmit, hcompose]
  rfl

/-- The full flag as it is read. -/
theorem read_buftxFull (d : SharedRings) :
    d.regs.read d.status RegAddr.buftxFull = (BitVec.ofBool d.tx.ring.full).setWidth 32 := rfl

/-- With a full ring the call only reads the flag. -/
theorem run_startXmit_full (hcompose : compose skb = some udpPacket) (hfull : h.settled.tx.ring.full = true) :
    (h.run (startXmit skb)).1 = netdevTxOk ∧ (h.run (startXmit skb)).2.device = h.settled ∧
      (h.run (startXmit skb)).2.stats = h.stats ∧ (h.run (startXmit skb)).2.freed = h.freed := by
  have hread : (h.execute (.access (.readReg RegAddr.buftxFull))).1 = 1 := by
    change h.settled.regs.read h.settled.status RegAddr.buftxFull = 1
    rw [read_buftxFull, hfull]
    rfl
  have hrun : h.run (startXmit skb) = (netdevTxOk, (h.execute (.access (.readReg RegAddr.buftxFull))).2) := by
    rw [startXmit, hcompose, NetHost.run, Program.eval_bind]
    change Program.eval NetHost.execute (if (h.execute (.access (.readReg RegAddr.buftxFull))).1 ≠ 0 then _ else _) _ = _
    rw [hread]
    rfl
  rw [hrun]
  exact ⟨rfl, rfl, rfl, rfl⟩

/-- What a call leaves that has sent the packet. -/
structure Transmitted (skb : SkBuff) (hcompose : compose skb = some udpPacket) (h h' : NetHost) : Prop where
  sent : Sent h.device (skb.txPacket hcompose) h'.device
  stats : h'.stats = { h.stats with
    txPackets := h.stats.txPackets + 1
    txBytes := h.stats.txBytes + udpPacket.payloadSizeBytes.toNat }
  freed : h'.freed = h.freed + 1

/-- With room in the ring the packet is sent. -/
theorem ends_startXmit_room (hkept : SharedRings.TxKept h.device) (hcompose : compose skb = some udpPacket)
    (hfull : h.settled.tx.ring.full = false) :
    h.Ends (startXmit skb) fun ret h' => ret = netdevTxOk ∧ Transmitted skb hcompose h h' := by
  have hquiet := SharedRings.txQuiet_settle h.device (h.moves 0)
  have hstart : Staged h.device (skb.txPacket hcompose) 0 h.settled := staged_start (hquiet.kept hkept) hquiet hfull
  have hread : (h.settled.execute (.readReg RegAddr.buftxFull)).1 = 0 := by
    change h.settled.regs.read h.settled.status RegAddr.buftxFull = 0
    rw [read_buftxFull, hfull]
    rfl
  let h₁ := (h.execute (.access (.readReg RegAddr.buftxFull))).2
  have hfill := (ends_fillAndPush (h := h₁) (SkBuff.txPacket_fits hcompose) hstart).frame
  have hsend : h₁.Ends (accesses (Udriver.readReg RegAddr.buftxHead >>= fun head =>
        fillAndPush head udpPacket.header (skb.copied udpPacket)) >>= fun _ => do
      Program.command (NetCmd.txPackets udpPacket.payloadSizeBytes.toNat)
      Program.command NetCmd.kfreeSkb
      return netdevTxOk) fun ret h' => ret = netdevTxOk ∧ Transmitted skb hcompose h h' := by
    refine NetHost.Ends.bind (hfill.mono ?_)
    rintro - h' ⟨hsent, hstats, hfreed⟩
    refine ⟨rfl, hsent, ?_, congrArg (· + 1) hfreed⟩
    change { h'.stats with
      txPackets := h'.stats.txPackets + 1
      txBytes := h'.stats.txBytes + udpPacket.payloadSizeBytes.toNat } = _
    rw [hstats]
    rfl
  rw [startXmit, hcompose]
  refine NetHost.Ends.bind (NetHost.Ends.access (NetHost.Ends.pure (h := h₁) ?_))
  rw [if_neg fun hne => hne hread]
  exact hsend

/-- A buffer that is dropped is freed and counted. -/
theorem inStep_dropped (hcompose : compose skb = none) : InStep h skb := by
  rw [InStep, run_startXmit_dropped hcompose]
  refine ⟨fun _ => rfl, fun _ => Or.inr ⟨rfl, rfl⟩, fun _ => ?_, fun hbusy => absurd rfl hbusy⟩
  refine iff_of_false (fun hcount => absurd hcount (Nat.ne_of_lt (Nat.lt_succ_self _))) ?_
  rintro ⟨udpPacket, slot, hsome, -⟩
  rw [hcompose] at hsome
  exact Option.noConfusion rfl (heq_of_eq hsome)

/-- So is one that is sent. -/
theorem Transmitted.accounted {h' : NetHost} {hcompose : compose skb = some udpPacket}
    (hsent : Transmitted skb hcompose h h') : Accounted skb h h' netdevTxOk := by
  have hcount : h'.stats.txPackets = h.stats.txPackets + 1 ∧ h'.stats.txDropped = h.stats.txDropped := by
    rw [hsent.stats]
    exact ⟨rfl, rfl⟩
  obtain ⟨slot, hpushed, hin⟩ := hsent.sent.pushed
  exact ⟨fun _ => hsent.freed, fun _ => Or.inl hcount,
    fun _ => iff_of_true hcount.1 ⟨udpPacket, slot, hcompose, hpushed, hin, hsent.sent.others⟩, fun hbusy => absurd rfl hbusy⟩

/-- A call that finds room, or a buffer to drop. -/
theorem inStep_of_uncongested (hkept : SharedRings.TxKept h.device) (huncongested : Uncongested h skb) :
    SharedRings.TxKept (h.run (startXmit skb)).2.device ∧ InStep h skb := by
  cases hcompose : compose skb with
  | none =>
    refine ⟨?_, inStep_dropped hcompose⟩
    rw [run_startXmit_dropped hcompose]
    exact hkept
  | some udpPacket =>
    have hfull := huncongested (by simp [hcompose])
    obtain ⟨hret, hsent⟩ := ends_startXmit_room hkept hcompose hfull
    refine ⟨hsent.sent.kept, ?_⟩
    rw [InStep, hret]
    exact hsent.accounted

/-- A call that finds a full ring frees nothing, although it takes the buffer. -/
theorem not_inStep_of_congested (hcongested : ¬ Uncongested h skb) : ¬ InStep h skb := by
  intro hstep
  unfold Uncongested at hcongested
  push Not at hcongested
  obtain ⟨hcompose, hfull⟩ := hcongested
  obtain ⟨udpPacket, hsome⟩ := Option.ne_none_iff_exists'.mp hcompose
  obtain ⟨hret, -, -, hfreed⟩ := run_startXmit_full hsome (Bool.eq_true_of_not_eq_false hfull)
  have hstep := hstep.freed hret
  omega

end Call

section Bounds

variable {skb : SkBuff} {udpPacket : RawPacket ℕ}

/-- The bytes are data of the buffer. -/
def SkBuff.Holds (skb : SkBuff) (offset size : ℕ) : Prop :=
  ∀ a, offset ≤ a → a < offset + size → skb.data ≤ a ∧ a < skb.data + skb.len

/-- Some bytes are data of the buffer when they lie between its two ends. -/
theorem holds_iff {offset size : ℕ} : skb.Holds offset size ↔ size = 0 ∨ skb.Within offset size := by
  unfold SkBuff.Holds SkBuff.Within
  constructor
  · intro hall
    by_cases hsize : size = 0
    · exact Or.inl hsize
    · have hfirst := hall offset (Nat.le_refl _) (by omega)
      have hlast := hall (offset + size - 1) (by omega) (by omega)
      omega
  · intro hends a ha hlt
    omega

/-- What is stored lies in the slot. -/
def InSlot (head : BitVec 32) : Access → Prop
  | .store offset _ => txSlotOffset head ≤ offset ∧ offset < txSlotOffset head + bufferElemMaxSize
  | .readReg _ | .writeReg _ _ | .load _ => True

/-- The length does not wrap, what is copied is data of the buffer, and it is copied into the slot. -/
structure Inside (skb : SkBuff) (udpPacket : RawPacket ℕ) : Prop where
  nowrap : udpPacket.payloadSizeBytes.toNat + udpHlen = (ByteOrder.swap16 skb.udpLen).toNat
  size : udpPacket.payloadSizeBytes.toNat ≤ 1472
  source : skb.Holds udpPacket.payload udpPacket.payloadSizeBytes.toNat
  destination : ∀ head, (fillAndPush head udpPacket.header (skb.copied udpPacket)).Within (InSlot head)

/-- The datagram is empty, or the buffer has all of its payload. -/
def HasDatagram (skb : SkBuff) : Prop :=
  (ByteOrder.swap16 skb.udpLen).toNat = udpHlen ∨
    (skb.data ≤ skb.transportHeader + udpHlen ∧
      skb.transportHeader + (ByteOrder.swap16 skb.udpLen).toNat ≤ skb.data + skb.len)

/-- Bytes are stored one after the other. -/
theorem within_xrtBOWrite_of {first size : ℕ} {allowed : Access → Prop}
    (h : ∀ offset b, first ≤ offset → offset < first + size → allowed (.store offset b)) (bytes : List (BitVec 8))
    {offset : ℕ} (hfirst : first ≤ offset) (hlast : offset + bytes.length ≤ first + size) :
    (Udriver.xrtBOWrite offset bytes).Within allowed := by
  induction bytes generalizing offset with
  | nil => exact Program.Within.pure _
  | cons b rest ih =>
    rw [List.length_cons] at hlast
    refine Program.Within.bind (Program.Within.command (R := Access.Response) (h offset b hfirst (by omega))) fun _ => ?_
    exact ih (by omega) (by omega)

/-- A composed packet is copied into the slot. -/
theorem within_fillAndPush (hcompose : compose skb = some udpPacket) (head : BitVec 32) :
    (fillAndPush head udpPacket.header (skb.copied udpPacket)).Within (InSlot head) := by
  have hfits := length_copied hcompose
  have hheader := length_header udpPacket
  have hstore (offset : ℕ) (b : BitVec 8) (hfirst : txSlotOffset head ≤ offset)
      (hlast : offset < txSlotOffset head + bufferElemMaxSize) : InSlot head (.store offset b) := ⟨hfirst, hlast⟩
  have hpulse (value : BitVec 32) : (Udriver.writeReg RegAddr.buftxPushed value).Within (InSlot head) :=
    Program.Within.command (R := Access.Response) trivial
  refine Program.Within.bind (within_xrtBOWrite_of hstore _ (Nat.le_refl _) (by omega)) fun _ => ?_
  refine Program.Within.bind (within_xrtBOWrite_of hstore _ (Nat.le_add_right _ _) (by omega)) fun _ => ?_
  exact Program.Within.bind (hpulse 0) fun _ => Program.Within.bind (hpulse 1) fun _ => hpulse 0

/-- What is copied of an accepted buffer is its own data exactly when it has the datagram its UDP header announces. -/
theorem inside_iff (hcompose : compose skb = some udpPacket) : Inside skb udpPacket ↔ HasDatagram skb := by
  obtain ⟨hsize, hbytes, hpayload⟩ := of_compose hcompose
  obtain ⟨hnowrap, hle⟩ := toNat_udpPayloadSize hsize
  rw [← hbytes] at hnowrap hle
  have hsource : skb.Holds udpPacket.payload udpPacket.payloadSizeBytes.toNat ↔ HasDatagram skb := by
    rw [holds_iff, HasDatagram, SkBuff.Within, hpayload, ← hnowrap]
    simp only [udpHlen]
    omega
  exact ⟨fun hinside => hsource.mp hinside.source,
    fun hhas => ⟨hnowrap, hle, hsource.mpr hhas, within_fillAndPush hcompose⟩⟩

end Bounds

section Runs

/-- Buffers, statistics and ring stay in step over a run exactly when each packet that the device can carry
finds room in the ring. -/
theorem accounted_iff (h : NetHost) (hkept : SharedRings.TxKept h.device) (skbs : List SkBuff) :
    transmitter.Throughout InStep h skbs ↔ (transmitter.restrict Uncongested).Legal h skbs :=
  Clocked.Machine.throughout_iff (fun h => SharedRings.TxKept h.device) (fun _ _ hkept _ => inStep_of_uncongested hkept)
    (fun _ _ _ _ => not_inStep_of_congested) hkept (transmitter.legal_of_forall (fun _ _ => trivial) h skbs)

/-- A packet from a `PF_PACKET` socket: headers of Ethernet, IP and UDP that are zero but for what is checked. -/
def bareSkb (udpLen : BitVec 16) (len : ℕ) : SkBuff where
  memory := fun a =>
    if a = 12 then 0x08
    else if a = 14 then 0x45
    else if a = 23 then ipprotoUdp
    else if a = 38 then udpLen.extractLsb' 8 8
    else if a = 39 then udpLen.extractLsb' 0 8
    else 0
  data := 0
  len := len
  macHeader := 0
  networkHeader := 14
  transportHeader := 34
  protocol := ByteOrder.swap16 ethPIp
  skFamily := some pfPacket
  checksumUnnecessary := false

/-- Two packets, the second of which the device cannot carry. -/
theorem accounted_two : transmitter.Throughout InStep (.boot (fun _ => []) fun _ => true) [bareSkb 8 42, bareSkb 7 42] :=
  (accounted_iff (.boot (fun _ => []) fun _ => true) (NetHost.txKept_boot _ _) _).mpr
    ⟨⟨trivial, fun _ => rfl⟩, ⟨trivial, fun hcompose => absurd (by decide +kernel) hcompose⟩, trivial⟩

/-- The packet after the 32 that fill the ring is neither freed nor counted. -/
theorem not_accounted : ¬ ∀ (h : NetHost), SharedRings.TxKept h.device → ∀ skbs, transmitter.Throughout InStep h skbs := by
  intro hall
  have hrun := hall (.boot (fun _ => []) fun _ => true) (NetHost.txKept_boot _ _)
    (List.replicate 32 (bareSkb 8 42) ++ [bareSkb 8 42])
  have hlast := ((transmitter.throughout_append InStep _ _ _).mp hrun).2.1
  have hfull : (transmitter.run (.boot (fun _ => []) fun _ => true)
      (List.replicate 32 (bareSkb 8 42))).settled.tx.ring.full = true := by decide +kernel
  have hcompose : compose (bareSkb 8 42) ≠ none := by decide +kernel
  refine not_inStep_of_congested (fun huncongested => ?_) hlast
  rw [huncongested hcompose] at hfull
  exact Bool.noConfusion hfull

/-- A datagram of 1480 bytes in a buffer of 1514. -/
theorem inside_full : ∃ udpPacket, Inside (bareSkb 1480 1514) udpPacket := by
  obtain ⟨udpPacket, hcompose⟩ := Option.ne_none_iff_exists'.mp (show compose (bareSkb 1480 1514) ≠ none by decide +kernel)
  exact ⟨udpPacket, (inside_iff hcompose).mpr (Or.inr (by decide +kernel))⟩

/-- A buffer of 42 bytes whose UDP header announces 1480: what lies behind the buffer is sent. -/
theorem not_inside : ¬ ∀ skb udpPacket, compose skb = some udpPacket → Inside skb udpPacket := by
  intro hall
  obtain ⟨udpPacket, hcompose⟩ := Option.ne_none_iff_exists'.mp (show compose (bareSkb 1480 42) ≠ none by decide +kernel)
  have hinside := hall _ _ hcompose
  obtain ⟨hsize, hbytes, hpayload⟩ := of_compose hcompose
  have hlast := hinside.source 42
  rw [hpayload, hbytes] at hlast
  exact absurd (hlast (by decide +kernel) (by decide +kernel)).2 (by decide +kernel)

end Runs

end Kernel

end UdpIpCore
