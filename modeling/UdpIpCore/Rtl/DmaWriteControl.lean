import UdpIpCore.Rtl.AxisUdpPortFilter

/-!
# The write DMA control

The part of the controller that asks the write DMA for one descriptor per frame: a valid
flag raised while the frame waits, the address of the next slot of the selected ring, and
a length computed from the header that is presented.
-/

namespace UdpIpCore

/-- `BUFFER_RX_LENGTH`, the slots of one ring. -/
abbrev bufferRxLength : ℕ := 32

/-- `BUFFER_ELEM_MAX_SIZE`, the bytes of one slot. -/
abbrev bufferElemMaxSize : ℕ := 2048

/-- The registers of the write DMA control. -/
structure DmaWriteControl where
  /-- `dma_wr_ctrl_valid_o`. -/
  valid : Bool
  /-- `buffer_rx_selected_next_slot_addr`, which drives `dma_wr_ctrl_addr_o`. -/
  nextSlotAddr : BitVec 32
deriving DecidableEq

namespace DmaWriteControl

/-- The state after reset. -/
def reset : DmaWriteControl := ⟨false, 0⟩

/-- The address of a slot of an RX ring in the shared memory. -/
def slotAddr (sharedMemBase : BitVec 32) (bufferSelectIdx : BufferIdx) (headIndex : ℕ) : BitVec 32 :=
  sharedMemBase + bufferSelectIdx.setWidth 32 * BitVec.ofNat 32 (bufferRxLength * bufferElemMaxSize) +
    BitVec.ofNat 32 headIndex * BitVec.ofNat 32 bufferElemMaxSize

/-- `dma_wr_ctrl_len_bytes_o`: the header words and `udp_length`, at most a slot. -/
def lenBytes (udpLength : BitVec 16) : BitVec 20 :=
  let packetLengthBytes : BitVec 20 := udpLength.setWidth 20 + 40
  if packetLengthBytes ≤ 2048 then packetLengthBytes else 2048

/-- One clock edge: `ready` is that of the DMA, `axisTvalid` the frame waiting at its input. -/
def step (c : DmaWriteControl) (ready axisTvalid : Bool) (sharedMemBase : BitVec 32)
    (bufferSelectIdx : BufferIdx) (headIndex : ℕ) : DmaWriteControl where
  valid := if !ready then false else if axisTvalid then true else c.valid
  nextSlotAddr := slotAddr sharedMemBase bufferSelectIdx headIndex

/-- Every slot is at a multiple of its size. -/
theorem slotAddr_mod {base : BitVec 32} (hbase : base.toNat % bufferElemMaxSize = 0) (idx : BufferIdx)
    (headIndex : ℕ) : (slotAddr base idx headIndex).toNat % bufferElemMaxSize = 0 := by
  simp only [slotAddr, bufferRxLength, bufferElemMaxSize, BitVec.toNat_add, BitVec.toNat_mul,
    BitVec.toNat_setWidth, BitVec.toNat_ofNat] at hbase ⊢
  omega

/-- Two slots with one address are the same slot of the same ring. -/
theorem slotAddr_inj {base : BitVec 32} {idx idx' : BufferIdx} {headIndex headIndex' : ℕ}
    (hlt : headIndex < bufferRxLength) (hlt' : headIndex' < bufferRxLength)
    (haddr : slotAddr base idx headIndex = slotAddr base idx' headIndex') : idx = idx' ∧ headIndex = headIndex' := by
  rw [slotAddr, slotAddr, BitVec.add_assoc, BitVec.add_assoc, BitVec.add_right_inj] at haddr
  have hnat := congrArg BitVec.toNat haddr
  have hidx := idx.isLt
  have hidx' := idx'.isLt
  simp only [bufferRxLength, bufferElemMaxSize, BitVec.toNat_add, BitVec.toNat_mul, BitVec.toNat_setWidth,
    BitVec.toNat_ofNat] at hnat hlt hlt'
  have hsame : idx.toNat = idx'.toNat ∧ headIndex = headIndex' := by omega
  exact ⟨BitVec.eq_of_toNat_eq hsame.1, hsame.2⟩

/-- The bytes asked for, as a number. -/
theorem toNat_lenBytes (udpLength : BitVec 16) :
    (lenBytes udpLength).toNat = min (udpLength.toNat + 40) 2048 := by
  have hlt := udpLength.isLt
  have hsum : (udpLength.setWidth 20 + 40 : BitVec 20).toNat = udpLength.toNat + 40 := by
    have hforty : (40 : BitVec 20).toNat = 40 := rfl
    rw [BitVec.toNat_add, BitVec.toNat_setWidth, hforty]
    omega
  have hle : (udpLength.setWidth 20 + 40 : BitVec 20) ≤ 2048 ↔ udpLength.toNat + 40 ≤ 2048 := by
    rw [BitVec.le_def, hsum]
    rfl
  rw [lenBytes]
  by_cases hfits : udpLength.toNat + 40 ≤ 2048
  · rw [if_pos (hle.mpr hfits), hsum, Nat.min_eq_left hfits]
  · rw [if_neg (fun h => hfits (hle.mp h)), Nat.min_eq_right (Nat.le_of_not_le hfits)]
    rfl

end DmaWriteControl

end UdpIpCore
