import UdpIpCore.Rtl.DmaWriteControl

/-!
# The read DMA control

The part of the controller that asks the read DMA for the slot at the tail of the TX ring:
a valid flag, raised while the ring is not empty, and a lock from the acceptance of a
descriptor to the last beat of its stream.
-/

namespace UdpIpCore

/-- `BUFFER_TX_LENGTH`, the slots of the TX ring. -/
abbrev bufferTxLength : ℕ := 32

/-- The registers of the read DMA control. -/
structure DmaReadControl where
  /-- `dma_rd_locked`. -/
  locked : Bool
  /-- `dma_rd_ctrl_valid_o`. -/
  valid : Bool
  /-- `buffer_tx_next_slot_addr`, which drives `dma_rd_ctrl_addr_o`. -/
  nextSlotAddr : BitVec 32
deriving DecidableEq

namespace DmaReadControl

/-- The state after reset. -/
def reset : DmaReadControl := ⟨false, false, 0⟩

/-- The address of a slot of the TX ring in the shared memory. -/
def slotAddr (sharedMemBase : BitVec 32) (tailIndex : ℕ) : BitVec 32 :=
  sharedMemBase + BitVec.ofNat 32 (bufferRxLength * bufferElemMaxSize * maxUdpPorts) +
    BitVec.ofNat 32 tailIndex * BitVec.ofNat 32 bufferElemMaxSize

/-- One clock edge: `ready` is that of the DMA, `tlastHs` the last beat of a stream. The valid flag
falls a cycle after the lock. -/
def step (c : DmaReadControl) (ready tlastHs txEmpty : Bool) (sharedMemBase : BitVec 32)
    (tailIndex : ℕ) : DmaReadControl where
  locked := if tlastHs then false else if c.valid && ready then true else c.locked
  valid := if c.locked then false else if !txEmpty then true else c.valid
  nextSlotAddr := slotAddr sharedMemBase tailIndex

/-- Every slot is at a multiple of its size. -/
theorem slotAddr_mod {base : BitVec 32} (hbase : base.toNat % bufferElemMaxSize = 0) (tailIndex : ℕ) :
    (slotAddr base tailIndex).toNat % bufferElemMaxSize = 0 := by
  have hring : (BitVec.ofNat 32 (bufferRxLength * bufferElemMaxSize * maxUdpPorts)).toNat = 67108864 := by decide
  have hsize : (BitVec.ofNat 32 bufferElemMaxSize).toNat = 2048 := by decide
  rw [slotAddr, BitVec.toNat_add, BitVec.toNat_add, BitVec.toNat_mul, hring, hsize]
  generalize (BitVec.ofNat 32 tailIndex).toNat = n
  have helem : bufferElemMaxSize = 2048 := rfl
  rw [helem] at hbase ⊢
  omega

end DmaReadControl

end UdpIpCore
