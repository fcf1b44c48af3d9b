import Mathlib.Algebra.Group.Nat.Defs
import UdpIpCore.Kernel.RxPoll
import UdpIpCore.Rtl.DmaReadControl
import UdpIpCore.Userspace.Sockets
import UdpIpCore.Userspace.TxRing

/-!
# The layout of the shared memory

The controller, the userspace driver and the kernel driver each compute where a slot of a
ring lies. The controller does so in 32 bits, from the address that was written to `SHMEM`.
The three agree on every slot exactly when the whole area lies below 2^32; the userspace
driver only tests the address of its first byte.
-/

namespace UdpIpCore

/-- `BUF_TOTAL_SIZE`, the memory of all rings. -/
def Udriver.bufTotalSize : ℕ := bufSizeBytes * (maxUdpPorts + 1)

/-- `BUFFER_TX_OFFSET_BYTES` with the slot `udp_core_ndo_start_xmit` writes. -/
def Kernel.bufferTxSlotOffset (slot : ℕ) : ℕ :=
  maxUdpPorts * (bufferTxLength * bufferElemMaxSize) + slot * bufferElemMaxSize

/-- The slots of all rings. -/
inductive SlotId
  | rx (idx : BufferIdx) (slot : Fin bufferRxLength)
  | tx (slot : Fin bufferTxLength)
deriving DecidableEq

namespace SlotId

/-- The address the controller asks the DMA for. -/
def controllerAddr (base : BitVec 32) : SlotId → BitVec 32
  | rx idx slot => DmaWriteControl.slotAddr base idx slot
  | tx slot => DmaReadControl.slotAddr base slot

/-- The offset at which `udriver_recv` and `udriver_send` access the slot. -/
def udriverOffset : SlotId → ℕ
  | rx idx slot => RxRing.slotOffset idx slot
  | tx slot => TxRing.slotOffset slot

/-- The offset at which `udp_core_rx_poll` and `udp_core_ndo_start_xmit` access the slot. -/
def kernelOffset : SlotId → ℕ
  | rx idx slot => Kernel.bufferRxSlotHdrData idx.toNat slot
  | tx slot => Kernel.bufferTxSlotOffset slot

/-- The number of the slot in the area. -/
def number : SlotId → ℕ
  | rx idx slot => idx.toNat * bufferRxLength + slot
  | tx slot => maxUdpPorts * bufferRxLength + slot

variable {s t : SlotId}

/-- Slots are numbered one after the other. -/
theorem number_lt (s : SlotId) : s.number < (maxUdpPorts + 1) * bufferRxLength := by
  cases s with
  | rx idx slot =>
    have hidx := idx.isLt
    have hslot := slot.isLt
    simp only [number, bufferRxLength, maxUdpPorts] at hslot ⊢
    omega
  | tx slot =>
    have hslot := slot.isLt
    simp only [number, bufferRxLength, bufferTxLength, maxUdpPorts] at hslot ⊢
    omega

/-- Different slots have different numbers. -/
theorem number_injective : Function.Injective number := by
  intro s t heq
  cases s with
  | rx idx slot =>
    have hidx := idx.isLt
    have hslot := slot.isLt
    cases t with
    | rx idx' slot' =>
      have hslot' := slot'.isLt
      simp only [number, bufferRxLength] at heq hslot hslot'
      have hring : idx.toNat = idx'.toNat := by omega
      have hindex : slot.val = slot'.val := by omega
      rw [BitVec.eq_of_toNat_eq hring, Fin.ext hindex]
    | tx slot' =>
      simp only [number, bufferRxLength, maxUdpPorts] at heq hslot
      omega
  | tx slot =>
    cases t with
    | rx idx' slot' =>
      have hidx' := idx'.isLt
      have hslot' := slot'.isLt
      simp only [number, bufferRxLength, maxUdpPorts] at heq hslot'
      omega
    | tx slot' =>
      simp only [number, bufferRxLength, maxUdpPorts] at heq
      exact congrArg tx (Fin.ext (by omega))

/-- The userspace driver lays the slots out by number. -/
theorem udriverOffset_eq (s : SlotId) : s.udriverOffset = s.number * bufferElemMaxSize := by
  cases s with
  | rx idx slot =>
    simp only [udriverOffset, RxRing.slotOffset, Udriver.bufRxIdxOffsetBytes, Udriver.bufSizeBytes, number,
      bufferRxLength, bufferElemMaxSize]
    omega
  | tx slot =>
    simp only [udriverOffset, TxRing.slotOffset, Udriver.bufTxOffsetBytes, Udriver.bufSizeBytes, number,
      bufferRxLength, bufferElemMaxSize, maxUdpPorts]
    omega

/-- The kernel driver uses the same offsets. -/
theorem kernelOffset_eq (s : SlotId) : s.kernelOffset = s.udriverOffset := by
  cases s with
  | rx idx slot => rfl
  | tx slot => rfl

/-- The controller adds the same offset in 32 bits. -/
theorem controllerAddr_eq (base : BitVec 32) (s : SlotId) :
    s.controllerAddr base = base + BitVec.ofNat 32 s.udriverOffset := by
  cases s with
  | rx idx slot =>
    have hidx : idx.setWidth 32 = BitVec.ofNat 32 idx.toNat := by
      apply BitVec.eq_of_toNat_eq
      rw [BitVec.toNat_setWidth, BitVec.toNat_ofNat]
    rw [controllerAddr, DmaWriteControl.slotAddr, BitVec.add_assoc, hidx, ← BitVec.ofNat_mul, ← BitVec.ofNat_mul,
      ← BitVec.ofNat_add]
    rfl
  | tx slot =>
    rw [controllerAddr, DmaReadControl.slotAddr, BitVec.add_assoc, ← BitVec.ofNat_mul, ← BitVec.ofNat_add,
      Nat.mul_comm (bufferRxLength * bufferElemMaxSize)]
    rfl

/-- A slot ends within the area. -/
theorem udriverOffset_add_le (s : SlotId) : s.udriverOffset + bufferElemMaxSize ≤ Udriver.bufTotalSize := by
  have hlt := s.number_lt
  rw [udriverOffset_eq]
  simp only [Udriver.bufTotalSize, Udriver.bufSizeBytes, bufferRxLength, bufferElemMaxSize, maxUdpPorts] at hlt ⊢
  omega

/-- The slot at the end of the area. -/
def last : SlotId := tx (Fin.last 31)

/-- It ends with the area. -/
theorem udriverOffset_last : last.udriverOffset + bufferElemMaxSize = Udriver.bufTotalSize := by
  rw [udriverOffset_eq]
  rfl

/-- Different slots are a slot apart. -/
theorem apart (h : s ≠ t) : s.udriverOffset + bufferElemMaxSize ≤ t.udriverOffset ∨
    t.udriverOffset + bufferElemMaxSize ≤ s.udriverOffset := by
  have hne : s.number ≠ t.number := fun heq => h (number_injective heq)
  rw [udriverOffset_eq, udriverOffset_eq]
  simp only [bufferElemMaxSize]
  omega

end SlotId

/-- All parties access the same bytes: for each slot the controller asks for the address at which the drivers find
it in an area that starts at `phys`, the slots lie in the area and below 2^32, and no two of them overlap. -/
structure AddressesAgree (phys : ℕ) (shmem : BitVec 32) : Prop where
  udriver : ∀ s : SlotId, (s.controllerAddr shmem).toNat = phys + s.udriverOffset
  kernel : ∀ s : SlotId, (s.controllerAddr shmem).toNat = phys + s.kernelOffset
  inside : ∀ s : SlotId, phys ≤ (s.controllerAddr shmem).toNat ∧
    (s.controllerAddr shmem).toNat + bufferElemMaxSize ≤ phys + Udriver.bufTotalSize
  unwrapped : ∀ s : SlotId, (s.controllerAddr shmem).toNat + bufferElemMaxSize ≤ 2 ^ 32
  disjoint : ∀ s t : SlotId, s ≠ t →
    (s.controllerAddr shmem).toNat + bufferElemMaxSize ≤ (t.controllerAddr shmem).toNat ∨
      (t.controllerAddr shmem).toNat + bufferElemMaxSize ≤ (s.controllerAddr shmem).toNat

/-- `udriver_initialize` goes on with the address of the area. -/
def Udriver.Mapping.Accepted (os : Udriver.Mapping) : Prop := ¬ 0xFFFFFFFF < os.shmemPhysAddr

/-- What `udriver_initialize` writes to `SHMEM`. -/
def Udriver.Mapping.shmem (os : Udriver.Mapping) : BitVec 32 := os.shmemPhysAddr.setWidth 32

/-- The addresses agree exactly if the whole area lies below 2^32. -/
theorem addressesAgree_iff (os : Udriver.Mapping) (haccepted : os.Accepted) :
    AddressesAgree os.shmemPhysAddr.toNat os.shmem ↔ os.shmemPhysAddr.toNat + Udriver.bufTotalSize ≤ 2 ^ 32 := by
  have hphys : os.shmemPhysAddr.toNat < 2 ^ 32 := by
    rw [Udriver.Mapping.Accepted, BitVec.lt_def] at haccepted
    have hbound : (0xFFFFFFFF : BitVec 64).toNat = 2 ^ 32 - 1 := rfl
    omega
  have hshmem : os.shmem.toNat = os.shmemPhysAddr.toNat := by
    rw [Udriver.Mapping.shmem, BitVec.toNat_setWidth]
    exact Nat.mod_eq_of_lt hphys
  constructor
  · intro h
    have hlast := h.unwrapped SlotId.last
    rw [h.udriver, Nat.add_assoc, SlotId.udriverOffset_last] at hlast
    exact hlast
  · intro hbelow
    have haddr (s : SlotId) : (s.controllerAddr os.shmem).toNat = os.shmemPhysAddr.toNat + s.udriverOffset := by
      have hend := s.udriverOffset_add_le
      simp only [bufferElemMaxSize] at hend
      rw [SlotId.controllerAddr_eq, BitVec.toNat_add, BitVec.toNat_ofNat, hshmem]
      generalize Udriver.bufTotalSize = total at hbelow hend
      omega
    refine ⟨haddr, fun s => ?_, fun s => ?_, fun s => ?_, fun s t hne => ?_⟩
    · rw [SlotId.kernelOffset_eq]
      exact haddr s
    · have hend := s.udriverOffset_add_le
      rw [haddr]
      omega
    · have hend := s.udriverOffset_add_le
      rw [haddr]
      omega
    · have hapart := SlotId.apart hne
      rw [haddr, haddr]
      omega

/-- An area in the first megabytes. -/
theorem addressesAgree_low : AddressesAgree 0x10000000 0x10000000 :=
  (addressesAgree_iff ⟨0x10000000, true, true⟩ (show ¬ (0xFFFFFFFF : BitVec 64) < 0x10000000 by decide)).mpr
    (by decide)

/-- An accepted area whose end is above 2^32. -/
theorem not_addressesAgree : ¬ ∀ os : Udriver.Mapping, os.Accepted →
    AddressesAgree os.shmemPhysAddr.toNat os.shmem := by
  intro h
  have haccepted : (⟨0xFFFFF000, true, true⟩ : Udriver.Mapping).Accepted :=
    show ¬ (0xFFFFFFFF : BitVec 64) < 0xFFFFF000 by decide
  have hagree := h _ haccepted
  have haddr := hagree.udriver SlotId.last
  have hlt := (SlotId.last.controllerAddr (0xFFFFF000 : BitVec 32)).isLt
  have hoffset := SlotId.udriverOffset_last
  change (SlotId.last.controllerAddr (0xFFFFF000 : BitVec 32)).toNat = 0xFFFFF000 + _ at haddr
  have htotal : Udriver.bufTotalSize = 67174400 := rfl
  simp only [bufferElemMaxSize] at hoffset
  omega

end UdpIpCore
