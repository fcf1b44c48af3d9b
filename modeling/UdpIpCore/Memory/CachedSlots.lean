import Mathlib.Algebra.Group.Nat.Defs
import UdpIpCore.Caller
import UdpIpCore.Memory.WriteBack
import UdpIpCore.Kernel.RxPoll
import UdpIpCore.Userspace.SharedRings

/-!
# The slots behind a cache

The shared memory as the drivers see it when it is cached, `CACHEABLE_MEM` or
`dma_alloc_noncoherent`: loads and stores go to the lines of a write-back cache, and the
device sees the memory behind it. `udriver_send` and `udp_core_ndo_start_xmit` differ in the
direction of the sync before the push; neither receiver syncs.
-/

namespace UdpIpCore

open Interaction Clocked WriteBack

/-- The directions of a sync. -/
inductive SyncDirection
  | toDevice
  | fromDevice
deriving DecidableEq

/-- The accesses of a driver to cached buffers. -/
inductive CacheAccess
  | plain (c : Access)
  | sync (direction : SyncDirection) (offset size : ℕ)

abbrev CacheAccess.Response : CacheAccess → Type
  | plain c => c.Response
  | sync _ _ _ => Unit

/-- A driver of cached buffers. -/
abbrev CachedCode := Program CacheAccess CacheAccess.Response

/-- A packet in the layout of `struct udp_packet`, of any size. -/
structure HeaderedPacket extends UdpPacket where
  header_length : header.length = Udriver.packetHdrSizeBytes

namespace HeaderedPacket

/-- The bytes that are copied. -/
def bytes (p : HeaderedPacket) : List (BitVec 8) := p.header ++ p.payload

/-- It has room in a slot. -/
def Fits (p : HeaderedPacket) : Prop := Udriver.packetHdrSizeBytes + p.payload.length ≤ bufferElemMaxSize

instance (p : HeaderedPacket) : Decidable p.Fits := inferInstanceAs (Decidable (_ ≤ _))

/-- The slot holds the packet. -/
def In (p : HeaderedPacket) (slot : Slot) : Prop := p.Fits ∧ ∀ k b, p.bytes[k]? = some b → slot k = b

end HeaderedPacket

namespace CachedDriver

open Udriver

variable {α : Type}

/-- A program without syncs. -/
def uncached (p : UserCode α) : CachedCode α := p.embed CacheAccess.plain fun _ r => r

/-- `xrtBOSync` and `dma_sync_single_for_device`. -/
def sync (direction : SyncDirection) (offset size : ℕ) : CachedCode Unit :=
  Program.command (CacheAccess.sync direction offset size)

/-- A packet is copied into the slot at the head, synced and pushed; it fails when the ring is full. -/
def sendSynced (direction : SyncDirection) (totalSize : ℕ) (p : HeaderedPacket) : CachedCode Bool := do
  let txSlotFull ← uncached (readReg RegAddr.buftxFull)
  if txSlotFull ≠ 0 then return false
  else do
    let head ← uncached (readReg RegAddr.buftxHead)
    let offset := bufTxOffsetBytes + head.toNat * bufferElemMaxSize
    uncached (xrtBOWrite offset p.header)
    uncached (xrtBOWrite (offset + packetHdrSizeBytes) p.payload)
    sync direction offset totalSize
    uncached (writeReg RegAddr.buftxPushed 0)
    uncached (writeReg RegAddr.buftxPushed 1)
    uncached (writeReg RegAddr.buftxPushed 0)
    return true

/-- `udriver_send`; `total_size` is a `uint32_t`. -/
def udriverSend (p : HeaderedPacket) : CachedCode Bool :=
  sendSynced .fromDevice ((packetHdrSizeBytes + p.payload.length) % 2 ^ 32) p

/-- `udp_core_ndo_start_xmit`, with the packet that was composed. -/
def ndoStartXmit (p : HeaderedPacket) : CachedCode Bool :=
  sendSynced .toDevice (p.payload.length + Kernel.packetHeaderSizeBytes) p

end CachedDriver

/-- The calls of both drivers. -/
inductive CacheCall
  | udriverSend (p : HeaderedPacket)
  | udriverRecv (idx : BufferIdx)
  | ndoStartXmit (p : HeaderedPacket)
  | rxPoll (budget : ℕ) (alloc : ℕ → Bool) (ports : List BufferIdx) (passes : ℕ)

namespace CacheCall

open CachedDriver

/-- The packet that is to be sent. -/
def packet : CacheCall → Option HeaderedPacket
  | udriverSend p => some p
  | ndoStartXmit p => some p
  | udriverRecv _ => none
  | rxPoll _ _ _ _ => none

/-- The program of a call, with whether it has pushed a packet. -/
def code : CacheCall → CachedCode Bool
  | udriverSend p => CachedDriver.udriverSend p
  | ndoStartXmit p => CachedDriver.ndoStartXmit p
  | udriverRecv idx => do
    let _ ← uncached (Udriver.udriverRecv idx.toNat)
    return false
  | rxPoll budget alloc ports passes => do
    let _ ← uncached (Kernel.rxPoll budget alloc ports passes)
    return false

/-- The packets that calls have sent. -/
def sent (results : List (CacheCall × Bool)) : List HeaderedPacket :=
  results.filterMap fun r => if r.2 then r.1.packet else none

end CacheCall

/-- The size of a cache line; a slot consists of whole lines. -/
structure LineSize where
  bytes : ℕ
  pos : 0 < bytes
  dvd : bytes ∣ bufferElemMaxSize

/-- The rings, with the lines of the shared memory that are in the cache. -/
structure CachedRings where
  rings : SharedRings
  lines : ℕ → Option (Line (BitVec 8))

/-- What happens between two accesses. -/
inductive CacheMove
  | pl (step : PlStep)
  | fill (n : ℕ)
  | evict (n : ℕ)

namespace CachedRings

/-- The memory and its cache. -/
def cached (d : CachedRings) : Cached (BitVec 8) := ⟨d.rings.memory, d.lines⟩

/-- The memory and its cache replaced. -/
def withCached (d : CachedRings) (c : Cached (BitVec 8)) : CachedRings := ⟨{ d.rings with memory := c.memory }, c.lines⟩

/-- One access. -/
def execute (size : LineSize) (d : CachedRings) : (c : CacheAccess) → c.Response × CachedRings
  | .plain (.readReg reg) => (d.rings.regs.read d.rings.status reg, d)
  | .plain (.writeReg reg value) => ((), { d with rings := d.rings.writeReg reg value })
  | .plain (.load offset) => (d.cached.read size.bytes offset, d)
  | .plain (.store offset value) => ((), d.withCached (d.cached.store size.bytes offset value))
  | .sync .toDevice offset length => ((), d.withCached (d.cached.clean size.bytes offset length))
  | .sync .fromDevice offset length => ((), d.withCached (d.cached.invalidate size.bytes offset length))

/-- The bytes that the PL writes in a step. -/
def written (d : CachedRings) : PlStep → ℕ → Option (BitVec 8)
  | .receive idx slot, a =>
    let base := RxRing.slotOffset idx (d.rings.rx idx).ring.headIndex
    if base ≤ a ∧ a < base + bufferElemMaxSize then some (slot (a - base)) else none
  | .transmit, _ => none

/-- One step of the PL or of the cache. -/
def move (size : LineSize) (d : CachedRings) : CacheMove → CachedRings
  | .pl step => ⟨d.rings.move step, (d.cached.deviceWrite (d.written step)).lines⟩
  | .fill n => d.withCached (d.cached.fill n)
  | .evict n => d.withCached (d.cached.evict size.bytes n)

/-- The PL fetches no slot from an empty TX ring; the cache may do anything. -/
def legal (d : CachedRings) : CacheMove → Prop
  | .pl step => d.rings.legal step
  | .fill _ | .evict _ => True

/-- The cached rings as a device of atomic transactions. -/
def device (size : LineSize) : AtomicDevice CacheAccess CacheAccess.Response CachedRings CacheMove :=
  ⟨execute size, move size, legal⟩

/-- After reset, with any memory and an empty cache. -/
def start (opened : BufferIdx → Bool) (control : RegAddr → BitVec 32) (memory : ℕ → BitVec 8) : CachedRings :=
  ⟨{ SharedRings.start opened control with memory := memory }, fun _ => none⟩

/-- A packet that is to be sent fits a slot. -/
def Sendable (call : CacheCall) : Prop := ∀ p, call.packet = some p → p.Fits

/-- A byte is loaded from the memory, or from a line that was filled since the device has written it, and a sync from the
device finds no line in its range that was written and has not left the cache. -/
def Owned (size : LineSize) (d : CachedRings) : CacheAccess → Prop
  | .plain (.load offset) => ¬ d.cached.Outdated size.bytes offset
  | .sync .fromDevice offset length => ∀ n, InRange size.bytes offset length n → ¬ d.cached.Dirty n
  | _ => True

/-- The bytes of the TX ring, which only the processor writes. -/
def TxArea (a : ℕ) : Prop := Udriver.bufTxOffsetBytes ≤ a

/-- The slots that were pushed hold, in the memory at their push, the packets that were sent. -/
def PushedExactly (sent : List HeaderedPacket) (d : CachedRings) : Prop := List.Forall₂ HeaderedPacket.In sent d.rings.tx.pushed

variable {size : LineSize} {d d' : CachedRings} {sent : List HeaderedPacket} {m : ℕ} {bytes : List (BitVec 8)}

section Steps

/-- The cache is coherent, and the heads are slots of their rings. -/
structure Good (size : LineSize) (d : CachedRings) : Prop where
  coherent : d.cached.Coherent size.bytes TxArea
  rxHead : ∀ idx, (d.rings.rx idx).ring.headIndex < bufferRxLength
  txHead : d.rings.tx.ring.headIndex < bufferTxLength

/-- A step that a sender does not notice. -/
structure Unnoticed (size : LineSize) (d d' : CachedRings) : Prop where
  good : Good size d'
  buftxPushed : d'.rings.regs.buftxPushed = d.rings.regs.buftxPushed
  head : d'.rings.tx.ring.headIndex = d.rings.tx.ring.headIndex
  pushed : d'.rings.tx.pushed = d.rings.tx.pushed
  owned : ∀ a, TxArea a → d'.cached.owned size.bytes a = d.cached.owned size.bytes a
  dirty : ∀ n, d'.cached.Dirty n → d.cached.Dirty n

/-- The bytes of a line are all in the TX ring if one of them is. -/
theorem txArea_of_line {a b : ℕ} (ha : TxArea a) (hline : b / size.bytes = a / size.bytes) : TxArea b := by
  have hdvd : size.bytes ∣ Udriver.bufTxOffsetBytes := Nat.dvd_trans size.dvd ⟨32768, rfl⟩
  obtain ⟨lines, hlines⟩ := hdvd
  have hfirst : lines ≤ a / size.bytes := by
    rw [Nat.le_div_iff_mul_le size.pos, Nat.mul_comm, ← hlines]
    exact ha
  rw [← hline, Nat.le_div_iff_mul_le size.pos, Nat.mul_comm, ← hlines] at hfirst
  exact hfirst

/-- The PL writes only into the RX rings. -/
theorem Good.not_txArea_of_written (h : Good size d) {step : PlStep} {a : ℕ} (hwritten : (d.written step a).isSome = true) :
    ¬ TxArea a := by
  cases step with
  | transmit => exact Bool.noConfusion hwritten
  | receive idx slot =>
    simp only [written] at hwritten
    split at hwritten
    · rename_i hin
      have hoff : a - RxRing.slotOffset idx (d.rings.rx idx).ring.headIndex < bufferElemMaxSize := by omega
      have hlt : RxRing.slotOffset idx (d.rings.rx idx).ring.headIndex + _ < _ :=
        SharedRings.slotOffset_lt_bufTxOffsetBytes (h.rxHead idx) hoff
      rw [Nat.add_sub_cancel' hin.1] at hlt
      exact Nat.not_le_of_lt hlt
    · exact Bool.noConfusion hwritten

/-- The memory after a step of the PL. -/
theorem cached_move_pl (d : CachedRings) (step : PlStep) :
    (d.move size (.pl step)).cached = d.cached.deviceWrite (d.written step) := by
  have hmemory : (d.rings.move step).memory = fun a => (d.written step a).getD (d.rings.memory a) := by
    funext a
    cases step with
    | transmit => rfl
    | receive idx slot =>
      simp only [written, SharedRings.move]
      split <;> rfl
  exact congrArg (fun memory => Cached.mk memory _) hmemory

/-- A step of the PL pushes nothing to the TX ring. -/
theorem tx_move_pl (size : LineSize) (d : CachedRings) (step : PlStep) :
    (d.move size (.pl step)).rings.tx.ring.headIndex = d.rings.tx.ring.headIndex ∧
      (d.move size (.pl step)).rings.tx.pushed = d.rings.tx.pushed := by
  cases step with
  | transmit => exact ⟨rfl, rfl⟩
  | receive other slot =>
    have htx := SharedRings.tx_receive d.rings other slot
    exact ⟨congrArg (fun tx => tx.ring.headIndex) htx, congrArg TxQueue.pushed htx⟩

theorem unnoticed_pl (h : Good size d) (step : PlStep) :
    Unnoticed size d (d.move size (.pl step)) := by
  obtain ⟨hhead, hpushed⟩ := tx_move_pl size d step
  have hwritten : ∀ a, (d.written step a).isSome = true → ¬ TxArea a := fun a => h.not_txArea_of_written
  have hcoherent : (d.move size (.pl step)).cached.Coherent size.bytes TxArea := by
    rw [cached_move_pl]
    exact h.coherent.deviceWrite hwritten
  refine ⟨⟨hcoherent, fun idx => ?_, ?_⟩, ?_, ?_, ?_, fun a ha => ?_, fun n hdirty => ?_⟩
  · cases step with
    | transmit => exact h.rxHead idx
    | receive other slot =>
      change (if idx = other then (d.rings.rx other).push slot else d.rings.rx idx).ring.headIndex < _
      split
      · exact CircularBuffer.indexNext_lt (h.rxHead other)
      · exact h.rxHead idx
  · rw [hhead]
    exact h.txHead
  · exact congrArg ConfigRegs.buftxPushed (SharedRings.regs_move d.rings step)
  · exact hhead
  · exact hpushed
  · have hnone : d.written step a = none := by
      rw [← Option.not_isSome_iff_eq_none]
      exact fun hsome => hwritten a hsome ha
    rw [cached_move_pl, h.coherent.owned_deviceWrite hwritten, hnone, Option.getD_none]
  · rw [cached_move_pl] at hdirty
    exact Cached.dirty_deviceWrite hdirty

/-- What happens between two accesses is not noticed. -/
theorem unnoticed_of_quiet (h : Good size d) (hquiet : Caller.Quiet (device size) d d') : Unnoticed size d d' := by
  obtain ⟨e, -, rfl⟩ := hquiet
  cases e with
  | pl step => exact unnoticed_pl h step
  | fill n =>
    exact ⟨⟨h.coherent.fill n, h.rxHead, h.txHead⟩, rfl, rfl, rfl, fun a _ => Cached.owned_fill a,
      fun _ => Cached.dirty_fill⟩
  | evict n =>
    exact ⟨⟨h.coherent.evict n, h.rxHead, h.txHead⟩, rfl, rfl, rfl, fun a _ => Cached.owned_evict a,
      fun _ => Cached.dirty_evict⟩

/-- A register write of a receiver. -/
theorem unnoticed_writeReg (h : Good size d) {reg : RegAddr} (hreg : reg ≠ RegAddr.buftxPushed) (value : BitVec 32) :
    Unnoticed size d { d with rings := d.rings.writeReg reg value } := by
  have htx : (d.rings.writeReg reg value).tx = d.rings.tx := SharedRings.tx_writeReg fun heq => absurd heq hreg
  refine ⟨⟨h.coherent, fun idx => ?_, ?_⟩, if_neg hreg, ?_, ?_, fun _ _ => rfl, fun _ => id⟩
  · change (if _ then (d.rings.rx idx).pop else d.rings.rx idx).ring.headIndex < _
    split <;> exact h.rxHead idx
  · rw [htx]
    exact h.txHead
  · rw [htx]
  · rw [htx]

end Steps

section Sender

/-- Some bytes are in the free slot at the head, in the memory or in a line that was written. -/
structure Placing (size : LineSize) (sent : List HeaderedPacket) (m : ℕ) (bytes : List (BitVec 8)) (d : CachedRings) :
    Prop where
  good : Good size d
  low : d.rings.regs.buftxPushed = false
  pushed : PushedExactly sent d
  head : d.rings.tx.ring.headIndex = m
  owned : ∀ k b, bytes[k]? = some b → d.cached.owned size.bytes (TxRing.slotOffset m + k) = b

/-- None of their lines waits to be written back. -/
structure Flushed (size : LineSize) (sent : List HeaderedPacket) (m : ℕ) (bytes : List (BitVec 8)) (d : CachedRings) : Prop
    extends Placing size sent m bytes d where
  flushed : ∀ k < bytes.length, ¬ d.cached.Dirty ((TxRing.slotOffset m + k) / size.bytes)

/-- The pushed bit is high. -/
structure Pushing (size : LineSize) (sent : List HeaderedPacket) (d : CachedRings) : Prop where
  good : Good size d
  pushed : PushedExactly sent d

theorem txArea_slotOffset (m k : ℕ) : TxArea (TxRing.slotOffset m + k) := by
  unfold TxArea
  simp only [TxRing.slotOffset]
  omega

theorem Placing.unnoticed (h : Placing size sent m bytes d) (hstep : Unnoticed size d d') : Placing size sent m bytes d' := by
  refine ⟨hstep.good, hstep.buftxPushed.trans h.low, ?_, hstep.head.trans h.head, fun k b hb => ?_⟩
  · rw [PushedExactly, hstep.pushed]
    exact h.pushed
  · rw [hstep.owned _ (txArea_slotOffset m k)]
    exact h.owned k b hb

theorem Flushed.unnoticed (h : Flushed size sent m bytes d) (hstep : Unnoticed size d d') : Flushed size sent m bytes d' :=
  ⟨h.toPlacing.unnoticed hstep, fun k hk hdirty => h.flushed k hk (hstep.dirty _ hdirty)⟩

theorem Pushing.unnoticed (h : Pushing size sent d) (hstep : Unnoticed size d d') : Pushing size sent d' := by
  refine ⟨hstep.good, ?_⟩
  rw [PushedExactly, hstep.pushed]
  exact h.pushed

/-- The head that is read. -/
theorem toNat_head (h : Good size d) :
    (d.rings.regs.read d.rings.status RegAddr.buftxHead).toNat = d.rings.tx.ring.headIndex := by
  have hread : d.rings.regs.read d.rings.status RegAddr.buftxHead =
      (BitVec.ofNat 5 d.rings.tx.ring.headIndex).setWidth 32 := rfl
  have hlt : d.rings.tx.ring.headIndex < 2 ^ 5 := h.txHead
  rw [hread, BitVec.toNat_setWidth, BitVec.toNat_ofNat, Nat.mod_eq_of_lt hlt, Nat.mod_eq_of_lt (by omega)]

/-- The next byte is placed. -/
theorem Placing.store (h : Placing size sent m bytes d) (b : BitVec 8) : Placing size sent m (bytes ++ [b])
    (d.withCached (d.cached.store size.bytes (TxRing.slotOffset m + bytes.length) b)) := by
  have harea : ∀ a, a / size.bytes = (TxRing.slotOffset m + bytes.length) / size.bytes → TxArea a :=
    fun a hline => txArea_of_line (txArea_slotOffset m bytes.length) hline
  refine ⟨⟨h.good.coherent.store harea b, h.good.rxHead, h.good.txHead⟩, h.low, h.pushed, h.head, fun k v hv => ?_⟩
  change (d.cached.store size.bytes (TxRing.slotOffset m + bytes.length) b).owned size.bytes (TxRing.slotOffset m + k) = v
  rw [h.good.coherent.owned_store harea]
  by_cases hlast : k = bytes.length
  · subst hlast
    rw [List.getElem?_concat_length] at hv
    rw [if_pos rfl]
    exact Option.some.inj hv
  · have hlt : k < bytes.length := by
      have hle := (List.getElem?_eq_some_iff.mp hv).1
      rw [List.length_append, List.length_singleton] at hle
      omega
    rw [List.getElem?_append_left hlt] at hv
    rw [if_neg (by omega)]
    exact h.owned k v hv

/-- A sync that drops no line that was written leaves the bytes in the memory. -/
theorem Placing.sync (h : Placing size sent m bytes d) {direction : SyncDirection} {length : ℕ}
    (hready : Owned size d (.sync direction (TxRing.slotOffset m) length)) (hlength : bytes.length ≤ length) :
    Flushed size sent m bytes (execute size d (.sync direction (TxRing.slotOffset m) length)).2 := by
  have hrange (k : ℕ) (hk : k < bytes.length) :
      InRange size.bytes (TxRing.slotOffset m) length ((TxRing.slotOffset m + k) / size.bytes) :=
    inRange_of_mem (Nat.le_add_right _ _) (by omega)
  cases direction with
  | toDevice =>
    refine ⟨⟨⟨h.good.coherent.clean _ _, h.good.rxHead, h.good.txHead⟩, h.low, h.pushed, h.head, fun k b hb => ?_⟩,
      fun k hk hdirty => (Cached.dirty_clean hdirty).2 (hrange k hk)⟩
    exact (Cached.owned_clean _).trans (h.owned k b hb)
  | fromDevice =>
    refine ⟨⟨⟨h.good.coherent.invalidate _ _, h.good.rxHead, h.good.txHead⟩, h.low, h.pushed, h.head, fun k b hb => ?_⟩,
      fun k hk hdirty => (Cached.dirty_invalidate hdirty).2 (hrange k hk)⟩
    exact (Cached.owned_invalidate hready _).trans (h.owned k b hb)

/-- The pushed bit is cleared. -/
theorem Flushed.clear (h : Flushed size sent m bytes d) :
    Flushed size sent m bytes { d with rings := d.rings.writeReg RegAddr.buftxPushed 0 } := by
  have htx : (d.rings.writeReg RegAddr.buftxPushed 0).tx = d.rings.tx := SharedRings.tx_writeReg fun _ => rfl
  have hrx (idx : BufferIdx) : ((d.rings.writeReg RegAddr.buftxPushed 0).rx idx).ring.headIndex < bufferRxLength := by
    change (if _ then (d.rings.rx idx).pop else d.rings.rx idx).ring.headIndex < _
    split <;> exact h.good.rxHead idx
  refine ⟨⟨⟨h.good.coherent, hrx, ?_⟩, rfl, ?_, ?_, h.owned⟩, h.flushed⟩
  · rw [htx]
    exact h.good.txHead
  · rw [PushedExactly, htx]
    exact h.pushed
  · rw [htx]
    exact h.head

/-- The push: the memory of the slot holds the packet. -/
theorem Flushed.push {p : HeaderedPacket} (hfits : p.Fits) (h : Flushed size sent m p.bytes d) :
    Pushing size (sent ++ [p]) { d with rings := d.rings.writeReg RegAddr.buftxPushed 1 } := by
  have htx : (d.rings.writeReg RegAddr.buftxPushed 1).tx = d.rings.tx.push (d.rings.txSlot d.rings.tx.ring.headIndex) := by
    refine if_pos ?_
    rw [h.low]
    rfl
  refine ⟨⟨h.good.coherent, fun idx => ?_, ?_⟩, ?_⟩
  · change (if _ then (d.rings.rx idx).pop else d.rings.rx idx).ring.headIndex < _
    split <;> exact h.good.rxHead idx
  · rw [htx]
    exact CircularBuffer.indexNext_lt h.good.txHead
  · rw [PushedExactly, htx]
    refine List.rel_append h.pushed (List.Forall₂.cons ⟨hfits, fun k b hb => ?_⟩ .nil)
    have hk : k < p.bytes.length := (List.getElem?_eq_some_iff.mp hb).1
    rw [h.head, ← h.owned k b hb, Cached.owned_of_not_dirty (h.flushed k hk)]
    rfl

/-- The pushed bit is cleared again. -/
theorem Pushing.clear (h : Pushing size sent d) :
    ∃ m, Placing size sent m [] { d with rings := d.rings.writeReg RegAddr.buftxPushed 0 } := by
  have htx : (d.rings.writeReg RegAddr.buftxPushed 0).tx = d.rings.tx := SharedRings.tx_writeReg fun _ => rfl
  refine ⟨_, ⟨h.good.coherent, fun idx => ?_, ?_⟩, rfl, ?_, rfl, nofun⟩
  · change (if _ then (d.rings.rx idx).pop else d.rings.rx idx).ring.headIndex < _
    split <;> exact h.good.rxHead idx
  · rw [htx]
    exact h.good.txHead
  · rw [PushedExactly, htx]
    exact h.pushed

end Sender

end CachedRings

end UdpIpCore
