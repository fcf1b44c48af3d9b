import UdpIpCore.Threads
import UdpIpCore.Userspace.RxConsumer
import UdpIpCore.Userspace.TxSender

/-!
# The rings as threads share them

The register file, the shared memory and all rings, with every register and memory access
one transaction. A write that raises the pushed bit or a popped bit pushes or pops at once.
Between the transactions the PL pushes packets into RX rings and pops the TX ring.
-/

namespace UdpIpCore

/-- An RX ring and what was pushed into it. -/
structure RxQueue where
  ring : CircularBuffer bufferRxLength
  counting : ring.Counting
  pushed : List Slot
  pops : ℕ
  /-- The pushes that found it full. -/
  overruns : ℕ
  /-- It was popped when empty. -/
  underrun : Bool

/-- The TX ring, what was pushed into it, and the bytes that were transmitted. -/
structure TxQueue where
  ring : CircularBuffer bufferTxLength
  pushed : List Slot
  transmitted : List (List (BitVec 8))
  /-- It was pushed when full, or popped when empty. -/
  misused : Bool

namespace RxQueue

def reset : RxQueue := ⟨.reset bufferRxLength, ⟨0, 0, CircularBuffer.tracks_reset (by decide)⟩, [], 0, 0, false⟩

/-- `data_pushed_i`. -/
def push (q : RxQueue) (slot : Slot) : RxQueue where
  ring := q.ring.step true false
  counting := q.counting.step (by decide) true false (Or.inr rfl)
  pushed := q.pushed ++ [slot]
  pops := q.pops
  overruns := q.overruns + q.ring.full.toNat
  underrun := q.underrun

/-- `data_popped_i`. -/
def pop (q : RxQueue) : RxQueue where
  ring := q.ring.step false true
  counting := q.counting.step (by decide) false true (Or.inl rfl)
  pushed := q.pushed
  pops := q.pops + 1
  overruns := q.overruns
  underrun := q.underrun || q.ring.empty

/-- It was pushed when full, or popped when empty. -/
def misused (q : RxQueue) : Bool := decide (0 < q.overruns) || q.underrun

end RxQueue

namespace TxQueue

def reset : TxQueue := ⟨.reset bufferTxLength, [], [], false⟩

/-- `data_pushed_i`. -/
def push (q : TxQueue) (slot : Slot) : TxQueue where
  ring := q.ring.step true false
  pushed := q.pushed ++ [slot]
  transmitted := q.transmitted
  misused := q.misused || q.ring.full

/-- `data_popped_i`, with the slot that was fetched. -/
def pop (q : TxQueue) (slot : Slot) : TxQueue where
  ring := q.ring.step false true
  pushed := q.pushed
  transmitted := q.transmitted ++ [TxRing.slotBytes slot]
  misused := q.misused || q.ring.empty

end TxQueue

/-- The device and its memory. -/
structure SharedRings where
  regs : ConfigRegs
  memory : ℕ → BitVec 8
  rx : BufferIdx → RxQueue
  tx : TxQueue
  /-- What a read of the control and interrupt registers returns. -/
  control : RegAddr → BitVec 32

/-- What the PL does on its own. -/
inductive PlStep
  /-- A packet is written into the slot at the head of an RX ring and pushed. -/
  | receive (idx : BufferIdx) (slot : Slot)
  /-- The slot at the tail of the TX ring is fetched and popped. -/
  | transmit

namespace SharedRings

/-- After reset, with some sockets open. -/
def start (opened : BufferIdx → Bool) (control : RegAddr → BitVec 32) : SharedRings where
  regs := { ConfigRegs.reset with
    bufrxTemp := fun idx => ConfigRegs.field (BitVec.ofBool (opened idx)) bufferOpensockOffset }
  memory := fun _ => 0
  rx := fun _ => .reset
  tx := .reset
  control := control

/-- What a read shows; no push or pop is under way between two transactions. -/
def status (d : SharedRings) : StatusInputs where
  bufrx := fun idx => ⟨false, (d.rx idx).ring.full, (d.rx idx).ring.empty,
    BitVec.ofNat 5 (d.rx idx).ring.tailIndex, BitVec.ofNat 5 (d.rx idx).ring.headIndex⟩
  buftxHead := BitVec.ofNat 5 d.tx.ring.headIndex
  buftxTail := BitVec.ofNat 5 d.tx.ring.tailIndex
  buftxEmpty := d.tx.ring.empty
  buftxFull := d.tx.ring.full
  buftxPopped := false
  control := d.control

/-- The popped bit of an RX ring. -/
def popped (regs : ConfigRegs) (idx : BufferIdx) : Bool := (regs.bufrxTemp idx).getLsbD bufferPoppedOffset

/-- The slot of the TX ring with the index. -/
def txSlot (d : SharedRings) (index : ℕ) : Slot := fun k => d.memory (TxRing.slotOffset index + k)

/-- The slot of an RX ring with the index. -/
def rxSlot (d : SharedRings) (idx : BufferIdx) (index : ℕ) : Slot := fun k => d.memory (RxRing.slotOffset idx index + k)

/-- A register write; a bit that rises pushes or pops. -/
def writeReg (d : SharedRings) (reg : RegAddr) (value : BitVec 32) : SharedRings where
  regs := d.regs.write reg value
  memory := d.memory
  rx := fun idx =>
    if !popped d.regs idx && popped (d.regs.write reg value) idx then (d.rx idx).pop else d.rx idx
  tx :=
    if !d.regs.buftxPushed && (d.regs.write reg value).buftxPushed then d.tx.push (d.txSlot d.tx.ring.headIndex)
    else d.tx
  control := d.control

/-- A write of one byte. -/
def store (d : SharedRings) (offset : ℕ) (value : BitVec 8) : SharedRings :=
  { d with memory := fun a => if a = offset then value else d.memory a }

/-- One transaction. -/
def execute (d : SharedRings) : (c : Access) → c.Response × SharedRings
  | .readReg reg => (d.regs.read d.status reg, d)
  | .writeReg reg value => ((), d.writeReg reg value)
  | .load offset => (d.memory offset, d)
  | .store offset value => ((), d.store offset value)

/-- One step of the PL. -/
def move (d : SharedRings) : PlStep → SharedRings
  | .receive idx slot =>
    let base := RxRing.slotOffset idx (d.rx idx).ring.headIndex
    { d with
      memory := fun a => if base ≤ a ∧ a < base + bufferElemMaxSize then slot (a - base) else d.memory a
      rx := fun other => if other = idx then (d.rx idx).push slot else d.rx other }
  | .transmit => { d with tx := d.tx.pop (d.txSlot d.tx.ring.tailIndex) }

/-- The PL pushes what arrives, whatever the ring holds, and fetches no slot from an empty TX ring. -/
def legal (d : SharedRings) : PlStep → Prop
  | .receive _ _ => True
  | .transmit => d.tx.ring.empty = false

instance (d : SharedRings) : (step : PlStep) → Decidable (d.legal step)
  | .receive _ _ => instDecidableTrue
  | .transmit => inferInstanceAs (Decidable (d.tx.ring.empty = false))

/-- The rings as a device of atomic transactions. -/
def device : Interaction.AtomicDevice Access Access.Response SharedRings PlStep := ⟨execute, move, legal⟩

/-- The listed packets wait in an RX ring, the first of them in the slot with the index `first`. -/
structure RxHolds (idx : BufferIdx) (first : ℕ) (waiting : List Slot) (d : SharedRings) : Prop where
  tracks : (d.rx idx).ring.Tracks (first + waiting.length) first
  stored : ∀ k slot, waiting[k]? = some slot → ∀ off < bufferElemMaxSize,
    d.memory (RxRing.slotOffset idx ((first + k) % bufferRxLength) + off) = slot off

/-- The packets that wait in an RX ring are those that were pushed and not yet popped. -/
structure RxKept (idx : BufferIdx) (d : SharedRings) : Prop where
  holds : RxHolds idx (d.rx idx).pops ((d.rx idx).pushed.drop (d.rx idx).pops) d
  pops_le : (d.rx idx).pops ≤ (d.rx idx).pushed.length
  unmisused : (d.rx idx).misused = false

/-- The TX ring counts its pushes and pops, its slots hold what was pushed into them until they are
transmitted, and what was transmitted are the pushed slots in order. -/
structure TxKept (d : SharedRings) : Prop where
  tracks : d.tx.ring.Tracks d.tx.pushed.length d.tx.transmitted.length
  waiting : ∀ k slot, d.tx.pushed[k]? = some slot → d.tx.transmitted.length ≤ k → ∀ off < bufferElemMaxSize,
    d.memory (TxRing.slotOffset (k % bufferTxLength) + off) = slot off
  transmitted : d.tx.transmitted = (d.tx.pushed.take d.tx.transmitted.length).map TxRing.slotBytes
  unmisused : d.tx.misused = false

/-- A step that a receiver in its section does not notice. -/
structure RxQuiet (idx : BufferIdx) (d d' : SharedRings) : Prop where
  kept : RxKept idx d → RxKept idx d'
  pops : (d'.rx idx).pops = (d.rx idx).pops
  pushed : (d.rx idx).pushed <+: (d'.rx idx).pushed
  low : popped d.regs idx = false → popped d'.regs idx = false

/-- A step that pops nothing from the ring. What waits then is what has waited and what has arrived, without the packets
that are lost when a full ring is pushed. -/
structure RxFlow (idx : BufferIdx) (d d' : SharedRings) : Prop where
  flows : ∀ first waiting, RxHolds idx first waiting d → ∃ first' waiting' arrivals, RxHolds idx first' waiting' d' ∧
    (d'.rx idx).pushed = (d.rx idx).pushed ++ arrivals ∧ waiting'.Sublist (waiting ++ arrivals) ∧
    ((d'.rx idx).overruns = (d.rx idx).overruns → first' = first ∧ waiting' = waiting ++ arrivals)
  overruns : (d.rx idx).overruns ≤ (d'.rx idx).overruns
  underrun : (d'.rx idx).underrun = (d.rx idx).underrun
  pops : (d'.rx idx).pops = (d.rx idx).pops
  waiting : (d.rx idx).ring.empty = false → (d'.rx idx).ring.empty = false
  low : popped d.regs idx = false → popped d'.regs idx = false

/-- Some steps by which the listed slots leave the ring at its tail. They and what waits then are, in this order, what has
waited and what has arrived, without the packets that are lost when a full ring is pushed. -/
structure RxPasses (idx : BufferIdx) (slots : List Slot) (d d' : SharedRings) : Prop where
  passes : ∀ first waiting, RxHolds idx first waiting d → ∃ first' waiting' arrivals out, RxHolds idx first' waiting' d' ∧
    (d'.rx idx).pushed = (d.rx idx).pushed ++ arrivals ∧ List.Forall₂ Slot.Agrees slots out ∧
    (out ++ waiting').Sublist (waiting ++ arrivals) ∧
    ((d'.rx idx).overruns = (d.rx idx).overruns → out ++ waiting' = waiting ++ arrivals)
  overruns : (d.rx idx).overruns ≤ (d'.rx idx).overruns

/-- A step that a sender in its section does not notice. -/
structure TxQuiet (d d' : SharedRings) : Prop where
  kept : TxKept d → TxKept d'
  pushed : d'.tx.pushed = d.tx.pushed
  transmitted : d.tx.transmitted.length ≤ d'.tx.transmitted.length
  memory : ∀ a, Udriver.bufTxOffsetBytes ≤ a → d'.memory a = d.memory a
  low : d.regs.buftxPushed = false → d'.regs.buftxPushed = false

section Lemmas

variable {idx : BufferIdx} {d d' : SharedRings} {reg : RegAddr} {value : BitVec 32}

/-- The popped bit after a write. -/
theorem popped_write (regs : ConfigRegs) (reg : RegAddr) (value : BitVec 32) (idx : BufferIdx) :
    popped (regs.write reg value) idx =
      if ConfigRegs.ringOf reg = some idx then value.getLsbD bufferPoppedOffset else popped regs idx := by
  by_cases hring : ConfigRegs.ringOf reg = some idx <;> simp [popped, ConfigRegs.write, hring]

/-- The pushed bit after a write. -/
theorem buftxPushed_write (regs : ConfigRegs) (reg : RegAddr) (value : BitVec 32) :
    (regs.write reg value).buftxPushed =
      if reg = RegAddr.buftxPushed then value.getLsbD 0 else regs.buftxPushed := rfl

/-- A write that raises no bit of the ring leaves the ring. -/
theorem rx_writeReg (h : ConfigRegs.ringOf reg = some idx → value.getLsbD bufferPoppedOffset = false) :
    (d.writeReg reg value).rx idx = d.rx idx := by
  have hstays : (!popped d.regs idx && popped (d.regs.write reg value) idx) = false := by
    rw [popped_write]
    split
    · rw [h ‹_›, Bool.and_false]
    · exact Bool.not_and_self _
  exact if_neg (Bool.eq_false_iff.mp hstays)

/-- A write that does not raise the pushed bit leaves the TX ring. -/
theorem tx_writeReg (h : reg = RegAddr.buftxPushed → value.getLsbD 0 = false) :
    (d.writeReg reg value).tx = d.tx := by
  have hstays : (!d.regs.buftxPushed && (d.regs.write reg value).buftxPushed) = false := by
    rw [buftxPushed_write]
    split
    · rw [h ‹_›, Bool.and_false]
    · exact Bool.not_and_self _
  exact if_neg (Bool.eq_false_iff.mp hstays)

/-- A slot of an RX ring ends before the next ring begins. -/
theorem slotOffset_lt_next {index off : ℕ} (hindex : index < bufferRxLength) (hoff : off < bufferElemMaxSize) :
    RxRing.slotOffset idx index + off < (idx.toNat + 1) * Udriver.bufSizeBytes := by
  have hslots : (index + 1) * bufferElemMaxSize ≤ Udriver.bufSizeBytes := Nat.mul_le_mul_right _ hindex
  rw [RxRing.slotOffset, Udriver.bufRxIdxOffsetBytes]
  rw [Nat.add_mul, Nat.one_mul] at hslots ⊢
  generalize Udriver.bufSizeBytes = size at hslots ⊢
  generalize bufferElemMaxSize = length at hslots hoff ⊢
  omega

/-- The slots of the RX rings end where the TX ring begins. -/
theorem slotOffset_lt_bufTxOffsetBytes {index off : ℕ} (hindex : index < bufferRxLength)
    (hoff : off < bufferElemMaxSize) : RxRing.slotOffset idx index + off < Udriver.bufTxOffsetBytes :=
  Nat.lt_of_lt_of_le (slotOffset_lt_next hindex hoff) (Nat.mul_le_mul_right _ idx.isLt)

/-- Slots of different RX rings do not overlap. -/
theorem slotOffset_disjoint {other : BufferIdx} (hne : idx ≠ other) {index index' off : ℕ}
    (hindex : index < bufferRxLength) (hindex' : index' < bufferRxLength) (hoff : off < bufferElemMaxSize) :
    RxRing.slotOffset idx index + off < RxRing.slotOffset other index' ∨
      RxRing.slotOffset other index' + bufferElemMaxSize ≤ RxRing.slotOffset idx index + off := by
  have hne' : idx.toNat ≠ other.toNat := fun h => hne (BitVec.eq_of_toNat_eq h)
  rcases Nat.lt_or_gt_of_ne hne' with hlt | hgt
  · refine Or.inl (Nat.lt_of_lt_of_le (slotOffset_lt_next hindex hoff) ?_)
    exact Nat.le_trans (Nat.mul_le_mul_right _ hlt) (Nat.le_add_right _ _)
  · have hend : RxRing.slotOffset other index' + (bufferElemMaxSize - 1) < _ :=
      slotOffset_lt_next hindex' (by decide)
    have hstart : (other.toNat + 1) * Udriver.bufSizeBytes ≤ RxRing.slotOffset idx index :=
      Nat.le_trans (Nat.mul_le_mul_right _ hgt) (Nat.le_add_right _ _)
    generalize RxRing.slotOffset other index' = first at hend ⊢
    generalize RxRing.slotOffset idx index = second at hstart ⊢
    generalize (other.toNat + 1) * Udriver.bufSizeBytes = bound at hend hstart
    simp only [bufferElemMaxSize] at hend ⊢
    omega

/-- The ring counts its pushes and pops. -/
theorem RxKept.tracks (h : RxKept idx d) : (d.rx idx).ring.Tracks (d.rx idx).pushed.length (d.rx idx).pops := by
  have htracks := h.holds.tracks
  rwa [List.length_drop, Nat.add_sub_cancel' h.pops_le] at htracks

/-- Its unread slots hold what was pushed into them. -/
theorem RxKept.unread (h : RxKept idx d) (k : ℕ) (slot : Slot) (hslot : (d.rx idx).pushed[k]? = some slot)
    (hpops : (d.rx idx).pops ≤ k) (off : ℕ) (hoff : off < bufferElemMaxSize) :
    d.memory (RxRing.slotOffset idx (k % bufferRxLength) + off) = slot off := by
  have hstored := h.holds.stored (k - (d.rx idx).pops) slot
  rw [List.getElem?_drop, Nat.add_sub_cancel' hpops] at hstored
  exact hstored hslot off hoff

/-- In every ring some packets wait. -/
theorem exists_holds (idx : BufferIdx) (d : SharedRings) : ∃ first waiting, RxHolds idx first waiting d := by
  obtain ⟨pushes, pops, htracks⟩ := (d.rx idx).counting
  refine ⟨pops, (List.range (pushes - pops)).map fun k off =>
    d.memory (RxRing.slotOffset idx ((pops + k) % bufferRxLength) + off), ?_, fun k slot hslot off _ => ?_⟩
  · rwa [List.length_map, List.length_range, Nat.add_sub_cancel' htracks.pops_le]
  · rw [List.getElem?_map, Option.map_eq_some_iff] at hslot
    obtain ⟨n, hn, rfl⟩ := hslot
    obtain ⟨-, rfl⟩ := List.getElem?_eq_some_iff.mp hn
    rw [List.getElem_range]

/-- The ring is empty when no packet waits. -/
theorem RxHolds.empty_eq {first : ℕ} {waiting : List Slot} (h : RxHolds idx first waiting d) :
    (d.rx idx).ring.empty = waiting.isEmpty := by
  rw [h.tracks.empty]
  cases waiting with
  | nil => exact decide_eq_true rfl
  | cons slot rest => exact decide_eq_false (by rw [List.length_cons]; omega)

/-- The packets wait as long as the ring and its memory stay. -/
theorem RxHolds.of_same {first : ℕ} {waiting : List Slot} (h : RxHolds idx first waiting d) (hrx : d'.rx idx = d.rx idx)
    (hmemory : ∀ index < bufferRxLength, ∀ off < bufferElemMaxSize,
      d'.memory (RxRing.slotOffset idx index + off) = d.memory (RxRing.slotOffset idx index + off)) :
    RxHolds idx first waiting d' where
  tracks := by
    rw [hrx]
    exact h.tracks
  stored := fun k slot hslot off hoff => by
    rw [hmemory _ (Nat.mod_lt _ (by decide)) off hoff]
    exact h.stored k slot hslot off hoff

/-- A step that leaves the ring pops nothing from it. -/
theorem RxFlow.of_same (hrx : d'.rx idx = d.rx idx)
    (hmemory : ∀ index < bufferRxLength, ∀ off < bufferElemMaxSize,
      d'.memory (RxRing.slotOffset idx index + off) = d.memory (RxRing.slotOffset idx index + off))
    (hlow : popped d.regs idx = false → popped d'.regs idx = false) : RxFlow idx d d' where
  flows := fun first waiting h => by
    refine ⟨first, waiting, [], h.of_same hrx hmemory, ?_, ?_, fun _ => ⟨rfl, (List.append_nil _).symm⟩⟩
    · rw [hrx, List.append_nil]
    · rw [List.append_nil]
  overruns := Nat.le_of_eq (by rw [hrx])
  underrun := by rw [hrx]
  pops := by rw [hrx]
  waiting := fun h => by rwa [hrx]
  low := hlow

/-- Nothing happens to the ring. -/
theorem RxFlow.refl (idx : BufferIdx) (d : SharedRings) : RxFlow idx d d := .of_same rfl (fun _ _ _ _ => rfl) id

/-- Two steps that pop nothing from the ring. -/
theorem RxFlow.trans {d'' : SharedRings} (h : RxFlow idx d d') (h' : RxFlow idx d' d'') : RxFlow idx d d'' where
  flows := fun first waiting hholds => by
    obtain ⟨first₁, waiting₁, arrivals₁, hholds₁, hpushed₁, hsub₁, hsame₁⟩ := h.flows first waiting hholds
    obtain ⟨first₂, waiting₂, arrivals₂, hholds₂, hpushed₂, hsub₂, hsame₂⟩ := h'.flows first₁ waiting₁ hholds₁
    refine ⟨first₂, waiting₂, arrivals₁ ++ arrivals₂, hholds₂, ?_, ?_, fun hover => ?_⟩
    · rw [hpushed₂, hpushed₁, List.append_assoc]
    · rw [← List.append_assoc]
      exact hsub₂.trans (hsub₁.append_right arrivals₂)
    · have hle := h.overruns
      have hle' := h'.overruns
      obtain ⟨rfl, rfl⟩ := hsame₁ (by omega)
      obtain ⟨rfl, rfl⟩ := hsame₂ (by omega)
      exact ⟨rfl, List.append_assoc _ _ _⟩
  overruns := Nat.le_trans h.overruns h'.overruns
  underrun := h'.underrun.trans h.underrun
  pops := h'.pops.trans h.pops
  waiting := fun hwaiting => h'.waiting (h.waiting hwaiting)
  low := fun hlow => h'.low (h.low hlow)

/-- A receiver does not notice what is not popped, unless a full ring is pushed. -/
theorem RxFlow.quiet (h : RxFlow idx d d') (hover : (d'.rx idx).overruns = (d.rx idx).overruns) : RxQuiet idx d d' := by
  obtain ⟨-, -, arrivals, -, hpushed, -⟩ := h.flows _ _ (exists_holds idx d).choose_spec.choose_spec
  refine ⟨fun hkept => ?_, h.pops, ⟨arrivals, hpushed.symm⟩, h.low⟩
  obtain ⟨first', waiting', arrivals', hholds, hpushed', -, hsame⟩ := h.flows _ _ hkept.holds
  obtain ⟨rfl, rfl⟩ := hsame hover
  refine ⟨?_, ?_, ?_⟩
  · rw [h.pops, hpushed', List.drop_append_of_le_length hkept.pops_le]
    exact hholds
  · rw [h.pops, hpushed', List.length_append]
    exact Nat.le_trans hkept.pops_le (Nat.le_add_right _ _)
  · have hunmisused := hkept.unmisused
    rw [RxQueue.misused] at hunmisused ⊢
    rwa [hover, h.underrun]

/-- A receiver does not notice a step that leaves its ring. -/
theorem RxQuiet.of_same (hrx : d'.rx idx = d.rx idx)
    (hmemory : ∀ index < bufferRxLength, ∀ off < bufferElemMaxSize,
      d'.memory (RxRing.slotOffset idx index + off) = d.memory (RxRing.slotOffset idx index + off))
    (hlow : popped d.regs idx = false → popped d'.regs idx = false) : RxQuiet idx d d' :=
  (RxFlow.of_same hrx hmemory hlow).quiet (by rw [hrx])

/-- A sender does not notice a step that leaves the TX ring and its memory. -/
theorem TxQuiet.of_same (htx : d'.tx = d.tx)
    (hmemory : ∀ a, Udriver.bufTxOffsetBytes ≤ a → d'.memory a = d.memory a)
    (hlow : d.regs.buftxPushed = false → d'.regs.buftxPushed = false) : TxQuiet d d' where
  kept := fun h => by
    refine ⟨?_, fun k slot hslot hpops off hoff => ?_, ?_, ?_⟩
    · rw [htx]
      exact h.tracks
    · rw [htx] at hslot hpops
      rw [hmemory _ (by simp only [TxRing.slotOffset]; omega)]
      exact h.waiting k slot hslot hpops off hoff
    · rw [htx]
      exact h.transmitted
    · rw [htx]
      exact h.unmisused
  pushed := by rw [htx]
  transmitted := Nat.le_of_eq (by rw [htx])
  memory := hmemory
  low := hlow

/-- A write that raises no bit of the ring pops nothing from it. -/
theorem RxFlow.writeReg (h : ConfigRegs.ringOf reg = some idx → value.getLsbD bufferPoppedOffset = false) :
    RxFlow idx d (d.writeReg reg value) := by
  refine .of_same (rx_writeReg h) (fun _ _ _ _ => rfl) fun hlow => ?_
  change popped (d.regs.write reg value) idx = false
  rw [popped_write]
  split
  · exact h ‹_›
  · exact hlow

/-- A receiver does not notice it. -/
theorem RxQuiet.writeReg (h : ConfigRegs.ringOf reg = some idx → value.getLsbD bufferPoppedOffset = false) :
    RxQuiet idx d (d.writeReg reg value) :=
  (RxFlow.writeReg h).quiet (by rw [rx_writeReg h])

/-- A sender does not notice a write that does not raise the pushed bit. -/
theorem TxQuiet.writeReg (h : reg = RegAddr.buftxPushed → value.getLsbD 0 = false) :
    TxQuiet d (d.writeReg reg value) := by
  refine .of_same (tx_writeReg h) (fun _ _ => rfl) fun hlow => ?_
  change (if reg = RegAddr.buftxPushed then value.getLsbD 0 else d.regs.buftxPushed) = false
  split
  · exact h ‹_›
  · exact hlow

/-- A receiver does not notice a byte written into the TX ring. -/
theorem RxQuiet.store {offset : ℕ} {b : BitVec 8} (hoffset : Udriver.bufTxOffsetBytes ≤ offset) :
    RxQuiet idx d (d.store offset b) := by
  refine .of_same rfl (fun index hindex off hoff => if_neg ?_) id
  have hlt : RxRing.slotOffset idx index + off < _ := slotOffset_lt_bufTxOffsetBytes hindex hoff
  omega

/-- No access changes what was pushed into an RX ring. -/
theorem pushed_execute (d : SharedRings) (c : Access) : ((d.execute c).2.rx idx).pushed = (d.rx idx).pushed := by
  cases c with
  | writeReg reg value =>
    change ((if _ then (d.rx idx).pop else d.rx idx) : RxQueue).pushed = _
    split <;> rfl
  | readReg reg => rfl
  | load offset => rfl
  | store offset value => rfl

/-- A step of the PL pushes at most the packet it receives. -/
theorem mem_pushed_move {step : PlStep} {slot : Slot} (h : slot ∈ ((d.move step).rx idx).pushed) :
    slot ∈ (d.rx idx).pushed ∨ step = .receive idx slot := by
  cases step with
  | transmit => exact Or.inl h
  | receive other stored =>
    change slot ∈ (if idx = other then (d.rx other).push stored else d.rx idx : RxQueue).pushed at h
    by_cases hidx : idx = other
    · subst hidx
      rw [if_pos rfl] at h
      rcases List.mem_append.mp h with hold | hlast
      · exact Or.inl hold
      · exact Or.inr (by rw [List.mem_singleton.mp hlast])
    · rw [if_neg hidx] at h
      exact Or.inl h

-- In both lemmas the fields are compared one by one, and not the memories before and after.
/-- The PL writes no register. -/
theorem regs_move (d : SharedRings) (step : PlStep) : (d.move step).regs = d.regs := by
  obtain ⟨regs, memory, rx, tx, control⟩ := d
  change (move _ step).regs = regs
  cases step <;> rfl

/-- A packet that is received leaves the TX ring. -/
theorem tx_receive (d : SharedRings) (other : BufferIdx) (slot : Slot) : (d.move (.receive other slot)).tx = d.tx := by
  obtain ⟨regs, memory, rx, tx, control⟩ := d
  change (move _ (.receive other slot)).tx = tx
  rfl

/-- Where the PL writes nothing when it receives a packet. -/
theorem memory_receive {other : BufferIdx} {slot : Slot} {a : ℕ}
    (ha : a < RxRing.slotOffset other (d.rx other).ring.headIndex ∨
      RxRing.slotOffset other (d.rx other).ring.headIndex + bufferElemMaxSize ≤ a) :
    (d.move (.receive other slot)).memory a = d.memory a := by
  refine if_neg fun hin => ?_
  omega

/-- The ring a packet is received in. -/
theorem rx_receive (d : SharedRings) (idx : BufferIdx) (slot : Slot) :
    (d.move (.receive idx slot)).rx idx = (d.rx idx).push slot := if_pos rfl

/-- Where the PL writes the packet. -/
theorem memory_head {slot : Slot} {off : ℕ} (hoff : off < bufferElemMaxSize) :
    (d.move (.receive idx slot)).memory (RxRing.slotOffset idx (d.rx idx).ring.headIndex + off) = slot off := by
  have hin : RxRing.slotOffset idx (d.rx idx).ring.headIndex ≤ RxRing.slotOffset idx (d.rx idx).ring.headIndex + off ∧
      RxRing.slotOffset idx (d.rx idx).ring.headIndex + off <
        RxRing.slotOffset idx (d.rx idx).ring.headIndex + bufferElemMaxSize := by omega
  exact (if_pos hin).trans (congrArg slot (Nat.add_sub_cancel_left _ _))

/-- A packet that is pushed into a ring with room waits behind the others. -/
theorem RxHolds.receive {first : ℕ} {waiting : List Slot} (h : RxHolds idx first waiting d) {slot : Slot}
    (hfull : (d.rx idx).ring.full = false) : RxHolds idx first (waiting ++ [slot]) (d.move (.receive idx slot)) := by
  have hroom : first + waiting.length < first + bufferRxLength := by
    rw [h.tracks.full, decide_eq_false_iff_not] at hfull
    exact Nat.lt_of_le_of_ne h.tracks.fits hfull
  refine ⟨?_, fun k stored hstored off hoff => ?_⟩
  · rw [rx_receive, List.length_append, ← Nat.add_assoc]
    exact CircularBuffer.tracks_step (by decide) h.tracks (fun _ => Or.inr hroom) nofun
  · by_cases hold : k < waiting.length
    · rw [List.getElem?_append_left hold] at hstored
      rw [← h.stored k stored hstored off hoff]
      refine memory_receive ?_
      -- a slot with a packet is not the head of a ring with room
      have hne : (first + k) % bufferRxLength ≠ (d.rx idx).ring.headIndex := by
        intro heq
        rw [h.tracks.head] at heq
        have hsame := (CircularBuffer.mod_eq_iff (Nat.le_of_lt (Nat.add_lt_add_left hold first)) (by omega)).mp heq.symm
        omega
      simp only [RxRing.slotOffset, bufferElemMaxSize] at hoff ⊢
      omega
    · have hlast : k = waiting.length := by
        have hlt := (List.getElem?_eq_some_iff.mp hstored).1
        simp only [List.length_append, List.length_singleton] at hlt
        omega
      subst hlast
      rw [List.getElem?_concat_length] at hstored
      obtain rfl := Option.some.inj hstored
      rw [← h.tracks.head]
      exact memory_head hoff

/-- One that is pushed into a full ring is all that waits then. -/
theorem RxHolds.overrun {first : ℕ} {waiting : List Slot} (h : RxHolds idx first waiting d) {slot : Slot}
    (hfull : (d.rx idx).ring.full = true) :
    RxHolds idx (first + bufferRxLength) [slot] (d.move (.receive idx slot)) := by
  have htracks := h.tracks
  rw [htracks.full, decide_eq_true_eq] at hfull
  rw [hfull] at htracks
  refine ⟨?_, fun k stored hstored off hoff => ?_⟩
  · rw [rx_receive]
    exact CircularBuffer.tracks_overrun (by decide) htracks
  · obtain ⟨rfl, rfl⟩ : k = 0 ∧ slot = stored := by
      cases k with
      | zero => exact ⟨rfl, Option.some.inj hstored⟩
      | succ k => simp at hstored
    rw [Nat.add_zero, ← htracks.head]
    exact memory_head hoff

/-- A packet for another ring leaves this one. -/
theorem rx_receive_other {other : BufferIdx} {slot : Slot} (hidx : idx ≠ other) :
    (d.move (.receive other slot)).rx idx = d.rx idx := if_neg hidx

/-- Nothing is popped by a packet that arrives, also when it is for a full ring. -/
theorem RxFlow.receive (d : SharedRings) (other : BufferIdx) (slot : Slot) : RxFlow idx d (d.move (.receive other slot)) := by
  have hlow (hlow : popped d.regs idx = false) : popped (d.move (.receive other slot)).regs idx = false := by
    rwa [regs_move]
  by_cases hidx : idx = other
  · subst hidx
    have hover : ((d.move (.receive idx slot)).rx idx).overruns = (d.rx idx).overruns + (d.rx idx).ring.full.toNat := by
      rw [rx_receive]
      rfl
    refine ⟨fun first waiting h => ?_, by rw [hover]; exact Nat.le_add_right _ _, by rw [rx_receive]; rfl,
      by rw [rx_receive]; rfl, fun _ => by rw [rx_receive]; rfl, hlow⟩
    cases hfull : (d.rx idx).ring.full with
    | false => exact ⟨first, waiting ++ [slot], [slot], h.receive hfull, by rw [rx_receive]; rfl, .refl _, fun _ => ⟨rfl, rfl⟩⟩
    | true =>
      refine ⟨_, [slot], [slot], h.overrun hfull, by rw [rx_receive]; rfl, List.sublist_append_right _ _, fun hsame => ?_⟩
      rw [hover, hfull, Bool.toNat_true] at hsame
      omega
  · refine .of_same (rx_receive_other hidx) (fun index hindex off hoff => memory_receive ?_) hlow
    exact slotOffset_disjoint hidx hindex ((d.rx other).counting.head_lt (by decide)) hoff

/-- No receiver notices a packet that is pushed into a ring with room. -/
theorem RxQuiet.receive {other : BufferIdx} {slot : Slot} (hfull : (d.rx other).ring.full = false) :
    RxQuiet idx d (d.move (.receive other slot)) := by
  refine (RxFlow.receive d other slot).quiet ?_
  by_cases hidx : idx = other
  · subst hidx
    rw [rx_receive]
    change (d.rx idx).overruns + (d.rx idx).ring.full.toNat = _
    rw [hfull]
    rfl
  · rw [rx_receive_other hidx]

/-- A packet that is pushed into a ring with room is stored. -/
theorem RxKept.receive (h : RxKept idx d) {slot : Slot} (hfull : (d.rx idx).ring.full = false) :
    RxKept idx (d.move (.receive idx slot)) :=
  (RxQuiet.receive hfull).kept h

/-- A write that raises the popped bit pops the ring. -/
theorem rx_writeReg_pop (hlow : popped d.regs idx = false) (hvalue : value.getLsbD bufferPoppedOffset = true) :
    (d.writeReg (ConfigRegs.bufferRxCtrl idx.toNat) value).rx idx = (d.rx idx).pop := by
  refine if_pos ?_
  rw [popped_write, if_pos (ConfigRegs.ringOf_toNat idx), hvalue, hlow]
  rfl

/-- The packets behind the one that is popped wait. -/
theorem RxHolds.pop {first : ℕ} {slot : Slot} {waiting : List Slot} (h : RxHolds idx first (slot :: waiting) d)
    (hlow : popped d.regs idx = false) (hvalue : value.getLsbD bufferPoppedOffset = true) :
    RxHolds idx (first + 1) waiting (d.writeReg (ConfigRegs.bufferRxCtrl idx.toNat) value) := by
  have htracks := h.tracks
  rw [List.length_cons] at htracks
  refine ⟨?_, fun k stored hstored off hoff => ?_⟩
  · rw [rx_writeReg_pop hlow hvalue, Nat.add_right_comm, Nat.add_assoc]
    exact CircularBuffer.tracks_step (by decide) htracks nofun fun _ => Nat.lt_add_of_pos_right (Nat.succ_pos _)
  · rw [Nat.add_assoc, Nat.add_comm 1]
    exact h.stored (k + 1) stored hstored off hoff

/-- Nothing leaves the ring. -/
theorem RxFlow.passes (h : RxFlow idx d d') : RxPasses idx [] d d' where
  passes := fun first waiting hholds => by
    obtain ⟨first', waiting', arrivals, hholds', hpushed, hsub, hsame⟩ := h.flows first waiting hholds
    exact ⟨first', waiting', arrivals, [], hholds', hpushed, .nil, hsub, fun hover => (hsame hover).2⟩
  overruns := h.overruns

/-- First some slots leave the ring, then others. -/
theorem RxPasses.trans {d'' : SharedRings} {slots slots' : List Slot} (h : RxPasses idx slots d d')
    (h' : RxPasses idx slots' d' d'') : RxPasses idx (slots ++ slots') d d'' where
  passes := fun first waiting hholds => by
    obtain ⟨first₁, waiting₁, arrivals₁, out₁, hholds₁, hpushed₁, hout₁, hsub₁, hsame₁⟩ := h.passes first waiting hholds
    obtain ⟨first₂, waiting₂, arrivals₂, out₂, hholds₂, hpushed₂, hout₂, hsub₂, hsame₂⟩ := h'.passes first₁ waiting₁ hholds₁
    refine ⟨first₂, waiting₂, arrivals₁ ++ arrivals₂, out₁ ++ out₂, hholds₂, ?_, List.rel_append hout₁ hout₂, ?_,
      fun hover => ?_⟩
    · rw [hpushed₂, hpushed₁, List.append_assoc]
    · have hbefore := hsub₁.append_right arrivals₂
      rw [List.append_assoc, List.append_assoc] at hbefore
      rw [List.append_assoc]
      exact (hsub₂.append_left out₁).trans hbefore
    · have hle := h.overruns
      have hle' := h'.overruns
      rw [List.append_assoc, hsame₂ (by omega), ← List.append_assoc, hsame₁ (by omega), List.append_assoc]
  overruns := Nat.le_trans h.overruns h'.overruns

/-- The slot at the tail of a ring with packets has the first of them. -/
theorem RxHolds.rxSlot_agrees {first : ℕ} {slot : Slot} {waiting : List Slot} (h : RxHolds idx first (slot :: waiting) d) :
    (d.rxSlot idx (d.rx idx).ring.tailIndex).Agrees slot := by
  intro off hoff
  have hstored := h.stored 0 slot rfl off hoff
  rwa [Nat.add_zero, ← h.tracks.tail] at hstored

/-- A pop of a ring with packets: the slot at the tail leaves it. -/
theorem RxPasses.pop (hempty : (d.rx idx).ring.empty = false) (hlow : popped d.regs idx = false)
    (hvalue : value.getLsbD bufferPoppedOffset = true) :
    RxPasses idx [d.rxSlot idx (d.rx idx).ring.tailIndex] d (d.writeReg (ConfigRegs.bufferRxCtrl idx.toNat) value) where
  passes := fun first waiting hholds => by
    cases waiting with
    | nil =>
      rw [hholds.empty_eq] at hempty
      exact Bool.noConfusion hempty
    | cons slot rest =>
      refine ⟨first + 1, rest, [], [slot], hholds.pop hlow hvalue, ?_, .cons hholds.rxSlot_agrees .nil, ?_, fun _ => ?_⟩
      · rw [rx_writeReg_pop hlow hvalue, List.append_nil]
        rfl
      · rw [List.append_nil, List.singleton_append]
      · rw [List.append_nil, List.singleton_append]
  overruns := Nat.le_of_eq (by rw [rx_writeReg_pop hlow hvalue]; rfl)

/-- A sender does not notice a packet that is received. -/
theorem TxQuiet.receive (d : SharedRings) (other : BufferIdx) (slot : Slot) : TxQuiet d (d.move (.receive other slot)) := by
  refine .of_same (tx_receive _ _ _) (fun a ha => memory_receive (Or.inr ?_)) fun hlow => by rwa [regs_move]
  have hlast : RxRing.slotOffset other (d.rx other).ring.headIndex + (bufferElemMaxSize - 1) < _ :=
    slotOffset_lt_bufTxOffsetBytes ((d.rx other).counting.head_lt (by decide)) (by decide)
  simp only [bufferElemMaxSize] at hlast ⊢
  omega

/-- The bytes of a slot that waits to be transmitted. -/
theorem TxKept.slotBytes_txSlot (h : TxKept d) {k : ℕ} {slot : Slot} (hslot : d.tx.pushed[k]? = some slot)
    (hwaiting : d.tx.transmitted.length ≤ k) :
    TxRing.slotBytes (d.txSlot (k % bufferTxLength)) = TxRing.slotBytes slot :=
  List.map_congr_left fun off hoff => h.waiting k slot hslot hwaiting off (List.mem_range.mp hoff)

/-- A slot that is fetched from a filled ring is the next one that was pushed. -/
theorem TxKept.transmit (h : TxKept d) (hempty : d.tx.ring.empty = false) : TxKept (d.move .transmit) := by
  have hlt : d.tx.transmitted.length < d.tx.pushed.length := by
    rw [h.tracks.empty, decide_eq_false_iff_not] at hempty
    exact Nat.lt_of_le_of_ne h.tracks.pops_le (Ne.symm hempty)
  have htx : (d.move .transmit).tx = d.tx.pop (d.txSlot d.tx.ring.tailIndex) := rfl
  have hlength : (d.tx.pop (d.txSlot d.tx.ring.tailIndex)).transmitted.length = d.tx.transmitted.length + 1 :=
    List.length_append
  refine ⟨?_, fun k slot hslot hpops off hoff => ?_, ?_, ?_⟩
  · rw [htx, hlength]
    exact CircularBuffer.tracks_step (by decide) h.tracks nofun fun _ => hlt
  · rw [htx, hlength] at hpops
    exact h.waiting k slot hslot (Nat.le_of_succ_le hpops) off hoff
  · rw [htx, hlength, List.take_add_one, List.map_append]
    change d.tx.transmitted ++ [_] = (d.tx.pushed.take _).map _ ++ (d.tx.pushed[_]?.toList).map _
    rw [← h.transmitted, h.tracks.tail, List.getElem?_eq_getElem hlt,
      h.slotBytes_txSlot (List.getElem?_eq_getElem hlt) (Nat.le_refl _)]
    rfl
  · rw [htx]
    change (d.tx.misused || d.tx.ring.empty) = false
    rw [h.unmisused, hempty]
    rfl

/-- A sender does not notice a slot that is transmitted. -/
theorem TxQuiet.transmit (hempty : d.tx.ring.empty = false) : TxQuiet d (d.move .transmit) where
  kept := fun h => h.transmit hempty
  pushed := rfl
  transmitted := by
    change _ ≤ (d.tx.transmitted ++ [_]).length
    rw [List.length_append]
    exact Nat.le_add_right _ _
  memory := fun _ _ => rfl
  low := id

end Lemmas

end SharedRings

end UdpIpCore
