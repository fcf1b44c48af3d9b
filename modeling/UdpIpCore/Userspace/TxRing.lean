import UdpIpCore.Rtl.AxiDmaRd
import UdpIpCore.Rtl.CircularBuffer
import UdpIpCore.Rtl.DmaReadControl
import UdpIpCore.Rtl.PulseOnPosedge
import UdpIpCore.Userspace.Udriver

/-!
# The TX ring

The read side of the TX path: the ring, the read DMA control with its lock, and the read
DMA, which fetches one slot for each descriptor it accepts and pops it with the last beat
of the burst. At most one slot is under way; the slot that is fetched is the one at the
tail, and it is fetched as it was pushed.
-/

namespace UdpIpCore

/-- The TX ring with the register file in front of it and the read DMA behind it. -/
structure TxRing where
  regs : ConfigRegs
  axi : AxiLite
  pushPulse : PulseOnPosedge
  ring : CircularBuffer bufferTxLength
  memory : ℕ → BitVec 8
  sharedMemBase : BitVec 32
  ctrl : DmaReadControl
  dma : AxiDmaRd
  /-- The slots pushed so far, as they were at their push. -/
  pushed : List Slot
  /-- The addresses of the descriptors accepted so far. -/
  accepted : List (BitVec 32)
  /-- The bytes of the current burst so far. -/
  current : List (BitVec 8)
  /-- The bytes of the bursts that have ended. -/
  fetched : List (List (BitVec 8))
  /-- The PS has written into a slot that was pushed and not fetched yet. -/
  rewritten : Bool

/-- One cycle of the memory behind the read DMA and of the rest of the device. -/
structure TxRingInput where
  dma : AxiDmaRdInput
  /-- What a read shows of the other registers. -/
  status : StatusInputs

namespace TxRing

/-- After reset, with a page-aligned DMA area. -/
def start (page : BitVec 21) : TxRing where
  regs := .reset
  axi := .reset
  pushPulse := .reset
  ring := .reset bufferTxLength
  memory := fun _ => 0
  sharedMemBase := page ++ (0 : BitVec 11)
  ctrl := .reset
  dma := .reset
  pushed := []
  accepted := []
  current := []
  fetched := []
  rewritten := false

/-- The address of a slot of the ring in the shared memory. -/
def slotOffset (index : ℕ) : ℕ := Udriver.bufTxOffsetBytes + index * bufferElemMaxSize

/-- What a read shows. -/
def status (s : TxRing) (j : TxRingInput) : StatusInputs :=
  { j.status with
    buftxHead := BitVec.ofNat 5 s.ring.headIndex
    buftxTail := BitVec.ofNat 5 s.ring.tailIndex
    buftxEmpty := s.ring.empty
    buftxFull := s.ring.full
    buftxPopped := s.dma.rlastHs j.dma }

/-- The slot at the head. -/
def headSlot (s : TxRing) : Slot := fun k => s.memory (slotOffset s.ring.headIndex + k)

/-- The 8 bytes of a beat of the current burst. -/
def beatBytes (s : TxRing) : List (BitVec 8) :=
  (List.range 8).map fun k =>
    s.memory ((s.dma.bursts.headD 0 - s.sharedMemBase).toNat + 8 * s.dma.beats + k)

/-- The address lies in a slot that was pushed and not fetched yet. -/
def Unread (s : TxRing) (a : ℕ) : Prop :=
  ∃ k < s.pushed.length, s.fetched.length ≤ k ∧ slotOffset (k % bufferTxLength) ≤ a ∧
    a < slotOffset (k % bufferTxLength) + bufferElemMaxSize

instance (s : TxRing) (a : ℕ) : Decidable (s.Unread a) := inferInstanceAs (Decidable (∃ k < _, _))

/-- One clock edge. -/
def step (s : TxRing) (g : PsSignals) (j : TxRingInput) : TxRing where
  regs := s.regs.clock s.axi g.toAxiLiteMaster
  axi := s.axi.step g.toAxiLiteMaster (s.regs.read (s.status j))
  pushPulse := s.pushPulse.step s.regs.buftxPushed
  ring := s.ring.step s.pushPulse.pulse (s.dma.rlastHs j.dma)
  memory :=
    match g.store with
    | some (offset, b) => fun a => if a = offset then b else s.memory a
    | none => s.memory
  sharedMemBase := s.sharedMemBase
  ctrl := s.ctrl.step s.dma.readDescReady j.dma.tlastHs s.ring.empty s.sharedMemBase s.ring.tailIndex
  dma := s.dma.step s.ctrl.valid s.ctrl.nextSlotAddr j.dma
  pushed := if s.pushPulse.pulse then s.pushed ++ [s.headSlot] else s.pushed
  accepted := if s.dma.accepts s.ctrl.valid then s.accepted ++ [s.ctrl.nextSlotAddr] else s.accepted
  current :=
    if s.dma.rlastHs j.dma then [] else if j.dma.beat then s.current ++ s.beatBytes else s.current
  fetched := if s.dma.rlastHs j.dma then s.fetched ++ [s.current ++ s.beatBytes] else s.fetched
  rewritten :=
    match g.store with
    | some (offset, _) => s.rewritten || s.Unread offset
    | none => s.rewritten

/-- The ring as the PS sees it. -/
def device : Device TxRing TxRingInput where
  step := step
  legal := fun s j => s.dma.Legal j.dma
  axi := axi
  readValue := fun s j => s.regs.read (s.status j)
  load := memory
  axi_step := fun _ _ _ => rfl

/-- The address of the slot that is fetched next. -/
def nextAddr (s : TxRing) : BitVec 32 :=
  DmaReadControl.slotAddr s.sharedMemBase (s.fetched.length % bufferTxLength)

/-- No transfer is under way in the read DMA. -/
structure NoTransfer (s : TxRing) : Prop where
  axiStart : s.dma.axiStart = false
  arvalid : s.dma.arvalid = false
  axisCmdValid : s.dma.axisCmdValid = false
  axisRead : s.dma.axisRead = false
  beats : s.dma.beats = 0
  bursts : s.dma.bursts = []
  current : s.current = []

/-- The phases of a transfer: what the lock, the valid flag and the read DMA can be doing, with the
number of accepted descriptors that goes with it. -/
inductive Transfer (s : TxRing) : Prop
  | idle (hcount : s.accepted.length = s.fetched.length) (hlocked : s.ctrl.locked = false)
      (hvalid : s.ctrl.valid = true → s.fetched.length < s.pushed.length ∧ s.ctrl.nextSlotAddr = s.nextAddr)
      (hdma : s.NoTransfer) (hstreams : s.dma.streams = [])
  | accepted (hcount : s.accepted.length = s.fetched.length + 1) (hlt : s.fetched.length < s.pushed.length)
      (hlocked : s.ctrl.locked = true) (hready : s.dma.readDescReady = false)
      (hstart : s.dma.axiStart = true) (haddr : s.dma.addr = s.nextAddr) (harvalid : s.dma.arvalid = false)
      (hcmd : s.dma.axisCmdValid = true) (hread : s.dma.axisRead = false) (hbeats : s.dma.beats = 0)
      (hbursts : s.dma.bursts = []) (hcurrent : s.current = []) (hstreams : s.dma.streams = [])
  | requested (hcount : s.accepted.length = s.fetched.length + 1) (hlt : s.fetched.length < s.pushed.length)
      (hlocked : s.ctrl.locked = true) (hvalid : s.ctrl.valid = false) (hstart : s.dma.axiStart = false)
      (haddr : s.dma.arvalid = true ∧ s.dma.araddr = s.nextAddr ∧ s.dma.bursts = [] ∨
        s.dma.arvalid = false ∧ s.dma.bursts = [s.nextAddr])
      (hcmd : s.dma.axisCmdValid = false) (hread : s.dma.axisRead = true)
      (hbeats : s.dma.beats < AxiDmaRd.burstBeats)
      (hcurrent : s.current = (List.range (8 * s.dma.beats)).map s.pushed[s.fetched.length])
      (hstreams : s.dma.streams = [])
  | draining (hcount : s.accepted.length = s.fetched.length) (hlocked : s.ctrl.locked = true)
      (hvalid : s.ctrl.valid = false) (hdma : s.NoTransfer) (hstreams : ∃ age, s.dma.streams = [age])

/-- The bytes of a slot. -/
def slotBytes (slot : Slot) : List (BitVec 8) := (List.range bufferElemMaxSize).map slot

/-- What holds at every point: the ring counts its pushes and pops, its unread slots hold what was
pushed into them, and the slots fetched so far are the ones pushed first. -/
structure Stored (s : TxRing) : Prop where
  tracks : s.ring.Tracks s.pushed.length s.fetched.length
  aligned : s.sharedMemBase.toNat % bufferElemMaxSize = 0
  unread : ∀ k (hk : k < s.pushed.length), s.fetched.length ≤ k → ∀ off < bufferElemMaxSize,
    s.memory (slotOffset (k % bufferTxLength) + off) = s.pushed[k] off
  fetched : s.fetched = (s.pushed.take s.fetched.length).map slotBytes
  accepted : s.accepted = (List.range s.accepted.length).map fun k =>
    DmaReadControl.slotAddr s.sharedMemBase (k % bufferTxLength)
  transfer : s.Transfer
  rewritten : s.rewritten = false

variable {s : TxRing} {g : PsSignals} {j : TxRingInput}

/-- The address the device computes for a slot. -/
theorem slotAddr_eq (base : BitVec 32) (index : ℕ) :
    DmaReadControl.slotAddr base index = base + BitVec.ofNat 32 (slotOffset index) := by
  rw [DmaReadControl.slotAddr, BitVec.add_assoc, ← BitVec.ofNat_mul, ← BitVec.ofNat_add]
  rfl

/-- The device looks for a slot where the driver puts it. -/
theorem toNat_slotAddr_sub (base : BitVec 32) {index : ℕ} (hindex : index < bufferTxLength) :
    (DmaReadControl.slotAddr base index - base).toNat = slotOffset index := by
  have hoffset : slotOffset index = 67108864 + index * 2048 := rfl
  simp only [bufferTxLength] at hindex
  rw [slotAddr_eq, BitVec.add_comm, BitVec.add_sub_cancel, BitVec.toNat_ofNat, hoffset,
    Nat.mod_eq_of_lt (by omega)]

/-- The slots are aligned, so the read DMA takes their addresses as they are. -/
theorem slotAddr_aligned {base : BitVec 32} (haligned : base.toNat % bufferElemMaxSize = 0) (index : ℕ) :
    DmaReadControl.slotAddr base index >>> 3 <<< 3 = DmaReadControl.slotAddr base index := by
  have hoffset : slotOffset index = 67108864 + index * 2048 := rfl
  have hmod : (DmaReadControl.slotAddr base index).toNat % 8 = 0 := by
    simp only [bufferElemMaxSize] at haligned
    rw [slotAddr_eq, hoffset, BitVec.toNat_add, BitVec.toNat_ofNat]
    omega
  have hlt := (DmaReadControl.slotAddr base index).isLt
  apply BitVec.eq_of_toNat_eq
  rw [BitVec.toNat_shiftLeft, BitVec.toNat_ushiftRight, Nat.shiftLeft_eq, Nat.shiftRight_eq_div_pow]
  omega

/-- A beat brings the next 8 bytes of the slot at the tail. -/
theorem Stored.beatBytes (h : s.Stored) (hlt : s.fetched.length < s.pushed.length)
    (hbursts : s.dma.bursts = [s.nextAddr]) (hbeats : s.dma.beats < AxiDmaRd.burstBeats) :
    s.beatBytes = (List.range 8).map fun k => s.pushed[s.fetched.length] (8 * s.dma.beats + k) := by
  rw [TxRing.beatBytes, hbursts]
  apply List.map_congr_left
  intro k hk
  have hk8 := List.mem_range.mp hk
  have hoff := toNat_slotAddr_sub s.sharedMemBase (Nat.mod_lt s.fetched.length (by decide : 0 < bufferTxLength))
  rw [List.headD_cons, nextAddr, hoff, Nat.add_assoc]
  refine h.unread _ hlt (Nat.le_refl _) _ ?_
  simp only [AxiDmaRd.burstBeats] at hbeats
  simp only [bufferElemMaxSize]
  omega

/-- Consecutive pieces of a slot. -/
theorem map_range_append (slot : Slot) (m n : ℕ) :
    (List.range m).map slot ++ (List.range n).map (fun k => slot (m + k)) = (List.range (m + n)).map slot := by
  rw [List.range_add, List.map_append, List.map_map]
  rfl

/-- Without a beat the counts of fetched slots stay. -/
theorem rlastHs_of_noBeat (hbeat : j.dma.beat = false) : s.dma.rlastHs j.dma = false := by
  rw [AxiDmaRd.rlastHs, hbeat, Bool.false_and]

/-- Without a transfer no data arrive. -/
theorem NoTransfer.noBeat (h : s.NoTransfer) (hj : s.dma.Legal j.dma) : j.dma.beat = false := by
  rw [Bool.eq_false_iff]
  intro hbeat
  exact (hj.beat hbeat).2 h.bursts

/-- Pushing keeps what was pushed. -/
theorem pushed_isPrefix : s.pushed <+: (s.step g j).pushed := by
  cases hpush : s.pushPulse.pulse <;> simp [TxRing.step, hpush]

/-- A slot that was pushed stays where it is in the list. -/
theorem pushed_getElem {k : ℕ} (hk : k < s.pushed.length) (hk' : k < (s.step g j).pushed.length) :
    (s.step g j).pushed[k] = s.pushed[k] :=
  (pushed_isPrefix.getElem hk).symm

/-- One step while no transfer is under way and no stream has to end: the next descriptor may be
accepted. -/
theorem Stored.step_idle (h : s.Stored) (hj : s.dma.Legal j.dma)
    (hcount : s.accepted.length = s.fetched.length) (hlocked : s.ctrl.locked = false)
    (hvalid : s.ctrl.valid = true → s.fetched.length < s.pushed.length ∧ s.ctrl.nextSlotAddr = s.nextAddr)
    (hdma : s.NoTransfer) (hstreams : s.dma.streams = []) : (s.step g j).Transfer := by
  have hlength : s.pushed.length ≤ (s.step g j).pushed.length := pushed_isPrefix.length_le
  have hbeat := hdma.noBeat hj
  have hlast : s.dma.rlastHs j.dma = false := rlastHs_of_noBeat hbeat
  have hfetched : (s.step g j).fetched = s.fetched := by simp [TxRing.step, hlast]
  have hnext : (s.step g j).nextAddr = s.nextAddr := by rw [nextAddr, hfetched]; rfl
  have htlast : j.dma.tlastHs = false := by
    rw [Bool.eq_false_iff]
    intro htlast
    obtain ⟨age, rest, hage, -⟩ := hj.tlastHs htlast
    simp [hstreams] at hage
  cases haccepts : s.dma.accepts s.ctrl.valid with
  | true =>
    simp only [AxiDmaRd.accepts, hdma.axiStart, Bool.not_false, Bool.true_and, Bool.and_eq_true] at haccepts
    obtain ⟨hready, hctrl⟩ := haccepts
    obtain ⟨hlt, haddr⟩ := hvalid hctrl
    have haccepts : s.dma.accepts s.ctrl.valid = true := by
      simp [AxiDmaRd.accepts, hdma.axiStart, hready, hctrl]
    refine .accepted ?_ (by rw [hfetched]; omega) ?_ ?_ ?_ ?_ ?_ ?_ ?_ ?_ ?_ ?_ ?_
    · simp [TxRing.step, haccepts, hlast, hcount]
    · simp [TxRing.step, DmaReadControl.step, htlast, hctrl, hready]
    · simp [TxRing.step, AxiDmaRd.step, hdma.axiStart, haccepts]
    · simp [TxRing.step, AxiDmaRd.step, hdma.axiStart, haccepts]
    · rw [hnext]
      simp only [TxRing.step, AxiDmaRd.step, haccepts, if_true, haddr]
      exact slotAddr_aligned h.aligned _
    · simp [TxRing.step, AxiDmaRd.step, hdma.axiStart, hdma.arvalid]
    · simp [TxRing.step, AxiDmaRd.step, haccepts]
    · simp [TxRing.step, AxiDmaRd.step, hdma.axisRead, hdma.axisCmdValid]
    · simp [TxRing.step, AxiDmaRd.step, hlast, hbeat, hdma.beats]
    · simp [TxRing.step, AxiDmaRd.step, hlast, hdma.bursts, hdma.arvalid]
    · simp [TxRing.step, hlast, hbeat, hdma.current]
    · simp [TxRing.step, AxiDmaRd.step, hlast, htlast, hstreams]
  | false =>
    have hctrl : (s.ctrl.valid && s.dma.readDescReady) = false := by
      simpa [AxiDmaRd.accepts, hdma.axiStart, Bool.and_comm] using haccepts
    refine .idle ?_ ?_ (fun hvalid' => ?_) ⟨?_, ?_, ?_, ?_, ?_, ?_, ?_⟩ ?_
    · simp [TxRing.step, haccepts, hlast, hcount]
    · simp [TxRing.step, DmaReadControl.step, htlast, hctrl, hlocked]
    · rw [hfetched, hnext]
      have htail : (s.step g j).ctrl.nextSlotAddr = s.nextAddr := by
        simp only [TxRing.step, DmaReadControl.step, nextAddr, h.tracks.tail]
      refine ⟨?_, htail⟩
      simp only [TxRing.step, DmaReadControl.step, hlocked] at hvalid'
      cases hempty : s.ring.empty with
      | true =>
        have hvalid'' : s.ctrl.valid = true := by simpa [hempty] using hvalid'
        exact Nat.lt_of_lt_of_le (hvalid hvalid'').1 hlength
      | false =>
        have hne : s.pushed.length ≠ s.fetched.length := by
          simpa [h.tracks.empty] using hempty
        have hle := h.tracks.pops_le
        omega
    · simp [TxRing.step, AxiDmaRd.step, hdma.axiStart, haccepts]
    · simp [TxRing.step, AxiDmaRd.step, hdma.axiStart, hdma.arvalid]
    · simp [TxRing.step, AxiDmaRd.step, haccepts, hdma.axisCmdValid]
    · simp [TxRing.step, AxiDmaRd.step, hdma.axisRead, hdma.axisCmdValid]
    · simp [TxRing.step, AxiDmaRd.step, hlast, hbeat, hdma.beats]
    · simp [TxRing.step, AxiDmaRd.step, hlast, hdma.bursts, hdma.arvalid]
    · simp [TxRing.step, hlast, hbeat, hdma.current]
    · simp [TxRing.step, AxiDmaRd.step, hlast, htlast, hstreams]

/-- Without a stream to end no stream ends. -/
theorem noTlast (hj : s.dma.Legal j.dma) (hstreams : s.dma.streams = []) : j.dma.tlastHs = false := by
  rw [Bool.eq_false_iff]
  intro htlast
  obtain ⟨age, rest, hage, -⟩ := hj.tlastHs htlast
  simp [hstreams] at hage

/-- The cycle after an acceptance: the valid flag is still high, but the read DMA is not ready. -/
theorem step_accepted (hj : s.dma.Legal j.dma) (hcount : s.accepted.length = s.fetched.length + 1)
    (hlt : s.fetched.length < s.pushed.length) (hlocked : s.ctrl.locked = true)
    (hready : s.dma.readDescReady = false) (hstart : s.dma.axiStart = true)
    (haddr : s.dma.addr = s.nextAddr) (harvalid : s.dma.arvalid = false)
    (hcmd : s.dma.axisCmdValid = true) (hread : s.dma.axisRead = false) (hbeats : s.dma.beats = 0)
    (hbursts : s.dma.bursts = []) (hcurrent : s.current = []) (hstreams : s.dma.streams = []) :
    (s.step g j).Transfer := by
  have hlength : s.pushed.length ≤ (s.step g j).pushed.length := pushed_isPrefix.length_le
  have hbeat : j.dma.beat = false := by
    rw [Bool.eq_false_iff]
    exact fun hbeat => (hj.beat hbeat).2 hbursts
  have hlast : s.dma.rlastHs j.dma = false := rlastHs_of_noBeat hbeat
  have htlast := noTlast hj hstreams
  have haccepts : s.dma.accepts s.ctrl.valid = false := by simp [AxiDmaRd.accepts, hstart]
  have hfetched : (s.step g j).fetched = s.fetched := by simp [TxRing.step, hlast]
  have hnext : (s.step g j).nextAddr = s.nextAddr := by rw [nextAddr, hfetched]; rfl
  have hnobeats : (s.step g j).dma.beats = 0 := by simp [TxRing.step, AxiDmaRd.step, hlast, hbeat, hbeats]
  refine .requested ?_ (by rw [hfetched]; omega) ?_ ?_ ?_ (Or.inl ⟨?_, ?_, ?_⟩) ?_ ?_ ?_ ?_ ?_
  · simp [TxRing.step, haccepts, hlast, hcount]
  · simp [TxRing.step, DmaReadControl.step, htlast, hready, hlocked]
  · simp [TxRing.step, DmaReadControl.step, hlocked]
  · simp [TxRing.step, AxiDmaRd.step, hstart, harvalid]
  · simp [TxRing.step, AxiDmaRd.step, hstart, harvalid]
  · rw [hnext]
    simp [TxRing.step, AxiDmaRd.step, hstart, harvalid, haddr]
  · simp [TxRing.step, AxiDmaRd.step, hlast, hbursts, harvalid]
  · simp [TxRing.step, AxiDmaRd.step, haccepts, hread]
  · simp [TxRing.step, AxiDmaRd.step, hread, hcmd]
  · rw [hnobeats]
    decide
  · rw [hnobeats]
    simp [TxRing.step, hlast, hbeat, hcurrent]
  · simp [TxRing.step, AxiDmaRd.step, hlast, htlast, hstreams]

/-- One step while a burst is requested or its data arrive. -/
theorem Stored.step_requested (h : s.Stored) (hj : s.dma.Legal j.dma)
    (hcount : s.accepted.length = s.fetched.length + 1) (hlt : s.fetched.length < s.pushed.length)
    (hlocked : s.ctrl.locked = true) (hvalid : s.ctrl.valid = false) (hstart : s.dma.axiStart = false)
    (haddr : s.dma.arvalid = true ∧ s.dma.araddr = s.nextAddr ∧ s.dma.bursts = [] ∨
      s.dma.arvalid = false ∧ s.dma.bursts = [s.nextAddr])
    (hcmd : s.dma.axisCmdValid = false) (hread : s.dma.axisRead = true)
    (hbeats : s.dma.beats < AxiDmaRd.burstBeats)
    (hcurrent : s.current = (List.range (8 * s.dma.beats)).map s.pushed[s.fetched.length])
    (hstreams : s.dma.streams = []) : (s.step g j).Transfer := by
  have hlength : s.pushed.length ≤ (s.step g j).pushed.length := pushed_isPrefix.length_le
  have htlast := noTlast hj hstreams
  have haccepts : s.dma.accepts s.ctrl.valid = false := by simp [AxiDmaRd.accepts, hvalid]
  have hkeep : (s.step g j).ctrl.locked = true ∧ (s.step g j).ctrl.valid = false := by
    simp [TxRing.step, DmaReadControl.step, htlast, hvalid, hlocked]
  have hidle : (s.step g j).dma.axiStart = false ∧ (s.step g j).dma.axisCmdValid = false := by
    simp [TxRing.step, AxiDmaRd.step, hstart, haccepts, hcmd]
  cases hbeat : j.dma.beat with
  | false =>
    have hlast : s.dma.rlastHs j.dma = false := rlastHs_of_noBeat hbeat
    have hfetched : (s.step g j).fetched = s.fetched := by simp [TxRing.step, hlast]
    have hnext : (s.step g j).nextAddr = s.nextAddr := by rw [nextAddr, hfetched]; rfl
    have hsame : (s.step g j).dma.beats = s.dma.beats := by
      simp [TxRing.step, AxiDmaRd.step, hlast, hbeat]
    have hlt' : (s.step g j).fetched.length < (s.step g j).pushed.length := by rw [hfetched]; omega
    refine .requested ?_ hlt' hkeep.1 hkeep.2 hidle.1 ?_ hidle.2 ?_ (by rw [hsame]; exact hbeats) ?_ ?_
    · simp [TxRing.step, haccepts, hlast, hcount]
    · rw [hnext]
      rcases haddr with ⟨harvalid, haraddr, hbursts⟩ | ⟨harvalid, hbursts⟩
      · cases harready : j.dma.arready with
        | false => exact Or.inl (by simp [TxRing.step, AxiDmaRd.step, hstart, hlast, harvalid, haraddr, hbursts, harready])
        | true => exact Or.inr (by simp [TxRing.step, AxiDmaRd.step, hstart, hlast, harvalid, haraddr, hbursts, harready])
      · exact Or.inr (by simp [TxRing.step, AxiDmaRd.step, hstart, hlast, harvalid, hbursts])
    · simp [TxRing.step, AxiDmaRd.step, hread, hlast]
    · have hget := pushed_getElem (g := g) (j := j) hlt (by rw [hfetched] at hlt'; exact hlt')
      have hcur : (s.step g j).current = s.current := by simp [TxRing.step, hlast, hbeat]
      rw [hcur, hsame, hcurrent]
      simp only [hfetched, hget]
    · simp [TxRing.step, AxiDmaRd.step, hlast, htlast, hstreams]
  | true =>
    have hbursts : s.dma.arvalid = false ∧ s.dma.bursts = [s.nextAddr] :=
      haddr.resolve_left fun h => (hj.beat hbeat).2 h.2.2
    have hbytes := h.beatBytes hlt hbursts.2 hbeats
    cases hlast : s.dma.rlastHs j.dma with
    | true =>
      refine .draining ?_ hkeep.1 hkeep.2 ⟨hidle.1, ?_, hidle.2, ?_, ?_, ?_, ?_⟩ ⟨1, ?_⟩
      · simp [TxRing.step, haccepts, hlast, hcount]
      · simp [TxRing.step, AxiDmaRd.step, hstart, hbursts]
      · simp [TxRing.step, AxiDmaRd.step, hread, hlast]
      · simp [TxRing.step, AxiDmaRd.step, hlast]
      · simp [TxRing.step, AxiDmaRd.step, hlast, hbursts]
      · simp [TxRing.step, hlast]
      · simp [TxRing.step, AxiDmaRd.step, hlast, htlast, hstreams]
    | false =>
      have hfetched : (s.step g j).fetched = s.fetched := by simp [TxRing.step, hlast]
      have hnext : (s.step g j).nextAddr = s.nextAddr := by rw [nextAddr, hfetched]; rfl
      have hmore : (s.step g j).dma.beats = s.dma.beats + 1 := by
        simp [TxRing.step, AxiDmaRd.step, hlast, hbeat]
      have hnotlast : s.dma.beats + 1 ≠ AxiDmaRd.burstBeats := by
        simpa [AxiDmaRd.rlastHs, hbeat] using hlast
      have hlt' : (s.step g j).fetched.length < (s.step g j).pushed.length := by rw [hfetched]; omega
      refine .requested ?_ hlt' hkeep.1 hkeep.2 hidle.1 (Or.inr ⟨?_, ?_⟩) hidle.2 ?_ (by omega) ?_ ?_
      · simp [TxRing.step, haccepts, hlast, hcount]
      · simp [TxRing.step, AxiDmaRd.step, hstart, hbursts]
      · rw [hnext]
        simp [TxRing.step, AxiDmaRd.step, hlast, hbursts]
      · simp [TxRing.step, AxiDmaRd.step, hread, hlast]
      · have hget := pushed_getElem (g := g) (j := j) hlt (by rw [hfetched] at hlt'; exact hlt')
        have hcur : (s.step g j).current = s.current ++ s.beatBytes := by simp [TxRing.step, hlast, hbeat]
        rw [hcur, hmore, hcurrent, hbytes, map_range_append, Nat.mul_add, Nat.mul_one]
        simp only [hfetched, hget]
      · simp [TxRing.step, AxiDmaRd.step, hlast, htlast, hstreams]

/-- One step while the stream of a fetched slot has to end: the lock holds until it does. -/
theorem step_draining (hj : s.dma.Legal j.dma) (hcount : s.accepted.length = s.fetched.length)
    (hlocked : s.ctrl.locked = true) (hvalid : s.ctrl.valid = false) (hdma : s.NoTransfer)
    (hstreams : ∃ age, s.dma.streams = [age]) : (s.step g j).Transfer := by
  obtain ⟨age, hstreams⟩ := hstreams
  have hbeat := hdma.noBeat hj
  have hlast : s.dma.rlastHs j.dma = false := rlastHs_of_noBeat hbeat
  have haccepts : s.dma.accepts s.ctrl.valid = false := by simp [AxiDmaRd.accepts, hvalid]
  have hcount' : (s.step g j).accepted.length = (s.step g j).fetched.length := by
    simp [TxRing.step, haccepts, hlast, hcount]
  have hvalid' : (s.step g j).ctrl.valid = false := by simp [TxRing.step, DmaReadControl.step, hlocked]
  have hdma' : (s.step g j).NoTransfer := by
    refine ⟨?_, ?_, ?_, ?_, ?_, ?_, ?_⟩ <;>
      simp [TxRing.step, AxiDmaRd.step, haccepts, hlast, hbeat, hdma.axiStart, hdma.arvalid,
        hdma.axisCmdValid, hdma.axisRead, hdma.beats, hdma.bursts, hdma.current]
  cases htlast : j.dma.tlastHs with
  | true =>
    refine .idle hcount' ?_ (fun h => by simp [hvalid'] at h) hdma' ?_
    · simp [TxRing.step, DmaReadControl.step, htlast]
    · simp [TxRing.step, AxiDmaRd.step, hlast, htlast, hstreams]
  | false =>
    refine .draining hcount' ?_ hvalid' hdma' ⟨age + 1, ?_⟩
    · simp [TxRing.step, DmaReadControl.step, htlast, hvalid, hlocked]
    · simp [TxRing.step, AxiDmaRd.step, hlast, htlast, hstreams]

/-- One step of the transfer in progress. -/
theorem Stored.step_transfer (h : s.Stored) (hj : s.dma.Legal j.dma) : (s.step g j).Transfer := by
  cases h.transfer with
  | idle hcount hlocked hvalid hdma hstreams => exact h.step_idle hj hcount hlocked hvalid hdma hstreams
  | accepted hcount hlt hlocked hready hstart haddr harvalid hcmd hread hbeats hbursts hcurrent hstreams =>
    exact step_accepted hj hcount hlt hlocked hready hstart haddr harvalid hcmd hread hbeats hbursts
      hcurrent hstreams
  | requested hcount hlt hlocked hvalid hstart haddr hcmd hread hbeats hcurrent hstreams =>
    exact h.step_requested hj hcount hlt hlocked hvalid hstart haddr hcmd hread hbeats hcurrent hstreams
  | draining hcount hlocked hvalid hdma hstreams => exact step_draining hj hcount hlocked hvalid hdma hstreams

/-- A burst ends with the bytes of the slot at the tail. -/
theorem Stored.fetched_of_rlast (h : s.Stored) (hj : s.dma.Legal j.dma) (hlast : s.dma.rlastHs j.dma = true) :
    ∃ hlt : s.fetched.length < s.pushed.length,
      s.current ++ s.beatBytes = slotBytes s.pushed[s.fetched.length] := by
  have hbeat : j.dma.beat = true ∧ s.dma.beats + 1 = AxiDmaRd.burstBeats := by
    simpa [AxiDmaRd.rlastHs] using hlast
  obtain ⟨hread', hbursts'⟩ := hj.beat hbeat.1
  cases h.transfer with
  | idle _ _ _ hdma _ => exact absurd hdma.bursts hbursts'
  | accepted _ _ _ _ _ _ _ _ _ _ hbursts _ _ => exact absurd hbursts hbursts'
  | draining _ _ _ hdma _ => exact absurd hdma.bursts hbursts'
  | requested hcount hlt hlocked hvalid hstart haddr hcmd hread hbeats hcurrent hstreams =>
    have hbursts := haddr.resolve_left fun h => hbursts' h.2.2
    refine ⟨hlt, ?_⟩
    rw [h.beatBytes hlt hbursts.2 hbeats, hcurrent, map_range_append, slotBytes]
    congr 2
    have hlastBeat := hbeat.2
    simp only [AxiDmaRd.burstBeats] at hlastBeat
    simp only [bufferElemMaxSize]
    omega

/-- A descriptor is accepted for the slot at the tail, and only when the slots of all earlier ones have
been fetched. -/
theorem Stored.addr_of_accepts (h : s.Stored) (haccepts : s.dma.accepts s.ctrl.valid = true) :
    s.ctrl.nextSlotAddr = DmaReadControl.slotAddr s.sharedMemBase (s.accepted.length % bufferTxLength) := by
  simp only [AxiDmaRd.accepts, Bool.and_eq_true, Bool.not_eq_true'] at haccepts
  obtain ⟨⟨hstart', hready'⟩, hvalid'⟩ := haccepts
  cases h.transfer with
  | idle hcount _ hvalid _ _ => rw [(hvalid hvalid').2, nextAddr, hcount]
  | accepted _ _ _ hready _ _ _ _ _ _ _ _ _ => simp [hready] at hready'
  | requested _ _ _ hvalid _ _ _ _ _ _ _ => simp [hvalid] at hvalid'
  | draining _ _ hvalid _ _ => simp [hvalid] at hvalid'

/-- The slots pushed and not fetched keep their bytes in a cycle that writes to none of them. -/
theorem Stored.step_unread (h : s.Stored)
    (hstore : ∀ off b, g.store = some (off, b) → ¬ s.Unread off ∧ s.pushPulse.pulse = false) :
    ∀ k (hk : k < (s.step g j).pushed.length), s.fetched.length ≤ k → ∀ off < bufferElemMaxSize,
      (s.step g j).memory (slotOffset (k % bufferTxLength) + off) = (s.step g j).pushed[k] off := by
  intro k hk hle off hoff
  by_cases hold : k < s.pushed.length
  · rw [pushed_getElem hold hk, ← h.unread k hold hle off hoff]
    cases hwrite : g.store with
    | none => simp [TxRing.step, hwrite]
    | some w =>
      obtain ⟨a, b⟩ := w
      have hne : slotOffset (k % bufferTxLength) + off ≠ a := by
        rintro rfl
        exact (hstore _ b hwrite).1 ⟨k, hold, hle, Nat.le_add_right _ _, Nat.add_lt_add_left hoff _⟩
      simp [TxRing.step, hwrite, hne]
  · cases hpush : s.pushPulse.pulse with
    | false => exact absurd (by simpa [TxRing.step, hpush] using hk) hold
    | true =>
      have hlast : k = s.pushed.length := by
        have hk' : k < s.pushed.length + 1 := by simpa [TxRing.step, hpush] using hk
        omega
      have hnone : g.store = none := by
        cases hwrite : g.store with
        | none => rfl
        | some w => simp [hpush] at hstore; exact absurd hwrite (hstore w.1 w.2)
      subst hlast
      have happend : (s.step g j).pushed = s.pushed ++ [s.headSlot] := by simp [TxRing.step, hpush]
      have hmemory : (s.step g j).memory = s.memory := by simp [TxRing.step, hnone]
      rw [List.getElem_of_eq happend hk, List.getElem_concat_length rfl, hmemory, headSlot, h.tracks.head]

/-- One cycle keeps the ring a queue: a push finds room, and the PS does not write into a slot that was
pushed and not fetched. -/
theorem Stored.step (h : s.Stored) (hj : s.dma.Legal j.dma)
    (hroom : s.pushPulse.pulse = true → s.pushed.length < s.fetched.length + bufferTxLength)
    (hstore : ∀ off b, g.store = some (off, b) → ¬ s.Unread off ∧ s.pushPulse.pulse = false) :
    (s.step g j).Stored := by
  have hpushed : (s.step g j).pushed.length = s.pushed.length + s.pushPulse.pulse.toNat := by
    cases hpush : s.pushPulse.pulse <;> simp [TxRing.step, hpush]
  have hfetched : (s.step g j).fetched.length = s.fetched.length + (s.dma.rlastHs j.dma).toNat := by
    cases hlast : s.dma.rlastHs j.dma <;> simp [TxRing.step, hlast]
  refine ⟨?_, h.aligned, fun k hk hle => h.step_unread hstore k hk (by omega), ?_, ?_, h.step_transfer hj, ?_⟩
  · rw [hpushed, hfetched]
    exact CircularBuffer.tracks_step (by decide) h.tracks (fun hpush => Or.inr (hroom hpush))
      fun hlast => (h.fetched_of_rlast hj hlast).1
  · obtain ⟨rest, hrest⟩ : s.pushed <+: (s.step g j).pushed := pushed_isPrefix
    cases hlast : s.dma.rlastHs j.dma with
    | false =>
      have hsame : (s.step g j).fetched = s.fetched := by simp [TxRing.step, hlast]
      rw [hsame, ← hrest, List.take_append_of_le_length h.tracks.pops_le]
      exact h.fetched
    | true =>
      obtain ⟨hlt, hbytes⟩ := h.fetched_of_rlast hj hlast
      have hmore : (s.step g j).fetched = s.fetched ++ [slotBytes s.pushed[s.fetched.length]] := by
        simp [TxRing.step, hlast, hbytes]
      rw [hmore, List.length_append, List.length_singleton, ← hrest, List.take_append_of_le_length hlt,
        List.take_add_one, List.getElem?_eq_getElem hlt, List.map_append, ← h.fetched]
      rfl
  · cases haccepts : s.dma.accepts s.ctrl.valid with
    | false =>
      have hsame : (s.step g j).accepted = s.accepted := by simp [TxRing.step, haccepts]
      rw [hsame]
      exact h.accepted
    | true =>
      have hmore : (s.step g j).accepted = s.accepted ++ [s.ctrl.nextSlotAddr] := by
        simp [TxRing.step, haccepts]
      rw [hmore, List.length_append, List.length_singleton, List.range_succ, List.map_append,
        h.addr_of_accepts haccepts]
      exact congrArg (· ++ _) h.accepted
  · cases hwrite : g.store with
    | none => simp [TxRing.step, hwrite, h.rewritten]
    | some w => simp [TxRing.step, hwrite, h.rewritten, (hstore w.1 w.2 hwrite).1]

end TxRing

end UdpIpCore
