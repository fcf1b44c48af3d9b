import UdpIpCore.Datagram
import UdpIpCore.Rtl.AxiDmaRdRefinement
import UdpIpCore.Tx.ReadPath
import UdpIpCore.Userspace.TxSender

/-!
# The TX pipeline

The whole TX path at the level of its registers: the register file, the ring, the read DMA control,
the read DMA with its output FIFO, and the header remover. It runs as the ring does, so what
`udriver_send` puts into the ring reaches the UDP stack.
-/

namespace UdpIpCore

/-- The TX path with the memory it reads. -/
structure TxPipeline (R : AxisRegister) where
  regs : ConfigRegs
  axi : AxiLite
  pushPulse : PulseOnPosedge
  ring : CircularBuffer bufferTxLength
  memory : ℕ → BitVec 8
  sharedMemBase : BitVec 32
  ctrl : DmaReadControl
  path : ReadPath R
  /-- The slots pushed so far, as they were at their push. -/
  pushed : List Slot

/-- One cycle of the memory, of the UDP stack and of the rest of the device. -/
structure TxPipelineInput where
  arready : Bool
  rvalid : Bool
  /-- `m_axi_rdata` while `m_axi_rvalid` is low. -/
  idleData : BitVec 64
  /-- The registers of the stream while `tvalid` is low. -/
  idle : Beat
  hdrReady : Bool
  mAxisTready : Bool
  /-- What a read shows of the other registers. -/
  status : StatusInputs

/-- A frame with the payload of the datagram, and nothing else. -/
structure Datagram.FramedBy (d : Datagram) (frame : List Beat) : Prop where
  framed : Framing.Frame Beat.tlast frame
  bytes : frame.flatMap Beat.kept = d.payload

namespace TxPipeline

variable {R : AxisRegister}

/-- After reset, with a page-aligned DMA area. -/
def start (R : AxisRegister) (page : BitVec 21) : TxPipeline R where
  regs := .reset
  axi := .reset
  pushPulse := .reset
  ring := .reset bufferTxLength
  memory := fun _ => 0
  sharedMemBase := page ++ (0 : BitVec 11)
  ctrl := .reset
  path := .start R
  pushed := []

/-- The descriptor that is valid, for a whole slot. -/
def readDesc (p : TxPipeline R) : Option ReadDesc :=
  if p.ctrl.valid then some ⟨p.ctrl.nextSlotAddr, BitVec.ofNat 20 bufferElemMaxSize⟩ else none

/-- The word of the memory that is due. -/
def rdata (p : TxPipeline R) : BitVec 64 :=
  match p.path.stream.run.ar[p.path.stream.run.popped]?, p.path.stream.run.due.head? with
  | some (addr, len), some left => ByteOrder.load64 p.memory ((addr - p.sharedMemBase).toNat + 8 * (len + 1 - left))
  | _, _ => 0

/-- What the read path sees of a cycle. -/
def cycle (p : TxPipeline R) (i : TxPipelineInput) : ReadPathCycle where
  desc := p.readDesc
  slot := (p.pushed.getD p.path.slots.length fun _ => 0).words
  arready := i.arready
  rvalid := i.rvalid
  rdata := if i.rvalid then p.rdata else i.idleData
  idle := i.idle
  hdrReady := i.hdrReady
  mAxisTready := i.mAxisTready

/-- What the read DMA sees of it. -/
def rdCycle (p : TxPipeline R) (i : TxPipelineInput) : RdStreamCycle := p.path.rdCycle (p.cycle i)

/-- `m_axi_rlast` with its handshake, which pops the ring. -/
def rlastHs (p : TxPipeline R) (i : TxPipelineInput) : Bool :=
  p.path.stream.run.rlastHs (p.path.stream.cycle (p.rdCycle i))

/-- What a read shows. -/
def status (p : TxPipeline R) (i : TxPipelineInput) : StatusInputs :=
  { i.status with
    buftxHead := BitVec.ofNat 5 p.ring.headIndex
    buftxTail := BitVec.ofNat 5 p.ring.tailIndex
    buftxEmpty := p.ring.empty
    buftxFull := p.ring.full
    buftxPopped := p.rlastHs i }

/-- The slot at the head. -/
def headSlot (p : TxPipeline R) : Slot := fun k => p.memory (TxRing.slotOffset p.ring.headIndex + k)

/-- One clock edge. -/
def step (p : TxPipeline R) (g : PsSignals) (i : TxPipelineInput) : TxPipeline R where
  regs := p.regs.clock p.axi g.toAxiLiteMaster
  axi := p.axi.step g.toAxiLiteMaster (p.regs.read (p.status i))
  pushPulse := p.pushPulse.step p.regs.buftxPushed
  ring := p.ring.step p.pushPulse.pulse (p.rlastHs i)
  memory :=
    match g.store with
    | some (offset, b) => fun a => if a = offset then b else p.memory a
    | none => p.memory
  sharedMemBase := p.sharedMemBase
  ctrl := p.ctrl.step p.path.stream.run.engine.readDescReady (p.path.stream.tlastHs (p.rdCycle i)) p.ring.empty
    p.sharedMemBase p.ring.tailIndex
  path := p.path.step (p.cycle i)
  pushed := if p.pushPulse.pulse then p.pushed ++ [p.headSlot] else p.pushed

/-- The TX path as the PS sees it. The memory answers only what it was asked for. -/
def device (R : AxisRegister) : Device (TxPipeline R) TxPipelineInput where
  step := step
  legal := fun p i => i.rvalid = true → p.path.stream.run.due ≠ []
  axi := axi
  readValue := fun p i => p.regs.read (p.status i)
  load := memory
  axi_step := fun _ _ _ => rfl

/-- The pipeline runs as the ring does. -/
structure Follows (p : TxPipeline R) (s : TxRing) : Prop where
  regs : s.regs = p.regs
  axi : s.axi = p.axi
  pushPulse : s.pushPulse = p.pushPulse
  ring : s.ring = p.ring
  memory : s.memory = p.memory
  base : s.sharedMemBase = p.sharedMemBase
  ctrl : s.ctrl = p.ctrl
  pushed : s.pushed = p.pushed
  dma : p.path.stream.Refines s.dma
  inv : p.path.stream.Inv
  baseAligned : p.sharedMemBase.toNat % bufferElemMaxSize = 0
  addrAligned : p.ctrl.nextSlotAddr.toNat % bufferElemMaxSize = 0
  fetched : s.fetched.length = p.path.stream.run.popped
  accepted : s.accepted.length = p.path.slots.length

/-- The cycle of the ring. -/
def ringInput (p : TxPipeline R) (i : TxPipelineInput) : TxRingInput :=
  ⟨(p.path.stream.abstract (p.rdCycle i)).input, i.status⟩

variable {p : TxPipeline R} {s : TxRing} {g : PsSignals} {i : TxPipelineInput}

/-- Both are empty after reset. -/
theorem follows_start (R : AxisRegister) (page : BitVec 21) : (start R page).Follows (.start page) where
  regs := rfl
  axi := rfl
  pushPulse := rfl
  ring := rfl
  memory := rfl
  base := rfl
  ctrl := rfl
  pushed := rfl
  dma := DmaRdStream.refines_start
  inv := DmaRdStream.inv_start
  baseAligned := (TxRing.settled_start page).queue.stored.aligned
  addrAligned := rfl
  fetched := rfl
  accepted := rfl

/-- The read DMA gets descriptors for slots only. -/
theorem Follows.legal (h : p.Follows s) (hi : (device R).legal p i) :
    p.path.stream.run.Legal (p.path.stream.cycle (p.rdCycle i)) where
  desc := by
    intro desc hdesc
    have hvalid : p.readDesc = some desc := by
      rw [AxiDmaRdBursts.accepts] at hdesc
      split at hdesc
      · exact hdesc
      · exact absurd hdesc (Option.some_ne_none desc).symm
    rw [readDesc] at hvalid
    split at hvalid
    · obtain rfl := Option.some.inj hvalid
      exact ⟨h.addrAligned, rfl⟩
    · exact absurd hvalid (Option.some_ne_none desc).symm
  rvalid := hi

/-- A descriptor is valid for both. -/
theorem isSome_desc (p : TxPipeline R) (i : TxPipelineInput) :
    (p.path.stream.abstract (p.rdCycle i)).desc.isSome = p.ctrl.valid := by
  show (p.readDesc.map _).isSome = _
  rw [readDesc]
  cases p.ctrl.valid <;> rfl

/-- The read DMA takes the same step. -/
theorem Follows.dma_step (h : p.Follows s) (i : TxPipelineInput) :
    s.dma.step s.ctrl.valid s.ctrl.nextSlotAddr (p.ringInput i).dma =
      AxiDmaRd.machine.step s.dma (p.path.stream.abstract (p.rdCycle i)) := by
  show _ = s.dma.step (p.path.stream.abstract (p.rdCycle i)).desc.isSome _ _
  rw [isSome_desc, h.ctrl]
  cases hvalid : p.ctrl.valid with
  | true =>
    have hdesc : (p.path.stream.abstract (p.rdCycle i)).desc = some p.ctrl.nextSlotAddr := by
      show p.readDesc.map _ = _
      rw [readDesc, hvalid]
      rfl
    rw [hdesc]
    rfl
  | false => exact AxiDmaRd.step_of_invalid _ _ _ _

/-- The last beat of a burst pops both rings. -/
theorem Follows.rlastHs_eq (h : p.Follows s) (hi : (device R).legal p i) :
    s.dma.rlastHs (p.ringInput i).dma = p.rlastHs i := h.dma.rlastHs_eq h.inv (h.legal hi)

/-- A descriptor is accepted by both. -/
theorem Follows.accepts_eq (h : p.Follows s) (i : TxPipelineInput) :
    s.dma.accepts s.ctrl.valid = p.path.accepts (p.cycle i) := by
  have haccepts := h.dma.accepts_eq (i := p.rdCycle i)
  rw [isSome_desc] at haccepts
  rw [h.ctrl, haccepts]
  rfl

/-- Each cycle of the pipeline is one of the ring. -/
theorem Follows.step (h : p.Follows s) (hi : (device R).legal p i) : (p.step g i).Follows (s.step g (p.ringInput i)) := by
  have hlast := h.rlastHs_eq hi
  have hstatus : s.status (p.ringInput i) = p.status i := by
    rw [TxRing.status, status, h.ring, hlast]
    rfl
  have hhead : s.headSlot = p.headSlot := by
    funext k
    rw [TxRing.headSlot, headSlot, h.memory, h.ring]
  refine ⟨?_, ?_, ?_, ?_, ?_, h.base, ?_, ?_, ?_, h.inv.step (h.legal hi), h.baseAligned, ?_, ?_, ?_⟩
  · simp only [TxRing.step, TxPipeline.step, h.regs, h.axi]
  · simp only [TxRing.step, TxPipeline.step, h.regs, h.axi, hstatus]
  · simp only [TxRing.step, TxPipeline.step, h.regs, h.pushPulse]
  · simp only [TxRing.step, TxPipeline.step, h.ring, h.pushPulse, hlast]
  · cases hstore : g.store <;> simp only [TxRing.step, TxPipeline.step, hstore, h.memory]
  · simp only [TxRing.step, TxPipeline.step, h.ctrl, h.ring, h.base, h.dma.readDescReady]
    rfl
  · simp only [TxRing.step, TxPipeline.step, h.pushPulse, h.pushed, hhead]
  · have hdma : (s.step g (p.ringInput i)).dma = AxiDmaRd.machine.step s.dma (p.path.stream.abstract (p.rdCycle i)) :=
      h.dma_step i
    rw [hdma]
    exact h.dma.step h.inv (h.legal hi)
  · exact DmaReadControl.slotAddr_mod h.baseAligned _
  · have hfetched : (s.step g (p.ringInput i)).fetched.length = s.fetched.length + (p.rlastHs i).toNat := by
      rw [← hlast]
      cases hends : s.dma.rlastHs (p.ringInput i).dma <;> simp [TxRing.step, hends]
    rw [hfetched, h.fetched]
    rfl
  · have haccepted : (s.step g (p.ringInput i)).accepted.length =
        s.accepted.length + (p.path.accepts (p.cycle i)).toNat := by
      rw [← h.accepts_eq i]
      cases haccepts : s.dma.accepts s.ctrl.valid <;> simp [TxRing.step, haccepts]
    have hslots : (p.step g i).path.slots.length = p.path.slots.length + (p.path.accepts (p.cycle i)).toNat := by
      show (p.path.slots ++ _).length = _
      cases haccepts : p.path.accepts (p.cycle i) <;> simp
    rw [haccepted, hslots, h.accepted]

/-- Under every program the pipeline runs as the ring does. -/
theorem simulates (R : AxisRegister) {K α : Type} (code : K → UserCode α) (calls : PsInput K → Prop) :
    ((System.machine (device R) code).restrict fun _ i => calls i.1).Simulates
      ((System.machine TxRing.device code).restrict fun _ i => calls i.1)
      fun s t => s.ps = t.ps ∧ Follows s.device t.device :=
  System.simulates code calls (fun p _ _ i h hi => ⟨p.ringInput i, h.dma.legal h.inv (h.legal hi), h.step hi⟩)
    (fun _ _ h => h.axi.symm) fun _ _ h => h.memory.symm

/-- The slots that were asked for are the ones pushed first. -/
structure Asks (p : TxPipeline R) : Prop where
  fits : p.path.slots.length ≤ p.pushed.length
  slots : p.path.slots = (p.pushed.take p.path.slots.length).map Slot.words

/-- Every burst whose address was taken is one of a slot. -/
theorem ar_snd {t : DmaRdRun} (h : t.Tracked) {b : BitVec 32 × ℕ} (hb : b ∈ t.ar) : b.2 = 255 := by
  have hmem : b ∈ t.descs.map DmaRdRun.burst := by
    rw [← h.order]
    exact List.mem_append_left _ hb
  obtain ⟨desc, hdesc, rfl⟩ := List.mem_map.mp hmem
  rw [DmaRdRun.burst_eq (h.slots desc hdesc)]

/-- The burst under way is that of the slot at the tail. -/
theorem burst_of_bursts (hs : s.Stored) (hne : s.dma.bursts ≠ []) :
    s.fetched.length < s.pushed.length ∧ s.dma.bursts = [s.nextAddr] ∧ s.dma.beats < AxiDmaRd.burstBeats := by
  cases hs.transfer with
  | idle _ _ _ hdma _ => exact absurd hdma.bursts hne
  | accepted _ _ _ _ _ _ _ _ _ _ hbursts _ _ => exact absurd hbursts hne
  | requested _ hlt _ _ _ haddr _ _ hbeats _ _ => exact ⟨hlt, (haddr.resolve_left fun h => hne h.2.2).2, hbeats⟩
  | draining _ _ _ hdma _ => exact absurd hdma.bursts hne

/-- The word that is due is the next one of the slot at the tail. -/
theorem Follows.rdata_eq (h : p.Follows s) (hs : s.Stored) (hdue : p.path.stream.run.due ≠ []) :
    ∃ (hlt : p.path.stream.run.popped < p.pushed.length) (k : ℕ), p.path.stream.run.due.head? = some (256 - k) ∧ k < 256 ∧
      p.rdata = p.pushed[p.path.stream.run.popped].words k := by
  have hlength := h.dma.length_bursts
  have hne : s.dma.bursts ≠ [] := by
    intro hnone
    rw [hnone] at hlength
    exact hdue (List.eq_nil_of_length_eq_zero hlength.symm)
  obtain ⟨hlt, hbursts, hbeats⟩ := burst_of_bursts hs hne
  obtain ⟨m, hform⟩ := h.dma.beats.due
  have hhead : p.path.stream.run.due.head? = some (256 - s.dma.beats) := by
    rw [hform] at hdue ⊢
    by_cases hzero : s.dma.beats = 0
    · rw [hzero] at hdue ⊢
      cases m with
      | zero => exact absurd rfl hdue
      | succ m => rfl
    · rw [if_neg hzero]
      rfl
  obtain ⟨len, har⟩ : ∃ len, p.path.stream.run.ar[p.path.stream.run.popped]? = some (s.nextAddr, len) := by
    have hdrop := congrArg List.head? (h.dma.bursts.symm.trans hbursts)
    rw [List.head?_map, List.head?_drop, List.head?_cons] at hdrop
    obtain ⟨b, hb, haddr⟩ := Option.map_eq_some_iff.mp hdrop
    exact ⟨b.2, by rw [hb, ← haddr]⟩
  have hlen : len = 255 := ar_snd h.inv.tracked (List.mem_of_getElem? har)
  rw [h.fetched, h.pushed] at hlt
  refine ⟨hlt, s.dma.beats, hhead, hbeats, ?_⟩
  have haddr : (s.nextAddr - p.sharedMemBase).toNat = TxRing.slotOffset (p.path.stream.run.popped % bufferTxLength) := by
    rw [TxRing.nextAddr, h.base, h.fetched]
    exact TxRing.toNat_slotAddr_sub _ (Nat.mod_lt _ (by decide))
  have hword : 255 + 1 - (256 - s.dma.beats) = s.dma.beats := by
    simp only [AxiDmaRd.burstBeats] at hbeats
    omega
  rw [rdata, har, hhead, hlen]
  show ByteOrder.load64 _ _ = ByteOrder.load64 _ _
  rw [haddr, hword]
  refine eq_of_bytes fun j hj => ?_
  rw [ByteOrder.extractLsb'_load64 _ _ hj, ByteOrder.extractLsb'_load64 _ _ hj, Nat.add_assoc]
  have hunread := hs.unread p.path.stream.run.popped (by rw [h.pushed]; exact hlt) (Nat.le_of_eq h.fetched)
    (8 * s.dma.beats + j) (by simp only [AxiDmaRd.burstBeats] at hbeats; simp only [bufferElemMaxSize]; omega)
  rw [h.memory] at hunread
  rw [hunread, List.getElem_of_eq h.pushed]

/-- A descriptor is accepted for a slot that was pushed. -/
theorem Follows.slots_lt (h : p.Follows s) (hs : s.Stored) (haccepts : p.path.accepts (p.cycle i) = true) :
    p.path.slots.length < p.pushed.length := by
  rw [← h.accepts_eq i] at haccepts
  rw [← h.accepted, ← h.pushed]
  simp only [AxiDmaRd.accepts, Bool.and_eq_true, Bool.not_eq_true'] at haccepts
  obtain ⟨⟨-, hready'⟩, hvalid'⟩ := haccepts
  cases hs.transfer with
  | idle hcount _ hvalid _ _ =>
    rw [hcount]
    exact (hvalid hvalid').1
  | accepted _ _ _ hready _ _ _ _ _ _ _ _ _ => exact absurd (hready.symm.trans hready') Bool.false_ne_true
  | requested _ _ _ hvalid _ _ _ _ _ _ _ => exact absurd (hvalid.symm.trans hvalid') Bool.false_ne_true
  | draining _ _ hvalid _ _ => exact absurd (hvalid.symm.trans hvalid') Bool.false_ne_true

/-- The slots stay the ones pushed first. -/
theorem Asks.step (ha : p.Asks) (h : p.Follows s) (hs : s.Stored) : (p.step g i).Asks := by
  have hpushed : p.pushed <+: (p.step g i).pushed := by
    show p.pushed <+: if p.pushPulse.pulse then p.pushed ++ [p.headSlot] else p.pushed
    split
    · exact List.prefix_append _ _
    · exact List.prefix_refl _
  have hslots : (p.step g i).path.slots = p.path.slots ++
      if p.path.accepts (p.cycle i) then [(p.pushed.getD p.path.slots.length fun _ => 0).words] else [] := rfl
  obtain ⟨more, hmore⟩ := hpushed
  cases haccepts : p.path.accepts (p.cycle i) with
  | false =>
    rw [haccepts, if_neg Bool.false_ne_true, List.append_nil] at hslots
    refine ⟨?_, ?_⟩
    · rw [hslots, ← hmore, List.length_append]
      exact Nat.le_add_right_of_le ha.fits
    · rw [hslots, ← hmore, List.take_append_of_le_length ha.fits]
      exact ha.slots
  | true =>
    have hlt := h.slots_lt hs haccepts
    rw [haccepts, if_pos rfl] at hslots
    refine ⟨?_, ?_⟩
    · rw [hslots, ← hmore, List.length_append, List.length_append, List.length_singleton]
      exact Nat.le_add_right_of_le hlt
    · rw [hslots, List.length_append, List.length_singleton, ← hmore, List.take_append_of_le_length hlt,
        List.take_add_one, List.getElem?_eq_getElem hlt, List.map_append, ← ha.slots, List.getD_eq_getElem _ _ hlt]
      rfl

/-- The memory answers with the slots that were asked for. -/
theorem Follows.pathLegal (h : p.Follows s) (hs : s.Stored) (ha : p.Asks) (hi : (device R).legal p i) :
    p.path.Legal (p.cycle i) where
  stream := h.legal hi
  rdata := by
    intro hvalid slot left hslot hleft
    obtain ⟨hlt, k, hhead, hk, hword⟩ := h.rdata_eq hs (hi hvalid)
    obtain rfl : 256 - k = left := Option.some.inj (hhead.symm.trans hleft)
    have hsame : slot = p.pushed[p.path.stream.run.popped].words := by
      rw [ha.slots, List.getElem?_map, List.getElem?_take] at hslot
      split at hslot
      · rw [List.getElem?_eq_getElem hlt] at hslot
        exact (Option.some.inj hslot).symm
      · exact absurd hslot (Option.some_ne_none slot).symm
    have hnow : TxSlot.beats - (256 - k) = k := by
      simp only [TxSlot.beats]
      omega
    show (if i.rvalid then p.rdata else i.idleData) = _
    rw [hnow, hsame, ← hword]
    exact if_pos hvalid

/-- The packets that `udriver_send` accepted, and at most the one of the call in progress, are in the pushed slots. -/
theorem queueing_of_reachable {page : BitVec 21} {t : System TxRing (TxPacket × Bool)}
    (h : (TxRing.sender.restrict fun _ i => TxRing.Fitting i.1).Reachable ⟨Ps.start, .start page⟩ t) :
    ∃ inflight, inflight.length ≤ 1 ∧ (t.ps.pending = none → inflight = []) ∧
      TxRing.Queue t.ps.results inflight t.device := by
  have hinv := TxRing.inv_of_reachable h
  cases hpending : t.ps.pending with
  | none => exact ⟨[], Nat.zero_le 1, fun _ => rfl, (hinv.idle hpending).queue⟩
  | some code =>
    obtain ⟨inflight, hone, hqueue⟩ := hinv.always fun _ _ hs => hs.queueing
    exact ⟨inflight, hone, fun hnone => absurd hnone (Option.some_ne_none code), hqueue⟩

/-- The PS with one `udriver_send` after the other, and the pipeline. -/
def sender (R : AxisRegister) : Clocked.Machine (System (TxPipeline R) (TxPacket × Bool)) (PsInput TxPacket × TxPipelineInput) :=
  System.machine (device R) TxRing.send

/-- The same as long as the packets fit a slot. -/
def fittingSender (R : AxisRegister) :
    Clocked.Machine (System (TxPipeline R) (TxPacket × Bool)) (PsInput TxPacket × TxPipelineInput) :=
  (sender R).restrict fun _ i => TxRing.Fitting i.1

/-- No pending header is overwritten. -/
def HeadersInTime (s : System (TxPipeline R) (TxPacket × Bool)) (i : PsInput TxPacket × TxPipelineInput) : Prop :=
  s.device.path.AcceptedInTime (s.device.cycle i.2)

variable {K : RemoverRun R → Prop}
variable {condition : System (TxPipeline R) (TxPacket × Bool) → PsInput TxPacket × TxPipelineInput → Prop}

/-- In every run the read path reads the slots that were pushed. -/
theorem kept_of_reachable {page : BitVec 21} {s : System (TxPipeline R) (TxPacket × Bool)}
    (hstart : ∀ slot, K (.start R slot))
    (hkeep : ∀ s i slots t, condition s i → s.device.path.Reads → s.device.path.slots <+: slots →
      s.device.path.Follows slots t → K t → K (t.step (s.device.path.follow slots (s.device.cycle i.2))))
    (h : ((fittingSender R).restrict condition).Reachable ⟨Ps.start, start R page⟩ s) :
    s.device.Asks ∧ s.device.path.Inv K := by
  have hsimulates := (simulates R TxRing.send TxRing.Fitting).restrict condition
  refine hsimulates.invariant (t := ⟨Ps.start, .start page⟩) (K := fun t => t.device.Stored)
    (P := fun s => s.device.Asks ∧ s.device.path.Inv K) ⟨rfl, follows_start R page⟩ ?_ ?_ ?_ h
  · intro t ht
    obtain ⟨inflight, -, -, hqueue⟩ := queueing_of_reachable ht
    exact hqueue.stored
  · exact ⟨⟨Nat.le_refl 0, rfl⟩, ReadPath.inv_start hstart⟩
  · rintro s t i ⟨-, hfollows⟩ hstored ⟨hasks, hpath⟩ ⟨hlegal, hcondition⟩
    refine ⟨hasks.step hfollows hstored, hpath.step (hfollows.pathLegal hstored hasks hlegal.1) ?_⟩
    exact fun slots t' => hkeep s i slots t' hcondition hpath.reads

/-- All that was pushed has left. -/
structure Drained (p : TxPipeline R) : Prop where
  asked : p.path.slots.length = p.pushed.length
  path : p.path.Drained

/-- The UDP stack gets the payloads of the datagrams, one frame for each and in order, and all of them once nothing is
under way. -/
structure Delivers (ds : List Datagram) (p : TxPipeline R) (frames : List (List Beat)) : Prop where
  framed : List.Forall₂ Datagram.FramedBy ds frames
  order : p.path.out <+: frames.flatten
  complete : p.Drained → p.path.out = frames.flatten

/-- It gets the header of each of the first datagrams once and in order, and no payload before its header. -/
structure Announces (ds : List Datagram) (p : TxPipeline R) (frames : List (List Beat)) (n : ℕ) : Prop where
  framed : List.Forall₂ Datagram.FramedBy ds frames
  headers : p.path.accepted ++ p.path.presented = (ds.take n).map Datagram.txHeader
  payloads : p.path.out <+: (frames.take n).flatten

/-- The frames of the pushed slots. -/
def frames (p : TxPipeline R) : List (List Beat) := p.pushed.map fun slot => slot.words.payload TxSlot.payloadBeats

variable {ds : List Datagram} {slots : List Slot}

/-- The payloads of the slots that were asked for. -/
theorem Asks.payloads (ha : p.Asks) :
    (p.path.slots.flatMap fun slot => slot.payload TxSlot.payloadBeats) = (p.frames.take p.path.slots.length).flatten := by
  rw [frames, ← List.map_take, ← List.flatMap_def]
  conv_lhs => rw [ha.slots, List.flatMap_map]

/-- The datagrams in the pushed slots are framed. -/
theorem framed_of_in (hin : List.Forall₂ Datagram.In ds p.pushed) (hmin : ∀ d ∈ ds, 8 ≤ d.payload.length) :
    List.Forall₂ Datagram.FramedBy ds p.frames := by
  rw [frames, List.forall₂_map_right_iff]
  exact ((List.forall₂_and_left _ _).mpr ⟨hmin, hin⟩).imp fun d slot h => ⟨(h.2.frame h.1).1, (h.2.frame h.1).2⟩

/-- So are their headers in the slots. -/
theorem headers_of_in (hin : List.Forall₂ Datagram.In ds slots) :
    slots.map (fun slot => slot.words.header) = ds.map Datagram.txHeader := by
  induction hin with
  | nil => rfl
  | cons h _ ih => rw [List.map_cons, List.map_cons, h.header_words, ih]

/-- What leaves the pipeline are the frames of the datagrams in the pushed slots. -/
theorem Asks.delivers (ha : p.Asks) (hpath : p.path.Inv RemoverRun.Flowing) (hin : List.Forall₂ Datagram.In ds p.pushed)
    (hmin : ∀ d ∈ ds, 8 ≤ d.payload.length) : p.Delivers ds p.frames where
  framed := framed_of_in hin hmin
  order := by
    have horder := hpath.sends.order
    rw [ha.payloads] at horder
    refine horder.trans ⟨(p.frames.drop p.path.slots.length).flatten, ?_⟩
    rw [← List.flatten_append, List.take_append_drop]
  complete := by
    intro hdrained
    have hlength : p.frames.length = p.pushed.length := List.length_map _
    rw [hpath.sends.complete hdrained.path, ha.payloads, hdrained.asked, ← hlength, List.take_length]

/-- The headers come before them. -/
theorem Asks.announces (ha : p.Asks) (hpath : p.path.Inv RemoverRun.Settled) (hin : List.Forall₂ Datagram.In ds p.pushed)
    (hmin : ∀ d ∈ ds, 8 ≤ d.payload.length) : ∃ n, p.Announces ds p.frames n := by
  have hpaired := hpath.paired
  obtain ⟨n, hsplit⟩ : ∃ n, p.path.split = (p.pushed.take n).map Slot.words := by
    obtain ⟨m, hm⟩ : ∃ m, p.path.split = p.path.slots.take m := ⟨_, rfl⟩
    rw [ha.slots, ← List.map_take, List.take_take] at hm
    exact ⟨_, hm⟩
  refine ⟨n, framed_of_in hin hmin, ?_, ?_⟩
  · rw [hpaired.headers, hsplit, List.map_map]
    exact headers_of_in (List.forall₂_take n hin)
  · have hpayloads := hpaired.payloads
    rw [hsplit, List.flatMap_map] at hpayloads
    rw [frames, ← List.map_take, ← List.flatMap_def]
    exact hpayloads

/-- The property holds for the datagrams that `udriver_send` has accepted, with at most that of the call in progress. -/
def OfSent (s : System (TxPipeline R) (TxPacket × Bool)) (property : List Datagram → Prop) : Prop :=
  ∃ inflight, inflight.length ≤ 1 ∧ (s.ps.pending = none → inflight = []) ∧
    ∀ ds, (TxRing.sent s.ps.results ++ inflight).map TxPacket.toUdpPacket = ds.map Datagram.packet →
      (∀ d ∈ ds, 8 ≤ d.payload.length) → property ds

/-- The datagrams are in the slots. -/
theorem in_of_carried {packets : List TxPacket} (h : List.Forall₂ TxPacket.In packets slots)
    (hds : packets.map TxPacket.toUdpPacket = ds.map Datagram.packet) : List.Forall₂ Datagram.In ds slots := by
  have hbytes : List.Forall₂ (fun (u : UdpPacket) (slot : Slot) => ∀ k b, (u.header ++ u.payload)[k]? = some b → slot k = b)
      (packets.map TxPacket.toUdpPacket) slots := List.forall₂_map_left_iff.mpr h
  rw [hds, List.forall₂_map_left_iff] at hbytes
  exact hbytes

/-- Every reachable state has the datagrams in its pushed slots. -/
theorem ofSent_of_reachable {page : BitVec 21} {s : System (TxPipeline R) (TxPacket × Bool)}
    (h : ((fittingSender R).restrict condition).Reachable ⟨Ps.start, start R page⟩ s) {property : List Datagram → Prop}
    (hproperty : ∀ ds, List.Forall₂ Datagram.In ds s.device.pushed → (∀ d ∈ ds, 8 ≤ d.payload.length) → property ds) :
    OfSent s property := by
  obtain ⟨t, ht, hps, hfollows⟩ := ((simulates R TxRing.send TxRing.Fitting).restrict condition).reachable
    (t := ⟨Ps.start, .start page⟩) ⟨rfl, follows_start R page⟩ h
  obtain ⟨inflight, hone, hidle, hqueue⟩ := queueing_of_reachable ht
  rw [← hps] at hidle hqueue
  refine ⟨inflight, hone, hidle, fun ds hds hmin => hproperty ds ?_ hmin⟩
  rw [← hfollows.pushed]
  exact in_of_carried hqueue.carried hds

/-- A state that is reached is reached under no condition. -/
theorem reachable_restrict {page : BitVec 21} {s : System (TxPipeline R) (TxPacket × Bool)}
    (h : (fittingSender R).Reachable ⟨Ps.start, start R page⟩ s) :
    ((fittingSender R).restrict fun _ _ => True).Reachable ⟨Ps.start, start R page⟩ s :=
  Clocked.Machine.Reachable.project (m := fittingSender R) (n := (fittingSender R).restrict fun _ _ => True) id (fun _ i => i) (fun _ _ => rfl)
    (fun _ _ hi => ⟨hi, trivial⟩) h

/-- Whatever the bus, the memory and the UDP stack do, the datagrams that `udriver_send` accepts reach the stack in
order, as long as they fit a slot. -/
theorem pipeline_delivers (R : AxisRegister) (page : BitVec 21) : (fittingSender R).Always ⟨Ps.start, start R page⟩ fun s _ =>
    OfSent s fun ds => s.device.Delivers ds s.device.frames := by
  intro s hs _ _
  obtain ⟨hasks, hpath⟩ := kept_of_reachable (K := RemoverRun.Flowing)
    (fun slot => RemoverRun.flowing_of_reachable (.refl _ _)) (fun _ _ _ _ _ _ _ _ ht => ht.run [_]) (reachable_restrict hs)
  exact ofSent_of_reachable (reachable_restrict hs) fun ds hin hmin => hasks.delivers hpath hin hmin

/-- If no pending header is overwritten, they come with their headers. -/
theorem pipeline_announces (R : AxisRegister) (page : BitVec 21) :
    ((fittingSender R).restrict HeadersInTime).Always ⟨Ps.start, start R page⟩ fun s _ =>
      OfSent s fun ds => ∃ n, s.device.Announces ds s.device.frames n := by
  intro s hs _ _
  obtain ⟨hasks, hpath⟩ := kept_of_reachable (K := RemoverRun.Settled) (RemoverRun.settled_start R)
    (fun _ _ _ _ hin hreads hfirst hfollows ht => ht.step (hfollows.acceptedInTime hreads hfirst hin)) hs
  exact ofSent_of_reachable hs fun ds hin hmin => hasks.announces hpath hin hmin

section Runs

instance (s : System (TxPipeline R) (TxPacket × Bool)) (i : PsInput TxPacket × TxPipelineInput) :
    Decidable ((fittingSender R).legal s i) :=
  inferInstanceAs (Decidable ((i.2.rvalid = true → s.device.path.stream.run.due ≠ []) ∧ TxRing.Fitting i.1))

instance (s : System (TxPipeline R) (TxPacket × Bool)) (i : PsInput TxPacket × TxPipelineInput) :
    Decidable (HeadersInTime s i) := inferInstanceAs (Decidable (s.device.path.AcceptedInTime (s.device.cycle i.2)))

instance (s : System (TxPipeline R) (TxPacket × Bool)) (i : PsInput TxPacket × TxPipelineInput) :
    Decidable (((fittingSender R).restrict HeadersInTime).legal s i) := inferInstanceAs (Decidable (_ ∧ _))

/-- A cycle in which nothing is held up. -/
def promptly (s : System (TxPipeline R) (TxPacket × Bool)) (call : Option TxPacket) : PsInput TxPacket × TxPipelineInput :=
  (⟨true, true, true, true, true, true, call⟩,
    ⟨true, decide (s.device.path.stream.run.due ≠ []), 0, ⟨0, 0, false, false⟩, true, true, StatusInputs.idle⟩)

/-- Such cycles, one after the other. -/
def serving : ℕ → System (TxPipeline R) (TxPacket × Bool) → List (PsInput TxPacket × TxPipelineInput)
  | 0, _ => []
  | n + 1, s => promptly s none :: serving n ((fittingSender R).step s (promptly s none))

/-- A datagram with eight bytes. -/
def eightByteDatagram : Datagram := ⟨0xC0A80180, 7400, 0xC0A80102, 7400, [1, 2, 3, 4, 5, 6, 7, 8], by decide⟩

/-- `udriver_send` is called with it, and its slot leaves. -/
def sendingDatagram : List (PsInput TxPacket × TxPipelineInput) :=
  let called := promptly ⟨Ps.start, start .twoDeep 0⟩ (some ⟨eightByteDatagram.packet, eightByteDatagram.length_header⟩)
  called :: serving 400 ((fittingSender .twoDeep).step ⟨Ps.start, start .twoDeep 0⟩ called)

/-- What is reached then. -/
def datagramSent : System (TxPipeline .twoDeep) (TxPacket × Bool) :=
  (fittingSender .twoDeep).run ⟨Ps.start, start .twoDeep 0⟩ sendingDatagram

/-- No pending header is overwritten on the way. -/
theorem legal_sendingDatagram :
    ((fittingSender .twoDeep).restrict HeadersInTime).Legal ⟨Ps.start, start .twoDeep 0⟩ sendingDatagram := by
  decide +kernel

/-- The call has returned, one header and one payload beat were taken, and no header is pending. -/
theorem datagramSent_idle : datagramSent.ps.pending.isNone = true ∧
    (TxRing.sent datagramSent.ps.results).map TxPacket.toUdpPacket = [eightByteDatagram].map Datagram.packet ∧
    datagramSent.device.path.accepted.length = 1 ∧ datagramSent.device.path.out.length = 1 ∧
    HeadersInTime datagramSent (promptly ⟨Ps.start, start .twoDeep 0⟩ none) := by
  decide +kernel

/-- What is sent in that state are the datagrams of the calls that have returned. -/
theorem OfSent.of_datagramSent {property : List Datagram → Prop} (h : OfSent datagramSent property) :
    property [eightByteDatagram] := by
  obtain ⟨inflight, -, hidle, hall⟩ := h
  obtain ⟨hpending, hresults, -⟩ := datagramSent_idle
  refine hall [eightByteDatagram] ?_ (by decide)
  rw [hidle (Option.isNone_iff_eq_none.mp hpending), List.append_nil]
  exact hresults

/-- The datagram is delivered. -/
theorem pipeline_delivers_eightBytes :
    datagramSent.device.path.out.length = 1 ∧ datagramSent.device.Delivers [eightByteDatagram] datagramSent.device.frames := by
  have hlegal : (fittingSender .twoDeep).Legal ⟨Ps.start, start .twoDeep 0⟩ sendingDatagram :=
    Clocked.Machine.Legal.mono ((fittingSender .twoDeep).restrict HeadersInTime) (fittingSender .twoDeep) rfl
      legal_sendingDatagram fun _ _ _ hi => hi.1
  exact ⟨datagramSent_idle.2.2.2.1, (pipeline_delivers .twoDeep 0 _ ⟨sendingDatagram, hlegal, rfl⟩
    (promptly ⟨Ps.start, start .twoDeep 0⟩ none) ⟨nofun, nofun⟩).of_datagramSent⟩

/-- With its header. -/
theorem pipeline_announces_eightBytes :
    datagramSent.device.path.accepted.length = 1 ∧
      ∃ n, datagramSent.device.Announces [eightByteDatagram] datagramSent.device.frames n := by
  obtain ⟨n, hannounces⟩ := (pipeline_announces .twoDeep 0 _ ⟨sendingDatagram, legal_sendingDatagram, rfl⟩
    (promptly ⟨Ps.start, start .twoDeep 0⟩ none) ⟨⟨nofun, nofun⟩, datagramSent_idle.2.2.2.2⟩).of_datagramSent
  exact ⟨datagramSent_idle.2.2.1, n, hannounces⟩

end Runs

end TxPipeline

end UdpIpCore
