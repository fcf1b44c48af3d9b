import UdpIpCore.Rtl.AxiDmaWrRun
import UdpIpCore.Rtl.DmaReadControl

/-!
# The bursts of the read DMA

`axi_dma_rd` splits a descriptor into bursts and counts the beats that come back. The state
carries the descriptors that were accepted, the bursts whose address was taken, and what the
slave still has to deliver of them. The ready flag of the output FIFO is an input.
-/

namespace UdpIpCore

/-- `tr_word_count_next`: the bytes of the next burst of a transfer of `op` bytes from `addr` on. -/
def burstBytes (addr : BitVec 32) (op : ℕ) : ℕ :=
  let addrInPage := addr.toNat % 4096
  if op ≤ AxiDmaWr.maxBurstSize - addr.toNat % 8 then
    if (addrInPage + op % 4096) / 4096 ≠ 0 ∨ op / 4096 ≠ 0 then 4096 - addrInPage else op
  else if (addrInPage + AxiDmaWr.maxBurstSize) / 4096 ≠ 0 then 4096 - addrInPage
  else AxiDmaWr.maxBurstSize - addr.toNat % 8

/-- A slot of at most 2048 bytes is one burst. -/
theorem burstBytes_eq {addr : BitVec 32} {op : ℕ} (haddr : addr.toNat % 2048 = 0) (hop : op ≤ 2048) :
    burstBytes addr op = op := by
  have hword : addr.toNat % 8 = 0 := by omega
  have hsmall : op ≤ AxiDmaWr.maxBurstSize - addr.toNat % 8 := by
    simp only [AxiDmaWr.maxBurstSize]
    omega
  rw [burstBytes, if_pos hsmall]
  split
  · omega
  · rfl

/-- A descriptor as it stands on `s_axis_read_desc`. -/
structure ReadDesc where
  addr : BitVec 32
  len : BitVec 20
deriving DecidableEq

/-- The registers of `axi_dma_rd` that request bursts and count their beats. -/
structure AxiDmaRdBursts where
  /-- `s_axis_read_desc_ready_reg`. -/
  readDescReady : Bool
  /-- `axi_state_reg` is `AXI_STATE_START`. -/
  axiStart : Bool
  addr : BitVec 32
  opWordCount : ℕ
  arvalid : Bool
  araddr : BitVec 32
  arlen : ℕ
  axisCmdValid : Bool
  axisCmdInputCycleCount : ℕ
  axisCmdOutputCycleCount : ℕ
  /-- `axis_state_reg` is `AXIS_STATE_READ`. -/
  axisRead : Bool
  inputCycleCount : ℕ
  outputCycleCount : ℕ
  inputActive : Bool
  outputActive : Bool
  outputLastCycle : Bool
  rready : Bool
deriving DecidableEq

/-- One cycle around the read DMA. -/
structure DmaRdCycle where
  /-- The descriptor, while it is valid. -/
  desc : Option ReadDesc
  arready : Bool
  rvalid : Bool
  /-- `m_axis_read_data_tready_int`: the output FIFO is not half full. -/
  treadyInt : Bool

namespace AxiDmaRdBursts

/-- The state after reset. -/
def reset : AxiDmaRdBursts where
  readDescReady := false
  axiStart := false
  addr := 0
  opWordCount := 0
  arvalid := false
  araddr := 0
  arlen := 0
  axisCmdValid := false
  axisCmdInputCycleCount := 0
  axisCmdOutputCycleCount := 0
  axisRead := false
  inputCycleCount := 0
  outputCycleCount := 0
  inputActive := false
  outputActive := false
  outputLastCycle := false
  rready := false

/-- The descriptor that is accepted. -/
def accepts (e : AxiDmaRdBursts) (i : DmaRdCycle) : Option ReadDesc :=
  if !e.axiStart && e.readDescReady then i.desc else none

/-- `AXI_STATE_START` requests a burst. -/
def requests (e : AxiDmaRdBursts) : Bool := e.axiStart && !e.arvalid

/-- `tr_word_count_next`. -/
def trWordCount (e : AxiDmaRdBursts) : ℕ := burstBytes e.addr e.opWordCount

/-- The address of a burst is taken. -/
def arHs (e : AxiDmaRdBursts) (i : DmaRdCycle) : Bool := e.arvalid && i.arready

/-- A beat is taken. -/
def rHs (e : AxiDmaRdBursts) (i : DmaRdCycle) : Bool := e.rready && i.rvalid

/-- `AXIS_STATE_READ` passes a beat on. -/
def transfers (e : AxiDmaRdBursts) (i : DmaRdCycle) : Bool := e.axisRead && (e.rHs i || !e.inputActive)

/-- The last beat of a transfer is passed on. -/
def finishes (e : AxiDmaRdBursts) (i : DmaRdCycle) : Bool := e.transfers i && e.outputLastCycle

/-- `input_active_next` in `AXIS_STATE_READ`. -/
def inputActiveNext (e : AxiDmaRdBursts) (i : DmaRdCycle) : Bool :=
  if e.transfers i && e.inputActive then decide (0 < e.inputCycleCount) else e.inputActive

/-- `output_cycle_count_next` in `AXIS_STATE_READ`. -/
def outputCycleCountNext (e : AxiDmaRdBursts) (i : DmaRdCycle) : ℕ :=
  if e.transfers i && e.outputActive then e.outputCycleCount - 1 else e.outputCycleCount

/-- One clock edge with `rst` low. -/
def step (e : AxiDmaRdBursts) (i : DmaRdCycle) : AxiDmaRdBursts where
  readDescReady :=
    if e.axiStart then e.requests && decide (e.opWordCount - e.trWordCount = 0) && !e.axisCmdValid
    else (e.accepts i).isNone && !e.axisCmdValid
  axiStart :=
    if e.axiStart then !e.requests || decide (0 < e.opWordCount - e.trWordCount)
    else (e.accepts i).isSome
  addr :=
    match e.accepts i with
    | some desc => desc.addr >>> 3 <<< 3
    | none => if e.requests then e.addr + BitVec.ofNat 32 e.trWordCount else e.addr
  opWordCount :=
    match e.accepts i with
    | some desc => desc.len.toNat
    | none => if e.requests then e.opWordCount - e.trWordCount else e.opWordCount
  arvalid := e.requests || (e.arvalid && !i.arready)
  araddr := if e.requests then e.addr else e.araddr
  arlen := if e.requests then (e.trWordCount - 1) / 8 else e.arlen
  axisCmdValid := (e.accepts i).isSome || (e.axisCmdValid && e.axisRead)
  axisCmdInputCycleCount := ((e.accepts i).map fun desc => (desc.len.toNat - 1) / 8).getD e.axisCmdInputCycleCount
  axisCmdOutputCycleCount := ((e.accepts i).map fun desc => (desc.len.toNat - 1) / 8).getD e.axisCmdOutputCycleCount
  axisRead := if e.axisRead then !e.finishes i else e.axisCmdValid
  inputCycleCount :=
    if e.axisRead then
      if e.transfers i && e.inputActive then e.inputCycleCount - 1 else e.inputCycleCount
    else e.axisCmdInputCycleCount
  outputCycleCount := if e.axisRead then e.outputCycleCountNext i else e.axisCmdOutputCycleCount
  inputActive := if e.axisRead then e.inputActiveNext i else true
  outputActive :=
    if e.axisRead then
      if e.transfers i && e.outputActive then decide (0 < e.outputCycleCount) else e.outputActive
    else true
  outputLastCycle :=
    if e.axisRead then
      if e.transfers i then decide (e.outputCycleCountNext i = 0) else e.outputLastCycle
    else decide (e.axisCmdOutputCycleCount = 0)
  rready :=
    if e.axisRead then
      if e.finishes i then false else i.treadyInt && e.inputActiveNext i
    else e.axisCmdValid && i.treadyInt

end AxiDmaRdBursts

/-- The read DMA with the record of its work. -/
structure DmaRdRun where
  engine : AxiDmaRdBursts
  /-- The descriptors that were accepted, in order. -/
  descs : List ReadDesc
  /-- The bursts whose address was taken: address and beats less one. -/
  ar : List (BitVec 32 × ℕ)
  /-- The beats the slave has still to deliver of each burst. -/
  due : List ℕ
  /-- The `rlast` handshakes so far. -/
  popped : ℕ
  /-- The transfers whose last beat was passed on. -/
  finished : ℕ

namespace DmaRdRun

open WriteJob (burstLength)

/-- After the power-on reset. -/
def start : DmaRdRun := ⟨.reset, [], [], [], 0, 0⟩

/-- `m_axi_rlast`: the beat is the last one of the oldest burst. -/
def rlast (s : DmaRdRun) : Bool := s.due.head? = some 1

/-- `m_axi_rlast` with its handshake. -/
def rlastHs (s : DmaRdRun) (i : DmaRdCycle) : Bool := s.rlast && s.engine.rHs i

/-- What is due once one beat was delivered. -/
def delivered : List ℕ → List ℕ
  | [] => []
  | n :: rest => if n = 1 then rest else (n - 1) :: rest

/-- One clock edge. -/
def step (s : DmaRdRun) (i : DmaRdCycle) : DmaRdRun where
  engine := s.engine.step i
  descs := s.descs ++ (s.engine.accepts i).toList
  ar := s.ar ++ if s.engine.arHs i then [(s.engine.araddr, s.engine.arlen)] else []
  due := (if s.engine.rHs i then delivered s.due else s.due) ++ if s.engine.arHs i then [s.engine.arlen + 1] else []
  popped := s.popped + (s.rlastHs i).toNat
  finished := s.finished + (s.engine.finishes i).toNat

/-- A descriptor for a whole slot. -/
def SlotDesc (desc : ReadDesc) : Prop := desc.addr.toNat % bufferElemMaxSize = 0 ∧ desc.len = 2048

/-- Every descriptor that is accepted is for a slot, and the slave delivers only what is due. -/
structure Legal (s : DmaRdRun) (i : DmaRdCycle) : Prop where
  desc : ∀ desc, s.engine.accepts i = some desc → SlotDesc desc
  rvalid : i.rvalid = true → s.due ≠ []

/-- The read DMA under any slave. -/
def machine : Clocked.Machine DmaRdRun DmaRdCycle where
  step := step
  legal := Legal

/-- The burst of a descriptor. -/
def burst (desc : ReadDesc) : BitVec 32 × ℕ := (desc.addr, burstLength desc.len.toNat - 1)

/-- The bursts that were asked for and whose address was not taken. -/
def asked (e : AxiDmaRdBursts) : List (BitVec 32 × ℕ) :=
  (if e.arvalid then [(e.araddr, e.arlen)] else []) ++ if e.axiStart then [(e.addr, 255)] else []

/-- The counters once `k` beats of a transfer were passed on. -/
structure Reading (e : AxiDmaRdBursts) (k : ℕ) : Prop where
  fits : k < 256
  input : e.inputCycleCount + k = 255
  output : e.outputCycleCount + k = 255
  inputActive : e.inputActive = true
  outputActive : e.outputActive = true
  lastCycle : e.outputLastCycle = decide (k = 255)

/-- `k` beats of the current transfer were passed on, and bursts of whole slots are due after it. -/
structure Progress (s : DmaRdRun) (k : ℕ) : Prop where
  busy : s.engine.axisRead = true → Reading s.engine k
  idle : s.engine.axisRead = false → k = 0
  due : ∃ m, s.due = (if k = 0 then [] else [256 - k]) ++ List.replicate m 256
  popped : s.popped + s.due.length = s.ar.length

/-- What is known in every state. -/
structure Tracked (s : DmaRdRun) : Prop where
  slots : ∀ desc ∈ s.descs, SlotDesc desc
  order : s.ar ++ asked s.engine = s.descs.map burst
  starting : s.engine.axiStart = true → s.engine.opWordCount = 2048 ∧ s.engine.addr.toNat % 2048 = 0
  free : s.engine.readDescReady = true → s.engine.axisCmdValid = false
  cmd : s.engine.axisCmdValid = true → s.engine.axisCmdInputCycleCount = 255 ∧ s.engine.axisCmdOutputCycleCount = 255
  ready : s.engine.rready = true → s.engine.axisRead = true
  reading : ∃ k, s.Progress k
  finished : s.popped = s.finished
  accepted : s.finished + s.engine.axisRead.toNat + s.engine.axisCmdValid.toNat = s.descs.length

/-- After reset nothing was accepted. -/
theorem tracked_start : start.Tracked where
  slots := by simp [start]
  order := rfl
  starting := by simp [start, AxiDmaRdBursts.reset]
  free := by simp [start, AxiDmaRdBursts.reset]
  cmd := by simp [start, AxiDmaRdBursts.reset]
  ready := by simp [start, AxiDmaRdBursts.reset]
  reading := ⟨0, by simp [start, AxiDmaRdBursts.reset], fun _ => rfl, ⟨0, rfl⟩, rfl⟩
  finished := rfl
  accepted := rfl

variable {s : DmaRdRun} {i : DmaRdCycle}

/-- The beats of a slot. -/
theorem burst_eq {desc : ReadDesc} (h : SlotDesc desc) : burst desc = (desc.addr, 255) := by
  rw [burst, h.2]
  rfl

/-- The address of a slot is a multiple of the bus width. -/
theorem SlotDesc.aligned {desc : ReadDesc} (h : SlotDesc desc) : desc.addr >>> 3 <<< 3 = desc.addr := by
  apply BitVec.eq_of_toNat_eq
  have hslot : desc.addr.toNat % 2048 = 0 := h.1
  have hlt := desc.addr.isLt
  simp only [BitVec.toNat_shiftLeft, BitVec.toNat_ushiftRight, Nat.shiftLeft_eq, Nat.shiftRight_eq_div_pow]
  omega

/-- In `AXI_STATE_START` the whole slot is asked for. -/
theorem Tracked.trWordCount (h : s.Tracked) (hstart : s.engine.axiStart = true) : s.engine.trWordCount = 2048 := by
  obtain ⟨hop, haddr⟩ := h.starting hstart
  rw [AxiDmaRdBursts.trWordCount, hop, burstBytes_eq haddr (Nat.le_refl _)]

/-- The bursts that wait for their address to be taken, after a cycle. -/
theorem Tracked.asked_step (h : s.Tracked) (hlegal : s.Legal i) :
    (if s.engine.arHs i then [(s.engine.araddr, s.engine.arlen)] else []) ++ asked (s.step i).engine =
      asked s.engine ++ (s.engine.accepts i).toList.map burst := by
  have haddr : (s.step i).engine.addr = match s.engine.accepts i with
    | some desc => desc.addr >>> 3 <<< 3
    | none => if s.engine.requests then s.engine.addr + BitVec.ofNat 32 s.engine.trWordCount else s.engine.addr := rfl
  cases hstart : s.engine.axiStart with
  | true =>
    have haccepts : s.engine.accepts i = none := by simp [AxiDmaRdBursts.accepts, hstart]
    have htr := h.trWordCount hstart
    have hop := (h.starting hstart).1
    cases har : s.engine.arvalid with
    | true =>
      have hrequests : s.engine.requests = false := by simp [AxiDmaRdBursts.requests, har]
      cases hready : i.arready <;>
        simp [asked, step, AxiDmaRdBursts.step, AxiDmaRdBursts.arHs, hstart, haccepts, har, hrequests, hready]
    | false =>
      have hrequests : s.engine.requests = true := by simp [AxiDmaRdBursts.requests, hstart, har]
      simp [asked, step, AxiDmaRdBursts.step, AxiDmaRdBursts.arHs, hstart, haccepts, har, hrequests, htr, hop]
  | false =>
    have hrequests : s.engine.requests = false := by simp [AxiDmaRdBursts.requests, hstart]
    cases haccepts : s.engine.accepts i with
    | none =>
      cases har : s.engine.arvalid <;> cases hready : i.arready <;>
        simp [asked, step, AxiDmaRdBursts.step, AxiDmaRdBursts.arHs, hstart, haccepts, har, hrequests, hready]
    | some desc =>
      have hslot := hlegal.desc desc haccepts
      have haligned := hslot.aligned
      cases har : s.engine.arvalid <;> cases hready : i.arready <;>
        simp [asked, step, AxiDmaRdBursts.step, AxiDmaRdBursts.arHs, hstart, haccepts, har, hrequests, hready,
          haligned, burst_eq hslot]

/-- Every burst whose address waits is one of a slot. -/
theorem Tracked.arlen_eq (h : s.Tracked) (har : s.engine.arvalid = true) : s.engine.arlen = 255 := by
  have hmem : (s.engine.araddr, s.engine.arlen) ∈ s.descs.map burst := by
    rw [← h.order, asked, if_pos har]
    simp
  obtain ⟨desc, hdesc, heq⟩ := List.mem_map.mp hmem
  rw [burst_eq (h.slots desc hdesc)] at heq
  exact (Prod.mk.inj heq).2.symm

/-- The bursts that become due. -/
theorem Tracked.due_new (h : s.Tracked) (i : DmaRdCycle) :
    (if s.engine.arHs i then [s.engine.arlen + 1] else []) = List.replicate (s.engine.arHs i).toNat 256 := by
  cases har : s.engine.arHs i with
  | false => rfl
  | true =>
    have hvalid : s.engine.arvalid = true := (Bool.and_eq_true_iff.mp har).1
    rw [if_pos rfl, h.arlen_eq hvalid]
    rfl

/-- The lengths of the two records after a cycle without the end of a burst. -/
theorem popped_step_of_not (hpopped : s.popped + s.due.length = s.ar.length) (hlast : s.rlastHs i = false)
    (hlength : (if s.engine.rHs i then delivered s.due else s.due).length = s.due.length) :
    (s.step i).popped + (s.step i).due.length = (s.step i).ar.length := by
  have hnew : (s.step i).due.length = s.due.length + (s.engine.arHs i).toNat := by
    rw [← hlength]
    cases har : s.engine.arHs i <;> simp [step, har]
  have har : (s.step i).ar.length = s.ar.length + (s.engine.arHs i).toNat := by
    cases har : s.engine.arHs i <;> simp [step, har]
  have hpop : (s.step i).popped = s.popped := by simp [step, hlast]
  omega

/-- No transfer runs: the next one starts with all its beats to come. -/
theorem progress_of_idle (h : s.Tracked) {k : ℕ} (hp : s.Progress k) (hread : s.engine.axisRead = false) :
    (s.step i).Progress 0 ∧ s.rlastHs i = s.engine.finishes i := by
  have hk : k = 0 := hp.idle hread
  have hrready : s.engine.rready = false := by
    cases hr : s.engine.rready with
    | false => rfl
    | true => exact absurd (h.ready hr) (by simp [hread])
  have hrHs : s.engine.rHs i = false := by simp [AxiDmaRdBursts.rHs, hrready]
  have hlast : s.rlastHs i = false := by simp [rlastHs, hrHs]
  have hfin : s.engine.finishes i = false := by simp [AxiDmaRdBursts.finishes, AxiDmaRdBursts.transfers, hread]
  subst hk
  obtain ⟨m, hdue⟩ := hp.due
  refine ⟨⟨fun hread' => ?_, fun _ => rfl, ⟨m + (s.engine.arHs i).toNat, ?_⟩, ?_⟩, by rw [hlast, hfin]⟩
  · have hcmd : s.engine.axisCmdValid = true := by simpa [step, AxiDmaRdBursts.step, hread] using hread'
    obtain ⟨hinput, houtput⟩ := h.cmd hcmd
    constructor <;> simp [step, AxiDmaRdBursts.step, hread, hinput, houtput]
  · have hstep : (s.step i).due = s.due ++ if s.engine.arHs i then [s.engine.arlen + 1] else [] := by
      simp [step, hrHs]
    rw [hstep, h.due_new i, hdue, if_pos rfl, List.nil_append, List.replicate_append_replicate]
    rfl
  · exact popped_step_of_not hp.popped hlast (by simp [hrHs])

/-- A transfer waits for its next beat. -/
theorem progress_of_wait (h : s.Tracked) {k : ℕ} (hp : s.Progress k) (hread : s.engine.axisRead = true)
    (hrHs : s.engine.rHs i = false) : (s.step i).Progress k ∧ s.rlastHs i = s.engine.finishes i := by
  have hr := hp.busy hread
  have htransfers : s.engine.transfers i = false := by simp [AxiDmaRdBursts.transfers, hrHs, hr.inputActive]
  have hfin : s.engine.finishes i = false := by simp [AxiDmaRdBursts.finishes, htransfers]
  have hlast : s.rlastHs i = false := by simp [rlastHs, hrHs]
  have hread' : (s.step i).engine.axisRead = true := by simp [step, AxiDmaRdBursts.step, hread, hfin]
  obtain ⟨m, hdue⟩ := hp.due
  refine ⟨⟨fun _ => ?_, fun hidle => absurd hidle (by simp [hread']), ⟨m + (s.engine.arHs i).toNat, ?_⟩, ?_⟩,
    by rw [hlast, hfin]⟩
  · constructor <;>
      simp [step, AxiDmaRdBursts.step, AxiDmaRdBursts.inputActiveNext, AxiDmaRdBursts.outputCycleCountNext, hread,
        htransfers, hr.fits, hr.input, hr.output, hr.inputActive, hr.outputActive, hr.lastCycle]
  · have hstep : (s.step i).due = s.due ++ if s.engine.arHs i then [s.engine.arlen + 1] else [] := by
      simp [step, hrHs]
    rw [hstep, h.due_new i, hdue, List.append_assoc, List.replicate_append_replicate]
  · exact popped_step_of_not hp.popped hlast (by simp [hrHs])

/-- What is left of the oldest burst, while a transfer has beats to come. -/
theorem delivered_of_progress {k : ℕ} (hp : s.Progress k) (hne : s.due ≠ []) (hk : k < 255) :
    ∃ m, delivered s.due = (255 - k) :: List.replicate m 256 ∧ s.rlast = false ∧
      (delivered s.due).length = s.due.length := by
  obtain ⟨m, hdue⟩ := hp.due
  by_cases hzero : k = 0
  · subst hzero
    cases m with
    | zero => exact absurd hdue hne
    | succ m =>
      have hdue' : s.due = 256 :: List.replicate m 256 := hdue
      exact ⟨m, by simp [hdue', delivered], by simp [rlast, hdue'], by simp [hdue', delivered]⟩
  · have hdue' : s.due = (256 - k) :: List.replicate m 256 := by simpa [hzero] using hdue
    have hleft : 256 - k ≠ 1 := by omega
    have hnext : 256 - k - 1 = 255 - k := by omega
    exact ⟨m, by simp [hdue', delivered, hleft, hnext], by simpa [rlast, hdue'] using hleft,
      by simp [hdue', delivered, hleft]⟩

/-- A beat that is not the last one of its slot. -/
theorem progress_of_beat (h : s.Tracked) {k : ℕ} (hp : s.Progress k) (hread : s.engine.axisRead = true)
    (hrHs : s.engine.rHs i = true) (hne : s.due ≠ []) (hk : k < 255) :
    (s.step i).Progress (k + 1) ∧ s.rlastHs i = s.engine.finishes i := by
  have hr := hp.busy hread
  have htransfers : s.engine.transfers i = true := by simp [AxiDmaRdBursts.transfers, hread, hrHs]
  have hmore : s.engine.outputLastCycle = false := by
    rw [hr.lastCycle]
    exact decide_eq_false (by omega)
  have hfin : s.engine.finishes i = false := by simp [AxiDmaRdBursts.finishes, hmore]
  have hread' : (s.step i).engine.axisRead = true := by simp [step, AxiDmaRdBursts.step, hread, hfin]
  have hinput := hr.input
  have houtput := hr.output
  obtain ⟨m, hdelivered, hrlast, hlength⟩ := delivered_of_progress hp hne hk
  have hlast : s.rlastHs i = false := by simp [rlastHs, hrlast]
  refine ⟨⟨fun _ => ?_, fun hidle => absurd hidle (by simp [hread']), ⟨m + (s.engine.arHs i).toNat, ?_⟩, ?_⟩,
    by rw [hlast, hfin]⟩
  · have hpos : 0 < s.engine.inputCycleCount ∧ 0 < s.engine.outputCycleCount := by omega
    refine ⟨by omega, ?_, ?_, ?_, ?_, ?_⟩ <;>
      simp [step, AxiDmaRdBursts.step, AxiDmaRdBursts.inputActiveNext, AxiDmaRdBursts.outputCycleCountNext, hread,
        htransfers, hr.inputActive, hr.outputActive, hpos] <;>
      omega
  · have hstep : (s.step i).due = delivered s.due ++ if s.engine.arHs i then [s.engine.arlen + 1] else [] := by
      simp [step, hrHs]
    have hleft : 256 - (k + 1) = 255 - k := by omega
    rw [hstep, h.due_new i, hdelivered, if_neg k.succ_ne_zero, hleft, List.cons_append,
      List.replicate_append_replicate]
    rfl
  · exact popped_step_of_not hp.popped hlast (by rw [if_pos hrHs, hlength])

/-- The last beat of a slot ends its burst and its transfer. -/
theorem progress_of_last (h : s.Tracked) (hp : s.Progress 255) (hread : s.engine.axisRead = true)
    (hrHs : s.engine.rHs i = true) : (s.step i).Progress 0 ∧ s.rlastHs i = s.engine.finishes i := by
  have hr := hp.busy hread
  have htransfers : s.engine.transfers i = true := by simp [AxiDmaRdBursts.transfers, hread, hrHs]
  have hmore : s.engine.outputLastCycle = true := by simp [hr.lastCycle]
  have hfin : s.engine.finishes i = true := by simp [AxiDmaRdBursts.finishes, htransfers, hmore]
  have hread' : (s.step i).engine.axisRead = false := by simp [step, AxiDmaRdBursts.step, hread, hfin]
  obtain ⟨m, hdue⟩ := hp.due
  have hdue' : s.due = 1 :: List.replicate m 256 := hdue
  have hlast : s.rlastHs i = true := by simp [rlastHs, rlast, hdue', hrHs]
  have hstep : (s.step i).due = List.replicate (m + (s.engine.arHs i).toNat) 256 := by
    have hnew : (s.step i).due = delivered s.due ++ if s.engine.arHs i then [s.engine.arlen + 1] else [] := by
      simp [step, hrHs]
    rw [hnew, h.due_new i, hdue', ← List.replicate_append_replicate]
    rfl
  refine ⟨⟨fun hbusy => absurd hbusy (by simp [hread']), fun _ => rfl, ⟨_, hstep⟩, ?_⟩, by rw [hlast, hfin]⟩
  have hlength : s.due.length = m + 1 := by simp [hdue']
  have har : (s.step i).ar.length = s.ar.length + (s.engine.arHs i).toNat := by
    cases har : s.engine.arHs i <;> simp [step, har]
  have hpop : (s.step i).popped = s.popped + 1 := by simp [step, hlast]
  have hpopped := hp.popped
  rw [hstep, List.length_replicate]
  omega

/-- A cycle keeps the counters and what is due in step, and a burst ends with its transfer. -/
theorem Tracked.reading_step (h : s.Tracked) (hlegal : s.Legal i) :
    (∃ k, (s.step i).Progress k) ∧ s.rlastHs i = s.engine.finishes i := by
  obtain ⟨k, hp⟩ := h.reading
  cases hread : s.engine.axisRead with
  | false => exact (progress_of_idle h hp hread).imp (fun hnext => ⟨0, hnext⟩) id
  | true =>
    cases hrHs : s.engine.rHs i with
    | false => exact (progress_of_wait h hp hread hrHs).imp (fun hnext => ⟨k, hnext⟩) id
    | true =>
      have hne : s.due ≠ [] := hlegal.rvalid (Bool.and_eq_true_iff.mp hrHs).2
      have hk := (hp.busy hread).fits
      by_cases hlast : k = 255
      · subst hlast
        exact (progress_of_last h hp hread hrHs).imp (fun hnext => ⟨0, hnext⟩) id
      · exact (progress_of_beat h hp hread hrHs hne (by omega)).imp (fun hnext => ⟨k + 1, hnext⟩) id

/-- What is known holds after every cycle. -/
theorem Tracked.step (h : s.Tracked) (hlegal : s.Legal i) : (s.step i).Tracked where
  slots := by
    intro desc hdesc
    rcases List.mem_append.mp hdesc with hold | hnew
    · exact h.slots desc hold
    · exact hlegal.desc desc (Option.mem_toList.mp hnew)
  order := by
    have hasked := h.asked_step hlegal
    calc (s.step i).ar ++ asked (s.step i).engine
        = s.ar ++ (asked s.engine ++ (s.engine.accepts i).toList.map burst) := by
          rw [← hasked, ← List.append_assoc]
          rfl
      _ = (s.step i).descs.map burst := by
          rw [← List.append_assoc, h.order, ← List.map_append]
          rfl
  starting := by
    intro hstart
    cases hold : s.engine.axiStart with
    | true =>
      have haccepts : s.engine.accepts i = none := by simp [AxiDmaRdBursts.accepts, hold]
      have hop := (h.starting hold).1
      cases hrequests : s.engine.requests with
      | true => simp [DmaRdRun.step, AxiDmaRdBursts.step, hold, hrequests, hop, h.trWordCount hold] at hstart
      | false => simpa [DmaRdRun.step, AxiDmaRdBursts.step, haccepts, hrequests] using h.starting hold
    | false =>
      cases haccepts : s.engine.accepts i with
      | none => simp [DmaRdRun.step, AxiDmaRdBursts.step, hold, haccepts] at hstart
      | some desc =>
        have hslot := hlegal.desc desc haccepts
        simp only [DmaRdRun.step, AxiDmaRdBursts.step, haccepts, hslot.aligned, hslot.2]
        exact ⟨rfl, hslot.1⟩
  free := by
    intro hready
    cases hold : s.engine.axiStart with
    | true =>
      have haccepts : s.engine.accepts i = none := by simp [AxiDmaRdBursts.accepts, hold]
      have hcmd : s.engine.axisCmdValid = false := by
        simp [DmaRdRun.step, AxiDmaRdBursts.step, hold] at hready
        exact hready.2
      simp [DmaRdRun.step, AxiDmaRdBursts.step, haccepts, hcmd]
    | false =>
      have hnone : s.engine.accepts i = none ∧ s.engine.axisCmdValid = false := by
        simpa [DmaRdRun.step, AxiDmaRdBursts.step, hold] using hready
      simp [DmaRdRun.step, AxiDmaRdBursts.step, hnone]
  cmd := by
    intro hcmd
    cases haccepts : s.engine.accepts i with
    | none =>
      have hold : s.engine.axisCmdValid = true ∧ s.engine.axisRead = true := by
        simpa [DmaRdRun.step, AxiDmaRdBursts.step, haccepts] using hcmd
      simpa [DmaRdRun.step, AxiDmaRdBursts.step, haccepts] using h.cmd hold.1
    | some desc =>
      have hslot := hlegal.desc desc haccepts
      simp [DmaRdRun.step, AxiDmaRdBursts.step, haccepts, hslot.2]
  ready := by
    intro hrready
    cases hread : s.engine.axisRead with
    | true =>
      cases hfin : s.engine.finishes i with
      | true => simp [DmaRdRun.step, AxiDmaRdBursts.step, hread, hfin] at hrready
      | false => simp [DmaRdRun.step, AxiDmaRdBursts.step, hread, hfin]
    | false =>
      simp [DmaRdRun.step, AxiDmaRdBursts.step, hread] at hrready
      simp [DmaRdRun.step, AxiDmaRdBursts.step, hread, hrready.1]
  reading := (h.reading_step hlegal).1
  finished := by
    show s.popped + (s.rlastHs i).toNat = s.finished + (s.engine.finishes i).toNat
    rw [h.finished, (h.reading_step hlegal).2]
  accepted := by
    have haccepted := h.accepted
    have hfinishes : s.engine.finishes i = true → s.engine.axisRead = true := by
      simp only [AxiDmaRdBursts.finishes, AxiDmaRdBursts.transfers, Bool.and_eq_true]
      exact fun hfin => hfin.1.1
    cases haccepts : s.engine.accepts i with
    | none =>
      cases hread : s.engine.axisRead <;> cases hcmd : s.engine.axisCmdValid <;> cases hfin : s.engine.finishes i <;>
        simp_all [DmaRdRun.step, AxiDmaRdBursts.step]
    | some desc =>
      have hready : s.engine.readDescReady = true := by
        by_contra hnot
        simp [AxiDmaRdBursts.accepts, hnot] at haccepts
      have hcmd := h.free hready
      cases hread : s.engine.axisRead <;> cases hfin : s.engine.finishes i <;>
        simp_all [DmaRdRun.step, AxiDmaRdBursts.step]

end DmaRdRun

end UdpIpCore
