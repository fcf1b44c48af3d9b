import UdpIpCore.Rtl.Axis

/-!
# The write DMA

`axi_dma_wr` as the core instantiates it: 64-bit data, bursts of at most 256 beats, aligned
transfers, frames delimited by `tlast`. It takes a descriptor, requests a burst, copies the
beats of one frame into an output FIFO and returns to its idle state, where the next
descriptor may be accepted while beats of the last frame are still in the FIFO.
-/

namespace UdpIpCore

/-- The states of the FSM. -/
inductive DmaWrState
  | idle
  | start
  | write
  | finishBurst
  | dropData
deriving DecidableEq, Repr

/-- One beat of the W channel. -/
structure WBeat where
  wdata : BitVec 64
  wstrb : BitVec 8
  wlast : Bool
deriving DecidableEq, Repr

/-- The registers of `axi_dma_wr`. -/
structure AxiDmaWr where
  state : DmaWrState
  /-- `s_axis_write_desc_ready_reg`. -/
  descReady : Bool
  /-- `s_axis_write_data_tready_reg`. -/
  dataTready : Bool
  addr : BitVec 32
  opWordCount : ℕ
  lastCycleOffset : ℕ
  inputCycleCount : ℕ
  outputCycleCount : ℕ
  inputActive : Bool
  firstCycle : Bool
  outputLastCycle : Bool
  lastTransfer : Bool
  awvalid : Bool
  awaddr : BitVec 32
  awlen : ℕ
  activeCount : ℕ
  activeCountAv : Bool
  /-- The bursts in the status FIFO. -/
  statusCount : ℕ
  bready : Bool
  /-- The beats between `out_fifo_rd_ptr_reg` and `out_fifo_wr_ptr_reg`. -/
  outFifo : List WBeat
  outFifoHalfFull : Bool
  /-- The W channel register, while `m_axi_wvalid_reg`. -/
  wreg : Option WBeat
deriving DecidableEq

/-- What the AXI slave drives in one cycle. -/
structure AxiWriteSlave where
  awready : Bool
  wready : Bool
  bvalid : Bool

/-- A descriptor as it stands on `s_axis_write_desc`, valid or not. -/
structure WriteDesc where
  valid : Bool
  addr : BitVec 32
  len : BitVec 20
deriving DecidableEq

namespace AxiDmaWr

/-- The state after `rst`. -/
def reset : AxiDmaWr where
  state := .idle
  descReady := false
  dataTready := false
  addr := 0
  opWordCount := 0
  lastCycleOffset := 0
  inputCycleCount := 0
  outputCycleCount := 0
  inputActive := false
  firstCycle := false
  outputLastCycle := false
  lastTransfer := false
  awvalid := false
  awaddr := 0
  awlen := 0
  activeCount := 0
  activeCountAv := true
  statusCount := 0
  bready := false
  outFifo := []
  outFifoHalfFull := false
  wreg := none

/-- `AXI_MAX_BURST_SIZE`. -/
abbrev maxBurstSize : ℕ := 2048

/-- `m_axi_wready_int`. -/
def wreadyInt (e : AxiDmaWr) : Bool := !e.outFifoHalfFull

/-- A descriptor is accepted. -/
def accepts (e : AxiDmaWr) (desc : WriteDesc) : Bool := e.state = .idle && e.descReady && desc.valid

/-- `tr_word_count_next` in `STATE_START`. -/
def trWordCount (e : AxiDmaWr) : ℕ :=
  let addrInPage := e.addr.toNat % 4096
  if e.opWordCount ≤ maxBurstSize - e.addr.toNat % 8 then
    if (addrInPage + e.opWordCount % 4096) / 4096 ≠ 0 ∨ e.opWordCount / 4096 ≠ 0 then 4096 - addrInPage
    else e.opWordCount
  else if (addrInPage + maxBurstSize) / 4096 ≠ 0 then 4096 - addrInPage
  else maxBurstSize - e.addr.toNat % 8

/-- `STATE_START` requests a burst; the first one waits for the frame. -/
def starts (e : AxiDmaWr) (axis : Option Beat) : Bool :=
  e.state = .start && !e.awvalid && e.activeCountAv && (axis.isSome || !e.firstCycle)

/-- `STATE_WRITE` passes a beat to the output FIFO. -/
def writes (e : AxiDmaWr) (axis : Option Beat) : Bool :=
  e.state = .write && (e.dataTready && axis.isSome || !e.inputActive && !e.lastTransfer)

/-- A beat of the frame is taken. -/
def takes (e : AxiDmaWr) (axis : Option Beat) : Bool := e.dataTready && axis.isSome

/-- The stream inputs; nothing reads them while `tvalid` is low. -/
def axisLines (axis : Option Beat) : Beat := axis.getD ⟨0, 0, false, false⟩

/-- `STATE_FINISH_BURST` passes an empty beat to the output FIFO. -/
def fills (e : AxiDmaWr) : Bool := e.state = .finishBurst && e.wreadyInt

/-- `state_next`. -/
def stateNext (e : AxiDmaWr) (desc : WriteDesc) (axis : Option Beat) : DmaWrState :=
  match e.state with
  | .idle => if e.accepts desc then .start else .idle
  | .start => if e.starts axis then .write else .start
  | .write =>
    if e.writes axis then
      if (axisLines axis).tlast then
        if e.outputLastCycle then .idle else .finishBurst
      else if e.outputLastCycle then
        -- not at the end of the frame: another burst, or the rest is dropped
        if 0 < e.opWordCount then .start else .dropData
      else .write
    else .write
  | .finishBurst => if e.wreadyInt && e.outputLastCycle then .idle else .finishBurst
  | .dropData => if axis.any Beat.tlast then .idle else .dropData

/-- `input_active_next` in `STATE_WRITE`, once a beat is passed on. -/
def inputActiveNext (e : AxiDmaWr) : Bool :=
  if e.inputActive then decide (0 < e.inputCycleCount) else e.inputActive

/-- `s_axis_write_data_tready_next`. -/
def dataTreadyNext (e : AxiDmaWr) (axis : Option Beat) : Bool :=
  match e.state with
  | .idle | .finishBurst => false
  | .start => e.starts axis && e.wreadyInt
  | .write =>
    if e.writes axis then
      if (axisLines axis).tlast then false
      else if e.outputLastCycle then decide (e.opWordCount = 0)
      else e.wreadyInt && (e.lastTransfer || e.inputActiveNext)
    else e.wreadyInt && (e.lastTransfer || e.inputActive)
  | .dropData => !axis.any Beat.tlast

/-- The bytes of the last cycle, `{AXI_STRB_WIDTH{1'b1}} >> (AXI_STRB_WIDTH - last_cycle_offset)`. -/
def lastCycleMask (e : AxiDmaWr) : BitVec 8 := 0xFF >>> (8 - e.lastCycleOffset)

/-- `m_axi_wstrb_int` in `STATE_WRITE`. -/
def wstrbInt (e : AxiDmaWr) (axis : Option Beat) : BitVec 8 :=
  let beat := axisLines axis
  if beat.tlast then
    if e.outputLastCycle && e.lastTransfer && decide (0 < e.lastCycleOffset) &&
        decide (beat.tkeep &&& ~~~e.lastCycleMask ≠ 0) then e.lastCycleMask
    else beat.tkeep
  else if e.outputLastCycle && decide (e.opWordCount = 0) && decide (0 < e.lastCycleOffset) then
    e.lastCycleMask
  else 0xFF

/-- The beat offered to the output FIFO, `m_axi_w*_int` while `m_axi_wvalid_int`. -/
def wInt (e : AxiDmaWr) (axis : Option Beat) : Option WBeat :=
  if e.writes axis then some ⟨(axisLines axis).tdata, e.wstrbInt axis, e.outputLastCycle⟩
  else if e.fills then some ⟨0, 0, e.outputLastCycle⟩
  else none

/-- `status_fifo_we`: once for each burst. -/
def statusFifoWe (e : AxiDmaWr) (axis : Option Beat) : Bool :=
  e.writes axis && ((axisLines axis).tlast || e.outputLastCycle)

/-- `dec_active`: a write response is taken. -/
def decActive (e : AxiDmaWr) (slave : AxiWriteSlave) : Bool :=
  decide (e.statusCount ≠ 0) && e.bready && slave.bvalid

/-- The W register takes the next beat of the output FIFO. -/
def shifts (e : AxiDmaWr) (slave : AxiWriteSlave) : Bool :=
  decide (e.outFifo ≠ []) && (e.wreg.isNone || slave.wready)

/-- The beat that is handed over on the W channel. -/
def wHs (e : AxiDmaWr) (slave : AxiWriteSlave) : Option WBeat := if slave.wready then e.wreg else none

/-- `m_axi_wlast` with its handshake. -/
def wlastHs (e : AxiDmaWr) (slave : AxiWriteSlave) : Bool := (e.wHs slave).any WBeat.wlast

/-- The cycles of the burst `STATE_START` is about to request, less one. -/
def cycleCount (e : AxiDmaWr) : ℕ := (e.trWordCount - 1) / 8

/-- One clock edge with `rst` low. -/
def step (e : AxiDmaWr) (desc : WriteDesc) (axis : Option Beat) (slave : AxiWriteSlave) : AxiDmaWr where
  state := e.stateNext desc axis
  -- the ready flag is raised on every way into the idle state
  descReady := decide (e.stateNext desc axis = .idle) && e.activeCountAv
  dataTready := e.dataTreadyNext axis
  addr :=
    if e.state = .idle then desc.addr >>> 3 <<< 3
    else if e.starts axis then e.addr + BitVec.ofNat 32 e.trWordCount
    else e.addr
  opWordCount :=
    if e.state = .idle then desc.len.toNat
    else if e.starts axis then e.opWordCount - e.trWordCount
    else e.opWordCount
  lastCycleOffset := if e.state = .idle then desc.len.toNat % 8 else e.lastCycleOffset
  inputCycleCount :=
    if e.state = .start then e.cycleCount
    else if (e.writes axis || e.fills) && e.inputActive then e.inputCycleCount - 1
    else e.inputCycleCount
  outputCycleCount :=
    if e.state = .start then e.cycleCount
    else if e.writes axis || e.fills then e.outputCycleCount - 1
    else e.outputCycleCount
  inputActive :=
    if e.state = .start then true
    else if e.writes axis then !(axisLines axis).tlast && e.inputActiveNext
    else if e.fills then e.inputActiveNext
    else e.inputActive
  firstCycle := if e.state = .idle then true else if e.writes axis then false else e.firstCycle
  outputLastCycle :=
    if e.state = .start then decide (e.cycleCount = 0)
    else if e.writes axis || e.fills then decide (e.outputCycleCount - 1 = 0)
    else e.outputLastCycle
  lastTransfer := if e.state = .start then decide (e.trWordCount = e.opWordCount) else e.lastTransfer
  awvalid := e.starts axis || (e.awvalid && !slave.awready)
  awaddr := if e.state = .start ∧ e.awvalid = false ∧ e.activeCountAv = true then e.addr else e.awaddr
  awlen := if e.state = .start ∧ e.awvalid = false ∧ e.activeCountAv = true then e.cycleCount else e.awlen
  activeCount :=
    if e.activeCount < 32 ∧ e.starts axis = true ∧ e.decActive slave = false then e.activeCount + 1
    else if 0 < e.activeCount ∧ e.starts axis = false ∧ e.decActive slave = true then e.activeCount - 1
    else e.activeCount
  activeCountAv :=
    if e.activeCount < 32 ∧ e.starts axis = true ∧ e.decActive slave = false then decide (e.activeCount < 31)
    else if 0 < e.activeCount ∧ e.starts axis = false ∧ e.decActive slave = true then true
    else decide (e.activeCount < 32)
  statusCount := e.statusCount + (e.statusFifoWe axis).toNat - (e.decActive slave).toNat
  bready := decide (e.statusCount ≠ 0) && !(e.bready && slave.bvalid)
  outFifo :=
    (if e.shifts slave then e.outFifo.tail else e.outFifo) ++
      (if e.outFifo.length < 32 then (e.wInt axis).toList else [])
  outFifoHalfFull := decide (16 ≤ e.outFifo.length)
  wreg := if e.shifts slave then e.outFifo.head? else if slave.wready then none else e.wreg

end AxiDmaWr

end UdpIpCore
