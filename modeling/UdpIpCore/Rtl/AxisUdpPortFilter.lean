import UdpIpCore.Rtl.Axis

/-!
# The UDP port filter

`axis_udp_port_filter` checks the destination port of each header against the port range
and the open sockets, then forwards or discards the payload that follows. The module
takes a `dma_done_i` input and its description makes `IDLE` wait for it; no statement of
the module reads it, so it does not appear here.
-/

namespace UdpIpCore

/-- Number of RX buffers, one per port of the range. -/
abbrev maxUdpPorts : ℕ := 1024

/-- Index of an RX buffer, `[log2(MAX_UDP_PORTS)-1 : 0]`. -/
abbrev BufferIdx := BitVec 10

inductive FilterState
  | idle
  | checkPort
  | forward
  | discard
deriving DecidableEq, Repr

/-- The registers of `axis_udp_port_filter`. -/
structure AxisUdpPortFilter (R : AxisRegister) where
  state : FilterState
  bufferSelectIdx : BufferIdx
  validUdpPort : Bool
  axisRegister : R.State

/-- The configuration inputs that decide whether a port is open. -/
structure PortConfig where
  udpPortRangeLower : BitVec 16
  udpPortRangeUpper : BitVec 16
  openSocketsVector : BitVec maxUdpPorts
deriving DecidableEq

namespace PortConfig

/-- `buffer_offset_for_current_port`: the difference, truncated to the index width. -/
def bufferOffset (c : PortConfig) (hdrDestPort : BitVec 16) : BufferIdx :=
  (hdrDestPort - c.udpPortRangeLower).setWidth 10

/-- `valid_udp_port`. -/
def validUdpPort (c : PortConfig) (hdrDestPort : BitVec 16) : Bool :=
  decide (c.udpPortRangeLower ≤ hdrDestPort) && decide (hdrDestPort ≤ c.udpPortRangeUpper) &&
    c.openSocketsVector.getLsbD (c.bufferOffset hdrDestPort).toNat

/-- The purpose of the test: the port is in the range and the socket bit of its own offset is set. -/
def openPort (c : PortConfig) (port : BitVec 16) : Bool :=
  decide (c.udpPortRangeLower ≤ port) && decide (port ≤ c.udpPortRangeUpper) &&
    c.openSocketsVector.getLsbD (port.toNat - c.udpPortRangeLower.toNat)

/-- The port is rejected or has an RX buffer of its own: its offset is not truncated. -/
def InWindow (c : PortConfig) (port : BitVec 16) : Prop :=
  c.validUdpPort port = true → port.toNat - c.udpPortRangeLower.toNat < maxUdpPorts

instance (c : PortConfig) (port : BitVec 16) : Decidable (c.InWindow port) :=
  inferInstanceAs (Decidable (_ → _))

/-- Above the lower bound the offset is the difference modulo the number of buffers. -/
theorem toNat_bufferOffset_mod {c : PortConfig} {port : BitVec 16} (h : c.udpPortRangeLower ≤ port) :
    (c.bufferOffset port).toNat = (port.toNat - c.udpPortRangeLower.toNat) % maxUdpPorts := by
  rw [BitVec.le_def] at h
  have hport := port.isLt
  rw [bufferOffset, BitVec.toNat_setWidth, BitVec.toNat_sub, maxUdpPorts]
  omega

/-- An accepted port inside the window selects its own buffer. -/
theorem toNat_bufferOffset {c : PortConfig} {port : BitVec 16} (hwindow : c.InWindow port)
    (hvalid : c.validUdpPort port = true) :
    (c.bufferOffset port).toNat = port.toNat - c.udpPortRangeLower.toNat := by
  have hbound := hwindow hvalid
  simp only [validUdpPort, Bool.and_eq_true, decide_eq_true_eq] at hvalid
  rw [toNat_bufferOffset_mod hvalid.1.1, Nat.mod_eq_of_lt hbound]

/-- Inside the window the hardware test is the intended one. -/
theorem validUdpPort_eq_openPort {c : PortConfig} {port : BitVec 16} (hwindow : c.InWindow port) :
    c.validUdpPort port = c.openPort port := by
  by_cases hlower : c.udpPortRangeLower ≤ port
  · by_cases hbound : port.toNat - c.udpPortRangeLower.toNat < maxUdpPorts
    · rw [validUdpPort, openPort, toNat_bufferOffset_mod hlower, Nat.mod_eq_of_lt hbound]
    · have hinvalid : c.validUdpPort port = false := by
        by_contra hvalid
        exact hbound (hwindow (by simpa using hvalid))
      rw [hinvalid, openPort, BitVec.getLsbD_of_ge _ _ (Nat.le_of_not_lt hbound), Bool.and_false]
  · simp [validUdpPort, openPort, hlower]

end PortConfig

/-- The inputs of one cycle; `payload` is `s_axis_payload` with its `tvalid`. -/
structure FilterIn where
  config : PortConfig
  hdrValid : Bool
  hdrDestPort : BitVec 16
  payload : Option Beat
  mAxisTready : Bool

namespace AxisUdpPortFilter

variable {R : AxisRegister}

/-- The state after `rst`, with no header seen. -/
def reset (R : AxisRegister) : AxisUdpPortFilter R where
  state := .idle
  bufferSelectIdx := 0
  validUdpPort := false
  axisRegister := R.reset

/-- `s_axis_payload_tready`. -/
def payloadTready (f : AxisUdpPortFilter R) : Bool :=
  match f.state with
  | .forward => R.tready f.axisRegister
  | .checkPort => false
  | .discard => true
  | .idle => R.tready f.axisRegister

/-- The beat offered to the output register, valid only in `STATE_FORWARD`. -/
def axisForwarded (f : AxisUdpPortFilter R) (payload : Option Beat) : Option Beat :=
  match f.state with
  | .forward => payload
  | _ => none

/-- A beat of the payload is accepted in this cycle. -/
def payloadAccepted (f : AxisUdpPortFilter R) (payload : Option Beat) : Bool :=
  f.payloadTready && payload.isSome

/-- `payload_last`. -/
def payloadLast (f : AxisUdpPortFilter R) (payload : Option Beat) : Bool :=
  f.payloadTready && payload.any Beat.tlast

/-- The next state of the FSM. -/
def stateNext (f : AxisUdpPortFilter R) (i : FilterIn) : FilterState :=
  match f.state with
  | .idle => if i.hdrValid then .checkPort else .idle
  | .checkPort => if i.config.validUdpPort i.hdrDestPort then .forward else .discard
  | .forward => if f.payloadLast i.payload then .idle else .forward
  | .discard => if f.payloadLast i.payload then .idle else .discard

/-- One clock edge with `rst` low. -/
def step (f : AxisUdpPortFilter R) (i : FilterIn) : AxisUdpPortFilter R where
  state := f.stateNext i
  bufferSelectIdx :=
    if f.state = .checkPort then i.config.bufferOffset i.hdrDestPort else f.bufferSelectIdx
  validUdpPort := i.config.validUdpPort i.hdrDestPort && i.hdrValid
  axisRegister := R.step f.axisRegister (f.axisForwarded i.payload) i.mAxisTready

end AxisUdpPortFilter

end UdpIpCore
