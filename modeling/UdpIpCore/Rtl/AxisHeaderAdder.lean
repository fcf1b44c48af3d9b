import UdpIpCore.Rtl.Axis

/-!
# The header adder

`axis_header_adder` puts five words with the fields of the UDP header in front of the
payload it forwards. The words are read from the live `hdr_*` inputs, one per accepted
beat. The module's `hdr_valid` input is not read by any statement.
-/

namespace UdpIpCore

/-- The header fields the UDP stack presents. -/
structure UdpHeader where
  sourceIp : BitVec 32
  sourcePort : BitVec 16
  destIp : BitVec 32
  destPort : BitVec 16
  udpLength : BitVec 16
deriving DecidableEq, Repr

namespace UdpHeader

/-- The word selected by `count_header`; the length is reduced in 32-bit arithmetic. -/
def word (h : UdpHeader) (countHeader : ℕ) : BitVec 64 :=
  match countHeader with
  | 0 => (h.udpLength.setWidth 32 - 8).setWidth 64
  | 1 => h.sourceIp.setWidth 64
  | 2 => h.sourcePort.setWidth 64
  | 3 => h.destIp.setWidth 64
  | 4 => h.destPort.setWidth 64
  | _ => 0

/-- The beat that carries a header word. -/
def beat (h : UdpHeader) (countHeader : ℕ) : Beat := ⟨h.word countHeader, 0xFF, false, false⟩

/-- `HEADER_NUM_WORDS`. -/
abbrev numWords : ℕ := 5

/-- The header as it precedes a payload. -/
def beats (h : UdpHeader) : List Beat := (List.range numWords).map h.beat

/-- The header in front of the payload has one beat per word. -/
theorem length_beats (h : UdpHeader) : h.beats.length = numWords := by simp [beats]

/-- One more word extends the part of the header sent so far. -/
theorem take_beats_succ (h : UdpHeader) {n : ℕ} (hn : n < numWords) :
    h.beats.take n ++ [h.beat n] = h.beats.take (n + 1) := by
  have hlength : n < h.beats.length := by rw [length_beats]; exact hn
  rw [← List.take_append_getElem hlength]
  simp [beats]

end UdpHeader

inductive AdderState
  | idle
  | forwHdr
  | forwPyl
deriving DecidableEq, Repr

/-- The registers of `axis_header_adder`. -/
structure AxisHeaderAdder (R : AxisRegister) where
  state : AdderState
  countHeader : BitVec 3
  axisRegister : R.State

/-- The inputs of one cycle. -/
structure AdderIn where
  hdrValidPort : Bool
  hdr : UdpHeader
  payload : Option Beat
  mAxisTready : Bool

namespace AxisHeaderAdder

variable {R : AxisRegister}

/-- The state after `rst`. -/
def reset (R : AxisRegister) : AxisHeaderAdder R := ⟨.idle, 0, R.reset⟩

/-- `axis_forwarded_tready`. -/
def forwardedTready (a : AxisHeaderAdder R) : Bool := R.tready a.axisRegister

/-- `hdr_ready`. -/
def hdrReady (a : AxisHeaderAdder R) : Bool :=
  match a.state with
  | .idle => a.forwardedTready
  | .forwHdr | .forwPyl => false

/-- `s_axis_payload_tready`. -/
def payloadTready (a : AxisHeaderAdder R) : Bool :=
  match a.state with
  | .forwPyl => a.forwardedTready
  | .idle | .forwHdr => false

/-- The beat offered to the output register. -/
def axisForwarded (a : AxisHeaderAdder R) (i : AdderIn) : Option Beat :=
  match a.state with
  | .idle => none
  | .forwHdr => some (i.hdr.beat a.countHeader.toNat)
  | .forwPyl => i.payload

/-- `payload_last`. -/
def payloadLast (a : AxisHeaderAdder R) (payload : Option Beat) : Bool :=
  a.payloadTready && payload.any Beat.tlast

/-- The next state of the FSM. -/
def stateNext (a : AxisHeaderAdder R) (i : AdderIn) : AdderState :=
  match a.state with
  | .idle => if a.hdrReady && i.hdrValidPort then .forwHdr else .idle
  | .forwHdr => if a.countHeader = 4 ∧ a.forwardedTready = true then .forwPyl else .forwHdr
  | .forwPyl => if a.payloadLast i.payload then .idle else .forwPyl

/-- The header words sent so far; the counter is cleared outside `STATE_FORW_HDR`. -/
def countHeaderNext (a : AxisHeaderAdder R) : BitVec 3 :=
  if a.state = .forwHdr then
    if a.forwardedTready then a.countHeader + 1 else a.countHeader
  else 0

/-- One clock edge with `rst` low. -/
def step (a : AxisHeaderAdder R) (i : AdderIn) : AxisHeaderAdder R where
  state := a.stateNext i
  countHeader := a.countHeaderNext
  axisRegister := R.step a.axisRegister (a.axisForwarded i) i.mAxisTready

end AxisHeaderAdder

end UdpIpCore
