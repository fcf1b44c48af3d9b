import UdpIpCore.Rtl.AxisHeaderAdder

/-!
# The header remover

`axis_header_remover` splits a slot of the TX ring into the five header words, which it
captures in registers, and the payload, which it forwards as far as `hdr_udp_length`
reaches; the rest of the slot is consumed without being forwarded.
-/

namespace UdpIpCore

inductive RemoverState
  | header
  | payload
deriving DecidableEq, Repr

/-- The registers of `axis_header_remover`. -/
structure AxisHeaderRemover (R : AxisRegister) where
  state : RemoverState
  countHeader : BitVec 3
  hdrValid : Bool
  hdr : UdpHeader
  transfCount : BitVec 9
  axisRegister : R.State

/-- The inputs of one cycle; `tdata` is on the lines whether or not `tvalid` is high. -/
structure RemoverIn where
  tvalid : Bool
  tdata : BitVec 64
  tkeep : BitVec 8
  tlast : Bool
  tuser : Bool
  hdrReady : Bool
  mAxisTready : Bool

namespace UdpHeader

/-- The header registers after a cycle of `STATE_HEADER`: the selected one follows the lines. -/
def capture (h : UdpHeader) (countHeader : ℕ) (tdata : BitVec 64) : UdpHeader where
  udpLength := if countHeader = 0 then tdata.setWidth 16 else h.udpLength
  sourceIp := if countHeader = 1 then tdata.setWidth 32 else h.sourceIp
  sourcePort := if countHeader = 2 then tdata.setWidth 16 else h.sourcePort
  destIp := if countHeader = 3 then tdata.setWidth 32 else h.destIp
  destPort := if countHeader = 4 then tdata.setWidth 16 else h.destPort

end UdpHeader

namespace AxisHeaderRemover

variable {R : AxisRegister}

/-- `transf_last`, in the 32-bit arithmetic of its comparison. -/
def transfLast (udpLength : BitVec 16) (transfCount : ℕ) : Bool :=
  !decide (BitVec.ofNat 32 (transfCount * 8) < udpLength.setWidth 32 - 8)

/-- `transf_done`. -/
def transfDone (udpLength : BitVec 16) (transfCount : ℕ) : Bool :=
  !decide (transfCount * 8 < udpLength.toNat)

/-- `axis_forwarded_tkeep`. -/
def forwardedTkeep (udpLength : BitVec 16) (transfCount : ℕ) (tkeep : BitVec 8) : BitVec 8 :=
  if BitVec.ofNat 32 transfCount ≤ BitVec.ofNat 32 (udpLength.toNat / 8) - 1 then tkeep
  else ((1 : BitVec 32) <<< (udpLength.setWidth 32 - BitVec.ofNat 32 (transfCount * 8)) - 1).setWidth 8

/-- What is forwarded of the beat with the given number in the payload, if anything. -/
def forwarded (udpLength : BitVec 16) (transfCount : ℕ) (b : Beat) : Option Beat :=
  if transfDone udpLength transfCount then none
  else some ⟨b.tdata, forwardedTkeep udpLength transfCount b.tkeep,
    b.tlast || transfLast udpLength transfCount, b.tuser⟩

/-- The state after configuration, with `hdr_valid` low. -/
def reset (R : AxisRegister) : AxisHeaderRemover R := ⟨.header, 0, false, ⟨0, 0, 0, 0, 0⟩, 0, R.reset⟩

/-- `s_axis_tready`. -/
def tready (r : AxisHeaderRemover R) : Bool := R.tready r.axisRegister

/-- `s_axis_consumed`. -/
def consumed (r : AxisHeaderRemover R) (i : RemoverIn) : Bool := r.tready && i.tvalid

/-- The beat offered to the output register. -/
def axisForwarded (r : AxisHeaderRemover R) (i : RemoverIn) : Option Beat :=
  match r.state with
  | .header => none
  | .payload =>
    if i.tvalid then forwarded r.hdr.udpLength r.transfCount.toNat ⟨i.tdata, i.tkeep, i.tlast, i.tuser⟩
    else none

/-- The last header word is taken. -/
def completes (r : AxisHeaderRemover R) (i : RemoverIn) : Bool :=
  r.state = .header && r.countHeader = 4 && r.consumed i

/-- One clock edge with `rst` low. -/
def step (r : AxisHeaderRemover R) (i : RemoverIn) : AxisHeaderRemover R where
  state :=
    match r.state with
    | .header => if r.completes i then .payload else .header
    | .payload => if r.consumed i && i.tlast then .header else .payload
  countHeader :=
    if r.state = .header then
      if r.consumed i then r.countHeader + 1 else r.countHeader
    else 0
  hdrValid := if r.completes i then true else if i.hdrReady then false else r.hdrValid
  hdr := if r.state = .header then r.hdr.capture r.countHeader.toNat i.tdata else r.hdr
  transfCount :=
    if r.state = .payload then
      if r.consumed i then r.transfCount + 1 else r.transfCount
    else 0
  axisRegister := R.step r.axisRegister (r.axisForwarded i) i.mAxisTready

end AxisHeaderRemover

end UdpIpCore
