import UdpIpCore.Rtl.AxisUdpPortFilter

/-!
# The configuration registers

The register file behind the AXI-lite port of the controller: the write decode of
`config_regs_AXI_Manager` with all byte strobes set, and its read decode. The kernel
control and interrupt registers are outside; what a read of them returns is an input.
-/

namespace UdpIpCore

/-- The address of a register access, `C_S_AXI_ADDR_WIDTH` bits. -/
abbrev RegAddr := BitVec 14

namespace RegAddr

def apCtrl : RegAddr := 0x00
def res : RegAddr := 0x08
def mac0 : RegAddr := 0x10
def mac1 : RegAddr := 0x18
def gw : RegAddr := 0x20
def snm : RegAddr := 0x28
def ipLoc : RegAddr := 0x30
def udpRangeL : RegAddr := 0x38
def udpRangeH : RegAddr := 0x40
def shmem : RegAddr := 0x48
def isr0 : RegAddr := 0x50
def ier0 : RegAddr := 0x58
def gie : RegAddr := 0x60
def buftxHead : RegAddr := 0x68
def buftxTail : RegAddr := 0x70
def buftxEmpty : RegAddr := 0x78
def buftxFull : RegAddr := 0x80
def buftxPushed : RegAddr := 0x88
def buftxPopped : RegAddr := 0x90

/-- `ADDR_BUFRX_OFFSET_0_N_I`, the control word of the first RX ring. -/
def bufrxOffset : ℕ := 0xA0

end RegAddr

/-- The positions in the control word of an RX ring. -/
abbrev bufferPoppedOffset : ℕ := 0
abbrev bufferPushedOffset : ℕ := 1
abbrev bufferFullOffset : ℕ := 2
abbrev bufferEmptyOffset : ℕ := 3
abbrev bufferTailOffset : ℕ := 4
abbrev bufferHeadOffset : ℕ := 9
abbrev bufferOpensockOffset : ℕ := 14

/-- The registers the PS writes. -/
structure ConfigRegs where
  userRst : Bool
  localMac : BitVec 48
  gatewayIp : BitVec 32
  subnetMask : BitVec 32
  localIp : BitVec 32
  udpPortRangeL : BitVec 32
  udpPortRangeH : BitVec 32
  sharedMem : BitVec 32
  extIer0 : BitVec 32
  bufrxTemp : BufferIdx → BitVec 32
  buftxPushed : Bool

/-- The ring signals shown in the control word of an RX ring. -/
structure RingStatus where
  pushed : Bool
  full : Bool
  empty : Bool
  tail : BitVec 5
  head : BitVec 5
deriving DecidableEq

/-- The signals a read can return that are not registers of `ConfigRegs`. -/
structure StatusInputs where
  bufrx : BufferIdx → RingStatus
  buftxHead : BitVec 5
  buftxTail : BitVec 5
  buftxEmpty : Bool
  buftxFull : Bool
  buftxPopped : Bool
  /-- `AP_CTRL`, `ISR0` and `GIE`. -/
  control : RegAddr → BitVec 32

/-- Every ring is empty, and nothing else is shown. -/
def StatusInputs.idle : StatusInputs := ⟨fun _ => ⟨false, false, true, 0, 0⟩, 0, 0, true, false, false, fun _ => 0⟩

namespace ConfigRegs

/-- The state after the power-on reset. -/
def reset : ConfigRegs := ⟨false, 0, 0, 0, 0, 0, 0, 0, 0, fun _ => 0, false⟩

/-- One signal in the control word of an RX ring. -/
def field {w : ℕ} (value : BitVec w) (offset : ℕ) : BitVec 32 := value.setWidth 32 <<< offset

/-- The control word of an RX ring: only the popped and open-socket bits are stored ones. -/
def rxWord (stored : BitVec 32) (status : RingStatus) : BitVec 32 :=
  field (BitVec.ofBool (stored.getLsbD bufferPoppedOffset)) bufferPoppedOffset |||
    field (BitVec.ofBool status.pushed) bufferPushedOffset |||
    field (BitVec.ofBool status.full) bufferFullOffset |||
    field (BitVec.ofBool status.empty) bufferEmptyOffset |||
    field status.tail bufferTailOffset ||| field status.head bufferHeadOffset |||
    field (BitVec.ofBool (stored.getLsbD bufferOpensockOffset)) bufferOpensockOffset

/-- The ring whose control word lies at the address. -/
def ringOf (addr : RegAddr) : Option BufferIdx :=
  if RegAddr.bufrxOffset ≤ addr.toNat ∧ addr.toNat < RegAddr.bufrxOffset + 8 * maxUdpPorts then
    some (BitVec.ofNat 10 ((addr.toNat - RegAddr.bufrxOffset) / 8))
  else none

/-- A register write; the named registers lie below the control words of the rings. -/
def write (r : ConfigRegs) (waddr : RegAddr) (wdata : BitVec 32) : ConfigRegs where
  userRst := if waddr = RegAddr.res then wdata.getLsbD 0 else r.userRst
  localMac :=
    if waddr = RegAddr.mac0 then r.localMac.extractLsb' 32 16 ++ wdata
    else if waddr = RegAddr.mac1 then wdata.setWidth 16 ++ r.localMac.setWidth 32
    else r.localMac
  gatewayIp := if waddr = RegAddr.gw then wdata else r.gatewayIp
  subnetMask := if waddr = RegAddr.snm then wdata else r.subnetMask
  localIp := if waddr = RegAddr.ipLoc then wdata else r.localIp
  udpPortRangeL := if waddr = RegAddr.udpRangeL then wdata else r.udpPortRangeL
  udpPortRangeH := if waddr = RegAddr.udpRangeH then wdata else r.udpPortRangeH
  sharedMem := if waddr = RegAddr.shmem then wdata else r.sharedMem
  extIer0 := if waddr = RegAddr.ier0 then wdata else r.extIer0
  bufrxTemp := fun idx => if ringOf waddr = some idx then wdata else r.bufrxTemp idx
  buftxPushed := if waddr = RegAddr.buftxPushed then wdata.getLsbD 0 else r.buftxPushed

/-- A register read. -/
def read (r : ConfigRegs) (status : StatusInputs) (raddr : RegAddr) : BitVec 32 :=
  match ringOf raddr with
  | some idx => rxWord (r.bufrxTemp idx) (status.bufrx idx)
  | none =>
    if raddr = RegAddr.apCtrl ∨ raddr = RegAddr.isr0 ∨ raddr = RegAddr.gie then status.control raddr
    else if raddr = RegAddr.ier0 then r.extIer0
    else if raddr = RegAddr.res then (BitVec.ofBool r.userRst).setWidth 32
    else if raddr = RegAddr.mac0 then r.localMac.setWidth 32
    else if raddr = RegAddr.mac1 then (r.localMac.extractLsb' 32 16).setWidth 32
    else if raddr = RegAddr.gw then r.gatewayIp
    else if raddr = RegAddr.snm then r.subnetMask
    else if raddr = RegAddr.ipLoc then r.localIp
    else if raddr = RegAddr.udpRangeL then r.udpPortRangeL
    else if raddr = RegAddr.udpRangeH then r.udpPortRangeH
    else if raddr = RegAddr.shmem then r.sharedMem
    else if raddr = RegAddr.buftxHead then status.buftxHead.setWidth 32
    else if raddr = RegAddr.buftxTail then status.buftxTail.setWidth 32
    else if raddr = RegAddr.buftxEmpty then (BitVec.ofBool status.buftxEmpty).setWidth 32
    else if raddr = RegAddr.buftxFull then (BitVec.ofBool status.buftxFull).setWidth 32
    else if raddr = RegAddr.buftxPushed then (BitVec.ofBool r.buftxPushed).setWidth 32
    else if raddr = RegAddr.buftxPopped then (BitVec.ofBool status.buftxPopped).setWidth 32
    else 0xDEADBEEF

/-- The socket of an RX ring is open. -/
def opensock (r : ConfigRegs) (idx : BufferIdx) : Bool :=
  (r.bufrxTemp idx).getLsbD bufferOpensockOffset

/-- The address of the control word of an RX ring, as the drivers compute it; the device sees the
low bits of the offset. -/
def bufferRxCtrl (bufferId : ℕ) : RegAddr := BitVec.ofNat 14 (RegAddr.bufrxOffset + bufferId * 8)

/-- The control words of the rings repeat every 2048 identifiers; half of these address a ring. -/
theorem ringOf_bufferRxCtrl (bufferId : ℕ) : ringOf (bufferRxCtrl bufferId) =
    if bufferId % 2048 < maxUdpPorts then some (BitVec.ofNat 10 bufferId) else none := by
  have haddr : (bufferRxCtrl bufferId).toNat = (160 + bufferId * 8) % 16384 := by
    simp [bufferRxCtrl, RegAddr.bufrxOffset]
  rw [ringOf, haddr, RegAddr.bufrxOffset, maxUdpPorts]
  by_cases hring : bufferId % 2048 < 1024
  · rw [if_pos hring, if_pos (by omega)]
    congr 1
    apply BitVec.eq_of_toNat_eq
    rw [BitVec.toNat_ofNat, BitVec.toNat_ofNat]
    omega
  · rw [if_neg hring, if_neg (by omega)]

/-- The address of a ring's control word reaches only that ring. -/
theorem ringOf_of_lt {bufferId : ℕ} (hlt : bufferId < maxUdpPorts) :
    ringOf (bufferRxCtrl bufferId) = some (BitVec.ofNat 10 bufferId) := by
  rw [ringOf_bufferRxCtrl, if_pos]
  simp only [maxUdpPorts] at hlt ⊢
  omega

/-- The control word of a ring lies at its own address. -/
theorem ringOf_toNat (idx : BufferIdx) : ringOf (bufferRxCtrl idx.toNat) = some idx := by
  rw [ringOf_of_lt idx.isLt, BitVec.ofNat_toNat, BitVec.setWidth_eq]

/-- The identifiers whose control word falls on the shared-memory register. -/
theorem bufferRxCtrl_eq_shmem (bufferId : ℕ) :
    bufferRxCtrl bufferId = RegAddr.shmem ↔ bufferId % 2048 = 2037 := by
  have haddr : (bufferRxCtrl bufferId).toNat = (160 + bufferId * 8) % 16384 := by
    simp [bufferRxCtrl, RegAddr.bufrxOffset]
  rw [← BitVec.toNat_inj, haddr]
  change _ = 72 ↔ _
  omega

/-- A control word shows its stored open-socket bit. -/
theorem getLsbD_rxWord_opensock (stored : BitVec 32) (status : RingStatus) :
    (rxWord stored status).getLsbD bufferOpensockOffset = stored.getLsbD bufferOpensockOffset := by
  simp [rxWord, field, bufferTailOffset, bufferHeadOffset, bufferOpensockOffset]

/-- A control word shows its stored popped bit. -/
theorem getLsbD_rxWord_popped (stored : BitVec 32) (status : RingStatus) :
    (rxWord stored status).getLsbD bufferPoppedOffset = stored.getLsbD bufferPoppedOffset := by
  simp [rxWord, field, bufferTailOffset, bufferHeadOffset, bufferOpensockOffset]

/-- A control word shows whether a datagram is being pushed into its ring. -/
theorem getLsbD_rxWord_pushed (stored : BitVec 32) (status : RingStatus) :
    (rxWord stored status).getLsbD bufferPushedOffset = status.pushed := by
  simp [rxWord, field, bufferTailOffset, bufferHeadOffset, bufferOpensockOffset, bufferEmptyOffset, bufferFullOffset,
    bufferPushedOffset]

/-- A control word shows whether its ring is full. -/
theorem getLsbD_rxWord_full (stored : BitVec 32) (status : RingStatus) :
    (rxWord stored status).getLsbD bufferFullOffset = status.full := by
  simp [rxWord, field, bufferTailOffset, bufferHeadOffset, bufferOpensockOffset, bufferEmptyOffset, bufferFullOffset]

/-- A control word shows whether its ring is empty. -/
theorem getLsbD_rxWord_empty (stored : BitVec 32) (status : RingStatus) :
    (rxWord stored status).getLsbD bufferEmptyOffset = status.empty := by
  simp [rxWord, field, bufferTailOffset, bufferHeadOffset, bufferOpensockOffset, bufferEmptyOffset]

/-- A control word shows the tail of its ring. -/
theorem extractLsb'_rxWord_tail (stored : BitVec 32) (status : RingStatus) :
    (rxWord stored status).extractLsb' bufferTailOffset 5 = status.tail := by
  ext i hi
  have hcases : i = 0 ∨ i = 1 ∨ i = 2 ∨ i = 3 ∨ i = 4 := by omega
  rcases hcases with rfl | rfl | rfl | rfl | rfl <;>
    simp [rxWord, field, bufferTailOffset, bufferHeadOffset, bufferOpensockOffset, bufferEmptyOffset,
      bufferFullOffset]

/-- A control word shows the head of its ring. -/
theorem extractLsb'_rxWord_head (stored : BitVec 32) (status : RingStatus) :
    (rxWord stored status).extractLsb' bufferHeadOffset 5 = status.head := by
  ext i hi
  have hcases : i = 0 ∨ i = 1 ∨ i = 2 ∨ i = 3 ∨ i = 4 := by omega
  rcases hcases with rfl | rfl | rfl | rfl | rfl <;>
    simp [rxWord, field, bufferTailOffset, bufferHeadOffset, bufferOpensockOffset, bufferEmptyOffset,
      bufferFullOffset]

/-- The named registers are not among the control words of the rings. -/
theorem ringOf_named {reg : RegAddr} {idx : BufferIdx} (h : ringOf reg = some idx) :
    reg ≠ RegAddr.res ∧ reg ≠ RegAddr.shmem := by
  have hres : ringOf RegAddr.res = none := by decide
  have hshmem : ringOf RegAddr.shmem = none := by decide
  refine ⟨?_, ?_⟩ <;> rintro rfl
  · simp [hres] at h
  · simp [hshmem] at h

/-- A write sets the open-socket bit of the ring it addresses and of no other. -/
theorem opensock_write (r : ConfigRegs) (waddr : RegAddr) (wdata : BitVec 32) (idx : BufferIdx) :
    (r.write waddr wdata).opensock idx =
      if ringOf waddr = some idx then wdata.getLsbD bufferOpensockOffset else r.opensock idx := by
  by_cases hring : ringOf waddr = some idx <;> simp [opensock, write, hring]

/-- The user reset is read in bit 0. -/
theorem getLsbD_read_res (r : ConfigRegs) (status : StatusInputs) :
    (r.read status RegAddr.res).getLsbD 0 = r.userRst := by
  have hread : r.read status RegAddr.res = (BitVec.ofBool r.userRst).setWidth 32 := rfl
  rw [hread]
  cases r.userRst <;> rfl

end ConfigRegs

end UdpIpCore
