import UdpIpCore.Rtl.ConfigRegs

/-!
# The AXI-lite slave

The two state machines of `config_regs_AXI_Manager`: a register is written at the
handshake of the write data, and a read returns what the register showed at the handshake
of its address.
-/

namespace UdpIpCore

/-- The states of the write machine. -/
inductive WState
  | wrIdle
  | wrData
  | wrResp
  | wrReset
deriving DecidableEq

/-- The states of the read machine. -/
inductive RState
  | rdIdle
  | rdData
  | rdReset
deriving DecidableEq

/-- The registers of the AXI-lite slave. -/
structure AxiLite where
  wstate : WState
  waddr : RegAddr
  rstate : RState
  rdata : BitVec 32
deriving DecidableEq

/-- What the master drives in one cycle. -/
structure AxiLiteMaster where
  awvalid : Bool
  awaddr : RegAddr
  wvalid : Bool
  wdata : BitVec 32
  bready : Bool
  arvalid : Bool
  araddr : RegAddr
  rready : Bool

namespace AxiLite

/-- The state after the power-on reset. -/
def reset : AxiLite := ⟨.wrReset, 0, .rdReset, 0⟩

def awready (a : AxiLite) : Bool := a.wstate = .wrIdle
def wready (a : AxiLite) : Bool := a.wstate = .wrData
def bvalid (a : AxiLite) : Bool := a.wstate = .wrResp
def arready (a : AxiLite) : Bool := a.rstate = .rdIdle
def rvalid (a : AxiLite) : Bool := a.rstate = .rdData

/-- The handshakes of a write address, of write data and of a read address. -/
def awHs (a : AxiLite) (m : AxiLiteMaster) : Bool := m.awvalid && a.awready
def wHs (a : AxiLite) (m : AxiLiteMaster) : Bool := m.wvalid && a.wready
def arHs (a : AxiLite) (m : AxiLiteMaster) : Bool := m.arvalid && a.arready

/-- `wnext`. -/
def wnext (a : AxiLite) (m : AxiLiteMaster) : WState :=
  match a.wstate with
  | .wrIdle => if m.awvalid then .wrData else .wrIdle
  | .wrData => if m.wvalid then .wrResp else .wrData
  | .wrResp => if m.bready then .wrIdle else .wrResp
  | .wrReset => .wrIdle

/-- `rnext`. -/
def rnext (a : AxiLite) (m : AxiLiteMaster) : RState :=
  match a.rstate with
  | .rdIdle => if m.arvalid then .rdData else .rdIdle
  | .rdData => if m.rready && a.rvalid then .rdIdle else .rdData
  | .rdReset => .rdIdle

/-- One clock edge; `readValue` is what the read decode shows in this cycle. -/
def step (a : AxiLite) (m : AxiLiteMaster) (readValue : RegAddr → BitVec 32) : AxiLite where
  wstate := a.wnext m
  waddr := if a.awHs m then m.awaddr else a.waddr
  rstate := a.rnext m
  rdata := if a.arHs m then readValue m.araddr else a.rdata

/-- The slave answers a write before it takes the next one. -/
theorem wnext_of_wHs {a : AxiLite} {m : AxiLiteMaster} (hw : a.wHs m = true) : a.wnext m = .wrResp := by
  simp only [wHs, wready, Bool.and_eq_true, decide_eq_true_eq] at hw
  simp [wnext, hw]

end AxiLite

/-- The registers after one clock edge. -/
def ConfigRegs.clock (r : ConfigRegs) (a : AxiLite) (m : AxiLiteMaster) : ConfigRegs :=
  if a.wHs m then r.write a.waddr m.wdata else r

end UdpIpCore
