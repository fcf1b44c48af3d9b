import UdpIpCore.Rtl.ConfigRegs

/-!
# The user reset

`user_rst_handler` serves a reset request of the PS once the core is not busy. The busy
flags follow single events of the transfers and are cleared by the reset itself. The
controller samples its configuration only while the reset is asserted.
-/

namespace UdpIpCore

/-- The registers of `user_rst_handler`. -/
structure UserRstHandler where
  rstRequested : Bool
  /-- Low from the power-on reset to the first request. -/
  enable : Bool
  rstUser : Bool
deriving DecidableEq, Repr

/-- The busy flags of the controller. -/
structure BusyFlags where
  rxBusy : Bool
  txBusy : Bool
  txBusyOut : Bool
deriving DecidableEq, Repr

/-- The events the busy flags look at. -/
structure TransferEvents where
  /-- `dma_wr_data_axis_tready && dma_wr_data_axis_tvalid`. -/
  wrBeat : Bool
  /-- `dma_wr_data_axi_last`, the handshake of `wlast`. -/
  wrLast : Bool
  /-- `dma_rd_data_axi_valid`, the handshake of a read address. -/
  rdAddr : Bool
  /-- `tx_busy_out_cond1`, the last payload beat taken by the UDP stack. -/
  txLast : Bool
  /-- `tx_busy_out_cond2`, the pop of the TX ring. -/
  txPopped : Bool
deriving DecidableEq, Repr

/-- The configuration the controller works with. -/
structure ControllerConfig where
  localMac : BitVec 48
  gatewayIp : BitVec 32
  subnetMask : BitVec 32
  localIp : BitVec 32
  udpPortRangeL : BitVec 32
  udpPortRangeH : BitVec 32
  sharedMemBaseAddress : BitVec 32
deriving DecidableEq, Repr

/-- The configuration as it comes from the PS registers. -/
def ConfigRegs.config (r : ConfigRegs) : ControllerConfig where
  localMac := r.localMac
  gatewayIp := r.gatewayIp
  subnetMask := r.subnetMask
  localIp := r.localIp
  udpPortRangeL := r.udpPortRangeL
  udpPortRangeH := r.udpPortRangeH
  sharedMemBaseAddress := r.sharedMem

/-- Releasing the reset leaves the configuration. -/
theorem ConfigRegs.config_write_res (r : ConfigRegs) (value : BitVec 32) :
    (r.write RegAddr.res value).config = r.config := rfl

/-- Only a write of the reset register changes the request. -/
theorem ConfigRegs.userRst_write_of_ne (r : ConfigRegs) {reg : RegAddr} (hreg : reg ≠ RegAddr.res)
    (value : BitVec 32) : (r.write reg value).userRst = r.userRst := if_neg hreg

namespace UserRstHandler

/-- After the power-on reset. -/
def reset : UserRstHandler := ⟨false, false, true⟩

/-- One clock edge with `rst_por_i` low. -/
def step (h : UserRstHandler) (rstUserReq busy : Bool) : UserRstHandler where
  rstRequested := if rstUserReq then true else if h.rstUser then false else h.rstRequested
  enable := if h.rstRequested then true else h.enable
  rstUser := if !h.enable then true else h.rstRequested && !busy

end UserRstHandler

namespace BusyFlags

/-- After a reset. -/
def reset : BusyFlags := ⟨false, false, false⟩

/-- `busy`. -/
def busy (f : BusyFlags) : Bool := f.rxBusy || f.txBusy

/-- One clock edge. -/
def step (f : BusyFlags) (rstGlobal : Bool) (e : TransferEvents) : BusyFlags where
  rxBusy := if rstGlobal then false else if e.wrBeat then true else if e.wrLast then false else f.rxBusy
  txBusy :=
    if rstGlobal then false
    else if e.rdAddr then true
    else if f.txBusyOut && (e.txLast || e.txPopped) then false
    else f.txBusy
  txBusyOut :=
    if rstGlobal then false
    else if e.txLast || e.txPopped then true
    else if !f.txBusy then false
    else f.txBusyOut

/-- During a reset the flags are low after each cycle. -/
@[simp] theorem busy_step_of_reset (f : BusyFlags) (e : TransferEvents) : (f.step true e).busy = false := rfl

end BusyFlags

/-- The part of the controller that takes part in a reset. -/
structure ResetCore where
  regs : ConfigRegs
  handler : UserRstHandler
  flags : BusyFlags
  latched : ControllerConfig

/-- One cycle around it. -/
structure ResetCycle where
  /-- A register write of the PS. -/
  write : Option (RegAddr × BitVec 32)
  events : TransferEvents

namespace ResetCore

/-- After the power-on reset. -/
def start : ResetCore := ⟨.reset, .reset, .reset, ConfigRegs.reset.config⟩

/-- `rst_global`, with `rst_i` low. -/
def rstGlobal (t : ResetCore) : Bool := t.handler.rstUser

/-- `busy`. -/
def busy (t : ResetCore) : Bool := t.flags.busy

/-- The registers after the write of a cycle. -/
def regsNext (t : ResetCore) (i : ResetCycle) : ConfigRegs :=
  match i.write with
  | some (reg, value) => t.regs.write reg value
  | none => t.regs

/-- One clock edge. -/
def step (t : ResetCore) (i : ResetCycle) : ResetCore where
  regs := t.regsNext i
  handler := t.handler.step t.regs.userRst t.busy
  flags := t.flags.step t.rstGlobal i.events
  latched := if t.rstGlobal then t.regs.config else t.latched

variable {t : ResetCore} {i : ResetCycle}

/-- A cycle that changes the request leaves the configuration. -/
theorem config_regsNext (h : (t.regsNext i).userRst ≠ t.regs.userRst) : (t.regsNext i).config = t.regs.config := by
  rw [regsNext] at h ⊢
  split at h
  · rename_i reg value hwrite
    by_cases hreg : reg = RegAddr.res
    · rw [hreg, ConfigRegs.config_write_res]
    · exact absurd (t.regs.userRst_write_of_ne hreg value) h
  · rfl

/-- Once a request came, the reset follows it while the core is not busy. -/
theorem rstGlobal_step (henable : t.handler.enable = true) :
    (t.step i).rstGlobal = (t.handler.rstRequested && !t.busy) := by
  have hnext : (t.step i).rstGlobal = if !t.handler.enable then true else t.handler.rstRequested && !t.busy := rfl
  rw [hnext, henable]
  rfl

/-- Until the first request the reset is held. -/
theorem rstGlobal_step_of_disabled (henable : t.handler.enable = false) : (t.step i).rstGlobal = true := by
  have hnext : (t.step i).rstGlobal = if !t.handler.enable then true else t.handler.rstRequested && !t.busy := rfl
  rw [hnext, henable]
  rfl

/-- A request that is written is latched. -/
theorem rstRequested_step (hreq : t.regs.userRst = true) : (t.step i).handler.rstRequested = true := by
  have hnext : (t.step i).handler.rstRequested =
      if t.regs.userRst then true else if t.handler.rstUser then false else t.handler.rstRequested := rfl
  rw [hnext, if_pos hreq]

/-- A request waits until the reset is asserted. -/
theorem rstRequested_step_of_released (hreq : t.regs.userRst = false) :
    (t.step i).handler.rstRequested = (!t.rstGlobal && t.handler.rstRequested) := by
  have hnext : (t.step i).handler.rstRequested =
      if t.regs.userRst then true else if t.rstGlobal then false else t.handler.rstRequested := rfl
  rw [hnext, hreq]
  cases t.rstGlobal <;> rfl

/-- The handler is enabled for good. -/
theorem enable_step (henable : t.handler.enable = true) : (t.step i).handler.enable = true := by
  have hnext : (t.step i).handler.enable = if t.handler.rstRequested then true else t.handler.enable := rfl
  rw [hnext, henable, ite_self]

/-- The reset is low only once the handler is enabled. -/
def Enabled (t : ResetCore) : Prop := t.rstGlobal = false → t.handler.enable = true

theorem enabled_start : start.Enabled := by
  intro h
  exact absurd h (by decide)

theorem Enabled.step : (t.step i).Enabled := by
  intro hlow
  cases henable : t.handler.enable with
  | true => exact enable_step henable
  | false => simp [rstGlobal_step_of_disabled henable] at hlow

/-- What holds in every cycle. -/
structure Sound (t : ResetCore) : Prop where
  enabled : t.Enabled
  idle : t.handler.enable = false → t.busy = false

/-- The handler is never disabled again, and the core is not busy before it is enabled. -/
theorem Sound.step (h : t.Sound) : (t.step i).Sound where
  enabled := Enabled.step
  idle := by
    intro hdisabled
    have hbefore : t.handler.enable = false := by
      by_contra henable
      rw [enable_step (by simpa using henable)] at hdisabled
      exact absurd hdisabled (by simp)
    have hrst : t.rstGlobal = true := by
      by_contra hlow
      rw [h.enabled (by simpa using hlow)] at hbefore
      exact absurd hbefore (by simp)
    have hflags : (t.step i).flags = t.flags.step t.rstGlobal i.events := rfl
    rw [busy, hflags, hrst]
    rfl

theorem sound_start : start.Sound := ⟨enabled_start, fun _ => rfl⟩

/-- A reset that is requested is granted unless the core is busy. -/
theorem Sound.rstGlobal_step_of_requested (h : t.Sound) (hrequested : t.handler.rstRequested = true) :
    (t.step i).rstGlobal = !t.busy := by
  cases henable : t.handler.enable with
  | true => rw [rstGlobal_step henable, hrequested, Bool.true_and]
  | false => rw [rstGlobal_step_of_disabled henable, h.idle henable, Bool.not_false]

end ResetCore

end UdpIpCore
