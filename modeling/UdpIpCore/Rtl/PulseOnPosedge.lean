import UdpIpCore.Rtl.AxiLite

/-!
# Pulses from register bits

`pulse_on_posedge` turns a bit the PS writes into a one-cycle pulse. A register write
takes the AXI-lite slave three cycles at least, so a bit that is written 0, 1 and 0 again
is seen low and high long enough for exactly one pulse.
-/

namespace UdpIpCore

/-- The registers of `pulse_on_posedge`. -/
structure PulseOnPosedge where
  signalReg1 : Bool
  signalReg2 : Bool
deriving DecidableEq

namespace PulseOnPosedge

/-- The state after reset. -/
def reset : PulseOnPosedge := ⟨false, false⟩

/-- `signal_pulse_o`. -/
def pulse (p : PulseOnPosedge) : Bool := p.signalReg1 && !p.signalReg2

/-- One clock edge. -/
def step (p : PulseOnPosedge) (signalRising : Bool) : PulseOnPosedge := ⟨signalRising, p.signalReg1⟩

/-- The bit is low and gives no pulse any more; before the next write it is seen low. -/
structure Low (p : PulseOnPosedge) (signal : Bool) (w : WState) : Prop where
  signal_eq : signal = false
  seen : p.signalReg1 = false ∨ p.signalReg2 = true ∧ w = .wrResp

/-- The bit was written high; `pulsed` once its pulse is over. -/
inductive High (p : PulseOnPosedge) (signal : Bool) (w : WState) : Bool → Prop
  | written (hsignal : signal = true) (hreg : p.signalReg1 = false) (hw : w = .wrResp) :
      High p signal w false
  | pulsing (hsignal : signal = true) (hpulse : p.pulse = true) (hw : w = .wrResp ∨ w = .wrIdle) :
      High p signal w false
  | settled (hsignal : signal = true) (hreg : p.signalReg1 = true) (hreg2 : p.signalReg2 = true) :
      High p signal w true

variable {p : PulseOnPosedge} {signal pulsed : Bool} {a : AxiLite} {m : AxiLiteMaster}

/-- A low bit gives no pulse. -/
theorem Low.pulse_eq {w : WState} (h : p.Low signal w) : p.pulse = false := by
  rcases h.seen with hreg | ⟨hreg, -⟩ <;> simp [pulse, hreg]

/-- A low bit stays low while no write sets it. -/
theorem Low.step {w : WState} (h : p.Low signal w) (w' : WState) : (p.step signal).Low signal w' :=
  ⟨h.signal_eq, Or.inl h.signal_eq⟩

/-- Writing 1 to a low bit. -/
theorem Low.high {w : WState} (h : p.Low signal w) (hw : a.wHs m = true) :
    (p.step signal).High true (a.wnext m) false :=
  .written rfl h.signal_eq (AxiLite.wnext_of_wHs hw)

/-- A high bit gives its one pulse while no write changes it. -/
theorem High.step (h : p.High signal a.wstate pulsed) (m : AxiLiteMaster) :
    (p.step signal).High signal (a.wnext m) (pulsed || p.pulse) ∧ (p.pulse = true → pulsed = false) := by
  cases h with
  | written hsignal hreg hwstate =>
    have hnext : a.wnext m = .wrResp ∨ a.wnext m = .wrIdle := by
      rw [AxiLite.wnext, hwstate]
      cases m.bready <;> simp
    have hpulse : p.pulse = false := by simp [pulse, hreg]
    rw [hpulse]
    exact ⟨.pulsing hsignal (by simp [pulse, PulseOnPosedge.step, hsignal, hreg]) hnext, fun _ => rfl⟩
  | pulsing hsignal hpulse hwstate =>
    rw [hpulse]
    simp only [pulse, Bool.and_eq_true] at hpulse
    exact ⟨.settled hsignal hsignal hpulse.1, fun _ => rfl⟩
  | settled hsignal hreg hreg2 =>
    have hpulse : p.pulse = false := by simp [pulse, hreg2]
    rw [hpulse]
    exact ⟨.settled hsignal hsignal hreg, fun h => absurd h (by simp)⟩

/-- The next write finds the pulse over; writing 0 then makes the bit low. -/
theorem High.low (h : p.High signal a.wstate pulsed) (hw : a.wHs m = true) :
    pulsed = true ∧ p.pulse = false ∧ (p.step signal).Low false (a.wnext m) := by
  have hdata : a.wstate = .wrData := by
    simp only [AxiLite.wHs, AxiLite.wready, Bool.and_eq_true, decide_eq_true_eq] at hw
    exact hw.2
  cases h with
  | written _ _ hwstate => simp [hdata] at hwstate
  | pulsing _ _ hwstate => simp [hdata] at hwstate
  | settled _ hreg hreg2 =>
    exact ⟨rfl, by simp [pulse, hreg2], rfl, Or.inr ⟨hreg, AxiLite.wnext_of_wHs hw⟩⟩

end PulseOnPosedge

end UdpIpCore
