import UdpIpCore.Clocked
import UdpIpCore.Rtl.AxiLite

/-!
# The interrupt registers

The interrupt part of `config_regs_AXI_Manager`: the enable and status registers, the flag
that limits an acknowledge to one toggle, and the global enable. A push sets the status
bit and a write to `ISR0` toggles it. Both stand in one clocked statement, in two branches,
so a push in the very cycle of an acknowledge is not seen.
-/

namespace UdpIpCore

/-- The registers of the interrupt logic; the bits of `ext_isr0` above the lowest stay 0. -/
structure Interrupts where
  axi : AxiLite
  /-- `ext_isr0[0]`. -/
  extIsr0 : Bool
  extIsr0Mutex : Bool
  extIer0 : BitVec 32
  intGie : Bool

/-- One cycle around the interrupt logic. -/
structure InterruptsInput where
  master : AxiLiteMaster
  wstrb : BitVec 4
  /-- `bufrx_push_irq_i`. -/
  bufrxPushIrq : Bool
  /-- What a read of the registers outside the interrupt logic shows. -/
  others : RegAddr → BitVec 32

namespace Interrupts

/-- The state after the power-on reset. -/
def start : Interrupts := ⟨.reset, false, true, 0, false⟩

/-- `wmask`. -/
def wmask (wstrb : BitVec 4) : BitVec 32 :=
  BitVec.replicate 8 (wstrb.extractLsb' 3 1) ++ BitVec.replicate 8 (wstrb.extractLsb' 2 1) ++
    BitVec.replicate 8 (wstrb.extractLsb' 1 1) ++ BitVec.replicate 8 (wstrb.extractLsb' 0 1)

/-- A write to the given register in this cycle. -/
def writesTo (s : Interrupts) (i : InterruptsInput) (reg : RegAddr) : Bool :=
  s.axi.wHs i.master && s.axi.waddr = reg

/-- The read decode. -/
def readValue (s : Interrupts) (i : InterruptsInput) (raddr : RegAddr) : BitVec 32 :=
  if raddr = RegAddr.isr0 then (BitVec.ofBool s.extIsr0).setWidth 32
  else if raddr = RegAddr.ier0 then s.extIer0
  else if raddr = RegAddr.gie then (BitVec.ofBool s.intGie).setWidth 32
  else i.others raddr

/-- `interrupt`. -/
def interrupt (s : Interrupts) : Bool := s.intGie && s.extIsr0

/-- One clock edge with `res_n` high. -/
def step (s : Interrupts) (i : InterruptsInput) : Interrupts where
  axi := s.axi.step i.master (s.readValue i)
  extIsr0 :=
    if s.writesTo i RegAddr.isr0 then xor s.extIsr0 s.extIsr0Mutex
    else s.extIer0.getLsbD 0 && i.bufrxPushIrq || s.extIsr0
  extIsr0Mutex := !s.writesTo i RegAddr.isr0
  extIer0 :=
    if s.writesTo i RegAddr.ier0 then i.master.wdata &&& wmask i.wstrb ||| s.extIer0 &&& ~~~wmask i.wstrb
    else s.extIer0
  intGie :=
    if s.writesTo i RegAddr.gie && i.wstrb.getLsbD 0 then i.master.wdata.getLsbD 0 else s.intGie

/-- The interrupt registers under arbitrary AXI-lite transactions and push pulses. -/
def machine : Clocked.Machine Interrupts InterruptsInput where
  step := step
  legal := fun _ _ => True

/-- A push pulse while its interrupt is enabled. -/
def Pushed (s : Interrupts) (i : InterruptsInput) : Prop :=
  i.bufrxPushIrq = true ∧ s.extIer0.getLsbD 0 = true

/-- The listed cycles bring no write to `ISR0`. -/
def NoAcknowledge : Interrupts → List InterruptsInput → Prop
  | _, [] => True
  | s, i :: rest => s.writesTo i RegAddr.isr0 = false ∧ NoAcknowledge (s.step i) rest

/-- An enabled push shows in the status bit from the next cycle on, until the first write to `ISR0`
in a later cycle. -/
def EventKept (s : Interrupts) (i : InterruptsInput) : Prop :=
  s.Pushed i → ∀ rest, NoAcknowledge (s.step i) rest → (machine.run (s.step i) rest).extIsr0 = true

/-- The push falls into the cycle of a write to `ISR0` that clears the status bit. -/
def AcknowledgedWith (s : Interrupts) (i : InterruptsInput) : Prop :=
  s.Pushed i ∧ s.writesTo i RegAddr.isr0 = true ∧ s.extIsr0 = true

/-- The toggle is enabled, except in the cycle after an acknowledge, which has no write. -/
def MutexRaised (s : Interrupts) : Prop := s.extIsr0Mutex = true ∨ s.axi.wstate = .wrResp

/-- A write handshake leads to the response state, so the flag is up again before the next one. -/
theorem mutexRaised_step (s : Interrupts) (i : InterruptsInput) : (s.step i).MutexRaised := by
  cases hwrite : s.writesTo i RegAddr.isr0 with
  | false =>
    left
    simp [step, hwrite]
  | true =>
    right
    have hhs : s.axi.wHs i.master = true := by
      simp only [writesTo, Bool.and_eq_true] at hwrite
      exact hwrite.1
    exact AxiLite.wnext_of_wHs hhs

/-- Every write to `ISR0` toggles the status bit. -/
theorem extIsr0_step_of_write {s : Interrupts} {i : InterruptsInput} (h : s.MutexRaised)
    (hwrite : s.writesTo i RegAddr.isr0 = true) : (s.step i).extIsr0 = !s.extIsr0 := by
  have hmutex : s.extIsr0Mutex = true := by
    refine h.resolve_right fun hresp => ?_
    simp [writesTo, AxiLite.wHs, AxiLite.wready, hresp] at hwrite
  simp [step, hwrite, hmutex]

/-- Without a write to `ISR0` the status bit stays set. -/
theorem extIsr0_run {s : Interrupts} (hset : s.extIsr0 = true) (rest : List InterruptsInput)
    (hquiet : NoAcknowledge s rest) : (machine.run s rest).extIsr0 = true := by
  induction rest generalizing s with
  | nil => exact hset
  | cons i rest ih =>
    obtain ⟨hwrite, hrest⟩ := hquiet
    have hnext : (s.step i).extIsr0 = true := by simp [step, hwrite, hset]
    exact ih hnext hrest

/-- The toggle is enabled as soon as a write can come, in every run. -/
theorem mutexRaised_run (inputs : List InterruptsInput) : (machine.run start inputs).MutexRaised := by
  induction inputs using List.reverseRecOn with
  | nil => exact Or.inl rfl
  | append_singleton inputs i _ =>
    rw [Clocked.Machine.run_append]
    exact mutexRaised_step _ i

/-- In every cycle of every run, an enabled push is kept exactly when it does not fall into the
cycle of a write to `ISR0` that clears the status bit. -/
theorem eventKept_iff (inputs : List InterruptsInput) (i : InterruptsInput) :
    (machine.run start inputs).EventKept i ↔ ¬ (machine.run start inputs).AcknowledgedWith i := by
  have hmutex := mutexRaised_run inputs
  generalize machine.run start inputs = s at hmutex ⊢
  constructor
  · rintro hkept ⟨hpush, hwrite, hset⟩
    have hnext : (s.step i).extIsr0 = true := hkept hpush [] trivial
    rw [extIsr0_step_of_write hmutex hwrite, hset] at hnext
    exact absurd hnext (by simp)
  · intro hapart hpush rest hrest
    refine extIsr0_run ?_ rest hrest
    cases hwrite : s.writesTo i RegAddr.isr0 with
    | false =>
      obtain ⟨hirq, henabled⟩ := hpush
      simp [step, hwrite, hirq, henabled]
    | true =>
      have hclear : s.extIsr0 = false := by
        cases hset : s.extIsr0 with
        | false => rfl
        | true => exact absurd ⟨hpush, hwrite, hset⟩ hapart
      rw [extIsr0_step_of_write hmutex hwrite, hclear]
      rfl

section Counterexample

/-- A cycle in which the PS presents the given write, with or without a push. -/
def writeCycle (reg : RegAddr) (wdata : BitVec 32) (push : Bool) : InterruptsInput :=
  ⟨⟨true, reg, true, wdata, true, false, 0, false⟩, 0xF, push, fun _ => 0⟩

/-- The PS enables the interrupt, a push sets the status bit, and the PS starts to acknowledge it. -/
def acknowledging : List InterruptsInput :=
  List.replicate 4 (writeCycle RegAddr.ier0 1 false) ++ [writeCycle RegAddr.isr0 1 true]

/-- A push in the cycle of the acknowledge is lost. -/
theorem not_eventKept : ¬ machine.Always start EventKept := by
  intro h
  have hreach : machine.Reachable start (machine.run start acknowledging) :=
    ⟨acknowledging, ⟨trivial, trivial, trivial, trivial, trivial, trivial⟩, rfl⟩
  have hpushed : (machine.run start acknowledging).Pushed (writeCycle RegAddr.isr0 1 true) := by
    constructor <;> decide
  have hnext := h _ hreach (writeCycle RegAddr.isr0 1 true) trivial hpushed [] trivial
  exact absurd hnext (by decide)

end Counterexample

end Interrupts

end UdpIpCore
