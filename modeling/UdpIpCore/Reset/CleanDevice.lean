import UdpIpCore.Reset.DeferredReset
import UdpIpCore.Rtl.CircularBuffer
import UdpIpCore.Rtl.DmaReadControl

/-!
# What `udriver_initialize` leaves

The driver clears the pop bit of every ring, and the socket bit of the rings whose number
is a port in range: the second loop passes its index where a port is expected. The rings
themselves are emptied by the user reset.
-/

namespace UdpIpCore

open Interaction

namespace ConfigRegs

/-- The pop bit of an RX ring is set. -/
def popped (r : ConfigRegs) (idx : BufferIdx) : Bool := (r.bufrxTemp idx).getLsbD bufferPoppedOffset

/-- A write sets the pop bit of the ring it addresses and of no other. -/
theorem popped_write (r : ConfigRegs) (waddr : RegAddr) (wdata : BitVec 32) (idx : BufferIdx) :
    (r.write waddr wdata).popped idx =
      if ringOf waddr = some idx then wdata.getLsbD bufferPoppedOffset else r.popped idx := by
  by_cases hring : ringOf waddr = some idx <;> simp [popped, write, hring]

/-- A register that belongs to no ring. -/
theorem bits_write_named (r : ConfigRegs) {waddr : RegAddr} (hnamed : ringOf waddr = none) (wdata : BitVec 32) :
    (r.write waddr wdata).opensock = r.opensock ∧ (r.write waddr wdata).popped = r.popped := by
  constructor <;> funext idx
  · simp [opensock_write, hnamed]
  · simp [popped_write, hnamed]

/-- The control word of a ring does not hold the push bit of the TX ring. -/
theorem buftxPushed_write_ring (r : ConfigRegs) {waddr : RegAddr} {idx : BufferIdx} (hring : ringOf waddr = some idx)
    (wdata : BitVec 32) : (r.write waddr wdata).buftxPushed = r.buftxPushed := by
  have hne : waddr ≠ RegAddr.buftxPushed := by
    have hnone : ringOf RegAddr.buftxPushed = none := by decide
    rintro rfl
    simp [hnone] at hring
  simp [write, hne]

end ConfigRegs

section Loops

variable {α : Type} {u : UserHost}

/-- On its own a program does what its run does. -/
theorem UserHost.safe_of_run {p : UserCode α} {post : α → UserHost → Prop} (h : post (u.run p).1 (u.run p).2) :
    p.Safe UserHost.Responds (fun _ => True) post u := by
  induction p generalizing u with
  | done a => exact .done h
  | perform c next ih =>
    refine .perform (fun _ _ _ => trivial) fun r u' hresponds => ih r ?_
    have hr : u.execute c = (r, u') := hresponds
    have hrun : u.run (.perform c next) = u'.run (next r) := by
      change (u.execute c).2.run (next (u.execute c).1) = _
      rw [hr]
    rw [← hrun]
    exact h

namespace Udriver

/-- `notify_pop_to_rx_buffer` leaves the pop bit clear, and the socket bits as they are. -/
theorem bits_run_notifyPop {bufferId : ℕ} (hlt : bufferId < maxUdpPorts) :
    (u.run (notifyPopToRxBuffer bufferId)).2.regs.opensock = u.regs.opensock ∧
      ∀ idx, (u.run (notifyPopToRxBuffer bufferId)).2.regs.popped idx =
        if BitVec.ofNat 10 bufferId = idx then false else u.regs.popped idx := by
  have hring := ConfigRegs.ringOf_of_lt hlt
  have hread : (u.regs.read (u.shows 0) (ConfigRegs.bufferRxCtrl bufferId)).getLsbD bufferOpensockOffset =
      u.regs.opensock (BitVec.ofNat 10 bufferId) := by
    rw [ConfigRegs.read, hring]
    exact ConfigRegs.getLsbD_rxWord_opensock _ _
  have hmask (value : BitVec 32) : (value &&& maskClear).getLsbD bufferPoppedOffset = false := by
    simp [maskClear, maskSet, bufferPoppedOffset]
  have hkeep (value : BitVec 32) : (value &&& maskClear).getLsbD bufferOpensockOffset = value.getLsbD bufferOpensockOffset := by
    simp [maskClear, maskSet, bufferOpensockOffset, bufferPoppedOffset]
  simp only [notifyPopToRxBuffer, UserHost.run_bind, UserHost.run_readReg, UserHost.run_writeReg, UserHost.afterWrite,
    UserHost.afterRead]
  constructor
  · funext idx
    simp only [ConfigRegs.opensock_write, hring, Option.some.injEq, hkeep, hread]
    split
    · next heq => rw [heq]
    · rfl
  · intro idx
    simp only [ConfigRegs.popped_write, hring, Option.some.injEq, hmask]
    split <;> rfl

/-- The rings are popped in the first loop. -/
structure Popped (u : UserHost) (items : List ℕ) (u' : UserHost) : Prop where
  opensock : u'.regs.opensock = u.regs.opensock
  popped : ∀ i ∈ items, u'.regs.popped (BitVec.ofNat 10 i) = false

/-- The first loop. -/
theorem safe_popAll : (Program.forEach (List.range maxUdpPorts) notifyPopToRxBuffer).Safe UserHost.Responds (fun _ => True)
    (fun _ => Popped u (List.range maxUdpPorts)) u := by
  refine Program.Safe.forEach (Popped u) ⟨rfl, by simp⟩ ?_
  intro done b u' hb hdone
  obtain ⟨hopen, hpop⟩ := bits_run_notifyPop (u := u') (List.mem_range.mp hb)
  refine UserHost.safe_of_run ⟨hopen.trans hdone.opensock, fun i hi => ?_⟩
  rw [hpop]
  split
  · rfl
  · next hne =>
    rcases List.mem_append.mp hi with hold | hnew
    · exact hdone.popped i hold
    · exact absurd (congrArg (BitVec.ofNat 10) (List.mem_singleton.mp hnew)).symm hne

variable (dev : UdpIpDevice)

/-- The second loop closes a ring if its index, taken as a port, belongs to it. -/
def ClosedBy (i : ℕ) (idx : BufferIdx) : Prop := dev.InRange (BitVec.ofNat 16 i) ∧ dev.ring (BitVec.ofNat 16 i) = idx

instance (i : ℕ) (idx : BufferIdx) : Decidable (ClosedBy dev i idx) := inferInstanceAs (Decidable (_ ∧ _))

/-- The index of a loop is a 16-bit number. -/
theorem ofNat_setWidth {i : ℕ} (hlt : i < maxUdpPorts) : (BitVec.ofNat 16 i).setWidth 32 = BitVec.ofNat 32 i := by
  apply BitVec.eq_of_toNat_eq
  simp only [maxUdpPorts] at hlt
  rw [BitVec.toNat_setWidth_of_le (by decide), BitVec.toNat_ofNat, BitVec.toNat_ofNat]
  omega

/-- `udriver_set_socket_status` leaves the pop bits and the push bit. -/
theorem bits_run_setSocketStatus (port : BitVec 16) (status : BitVec 32) :
    (u.run (udriverSetSocketStatus dev (port.setWidth 32) status)).2.regs.popped = u.regs.popped ∧
      (u.run (udriverSetSocketStatus dev (port.setWidth 32) status)).2.regs.buftxPushed = u.regs.buftxPushed := by
  rw [udriverSetSocketStatus]
  by_cases hport : dev.InRange port
  · have hring := ConfigRegs.ringOf_of_lt (dev.sub_lt hport)
    have hread (u : UserHost) : (u.regs.read (u.shows 0) (ConfigRegs.bufferRxCtrl (port.toNat - dev.portMin.toNat))).getLsbD
        bufferPoppedOffset = u.regs.popped (BitVec.ofNat 10 (port.toNat - dev.portMin.toNat)) := by
      rw [ConfigRegs.read, hring]
      exact ConfigRegs.getLsbD_rxWord_popped _ _
    have hset (value : BitVec 32) : (value ||| opensockMask).getLsbD bufferPoppedOffset = value.getLsbD bufferPoppedOffset := by
      simp [opensockMask, bufferOpensockOffset, bufferPoppedOffset]
    have hclear (value : BitVec 32) :
        (value &&& ~~~opensockMask).getLsbD bufferPoppedOffset = value.getLsbD bufferPoppedOffset := by
      simp [opensockMask, bufferOpensockOffset, bufferPoppedOffset]
    rw [if_neg ((dev.outside_iff port).not.mpr (not_not.mpr hport))]
    simp only [UserHost.run_bind, UserHost.run_readReg, UserHost.run_writeReg, UserHost.run_pure, UserHost.afterWrite,
      UserHost.afterRead, dev.bufferId_toNat hport]
    refine ⟨?_, ConfigRegs.buftxPushed_write_ring _ hring _⟩
    funext idx
    rw [ConfigRegs.popped_write, hring]
    split
    · next heq =>
      rw [← Option.some.inj heq, ← hread]
      split
      · exact hset _
      · exact hclear _
    · rfl
  · rw [if_pos ((dev.outside_iff port).mpr hport)]
    exact ⟨rfl, rfl⟩

/-- The rings are closed in the second loop. -/
structure Closed (u : UserHost) (items : List ℕ) (u' : UserHost) : Prop where
  opensock : ∀ idx, u'.regs.opensock idx = (u.regs.opensock idx && !items.any fun i => decide (ClosedBy dev i idx))
  popped : u'.regs.popped = u.regs.popped
  buftxPushed : u'.regs.buftxPushed = u.regs.buftxPushed

/-- The second loop. -/
theorem safe_closeAll : (Program.forEach (List.range maxUdpPorts) fun i => do
      let _ ← udriverSetSocketStatus dev (BitVec.ofNat 32 i) udriverSocketClosed).Safe UserHost.Responds (fun _ => True)
    (fun _ => Closed dev u (List.range maxUdpPorts)) u := by
  refine Program.Safe.forEach (Closed dev u) ⟨by simp, rfl, rfl⟩ ?_
  intro done b u' hb hdone
  have hport := ofNat_setWidth (List.mem_range.mp hb)
  rw [← hport]
  obtain ⟨hpop, hpush⟩ := bits_run_setSocketStatus (u := u') dev (BitVec.ofNat 16 b) udriverSocketClosed
  refine UserHost.safe_of_run ?_
  rw [UserHost.run_bind, UserHost.run_pure]
  refine ⟨fun idx => ?_, hpop.trans hdone.popped, hpush.trans hdone.buftxPushed⟩
  have hopen := SocketLayer.opensock_run_setSocketStatus dev u' (BitVec.ofNat 16 b) udriverSocketClosed idx
  have hclosed : decide (udriverSocketClosed = udriverSocketOpen) = false := by decide
  rw [hopen, hdone.opensock, List.any_append, hclosed]
  by_cases hring : ClosedBy dev b idx
  · simp [if_pos (show dev.InRange _ ∧ dev.ring _ = idx from hring), hring]
  · simp [if_neg (show ¬ (dev.InRange _ ∧ dev.ring _ = idx) from hring), hring]

/-- The second loop reaches a ring if the ring's port and its number as a port are in range together. -/
theorem any_closedBy (idx : BufferIdx) : (List.range maxUdpPorts).any (fun i => decide (ClosedBy dev i idx)) = true ↔
    dev.portMin.toNat + idx.toNat ≤ dev.portMax.toNat ∧ dev.portMin.toNat + idx.toNat < maxUdpPorts := by
  have hidx := idx.isLt
  have hmin := dev.portMin.isLt
  have hrange (i : ℕ) (hi : i < 1024) : dev.InRange (BitVec.ofNat 16 i) ↔ dev.portMin.toNat ≤ i ∧ i ≤ dev.portMax.toNat := by
    rw [UdpIpDevice.InRange, BitVec.le_def, BitVec.le_def, BitVec.toNat_ofNat, Nat.mod_eq_of_lt (by omega)]
  have hring (i : ℕ) (hi : i < 1024) : dev.ring (BitVec.ofNat 16 i) = idx ↔ (i - dev.portMin.toNat) % 1024 = idx.toNat := by
    rw [UdpIpDevice.ring, ← BitVec.toNat_inj, BitVec.toNat_ofNat, BitVec.toNat_ofNat, Nat.mod_eq_of_lt (by omega : i < 2 ^ 16)]
  simp only [List.any_eq_true, List.mem_range, decide_eq_true_eq, maxUdpPorts]
  constructor
  · rintro ⟨i, hi, hin, hat⟩
    rw [hrange i hi] at hin
    rw [hring i hi] at hat
    omega
  · rintro ⟨hmax, hlt⟩
    refine ⟨dev.portMin.toNat + idx.toNat, hlt, (hrange _ hlt).mpr ⟨by omega, hmax⟩, (hring _ hlt).mpr ?_⟩
    omega

end Udriver

end Loops

section Rings

/-- The rings of the controller beside the part that takes part in a reset. -/
structure RingCore where
  core : ResetCore
  rx : BufferIdx → CircularBuffer bufferRxLength
  tx : CircularBuffer bufferTxLength

/-- One cycle around them. -/
structure RingCycle where
  reset : ResetCycle
  rxPushed : BufferIdx → Bool
  rxPopped : BufferIdx → Bool
  txPushed : Bool
  txPopped : Bool

namespace RingCore

/-- After the power-on reset. -/
def start : RingCore := ⟨.start, fun _ => .reset _, .reset _⟩

/-- One clock edge; `rst_global` resets the rings. -/
def step (t : RingCore) (i : RingCycle) : RingCore where
  core := t.core.step i.reset
  rx := fun idx => if t.core.rstGlobal then .reset _ else (t.rx idx).step (i.rxPushed idx) (i.rxPopped idx)
  tx := if t.core.rstGlobal then .reset _ else t.tx.step i.txPushed i.txPopped

/-- The rings under any writes, any transfers, any pushes and any pops. -/
def machine : Clocked.Machine RingCore RingCycle where
  step := step
  legal := fun _ _ => True

/-- No ring holds a packet. -/
def AllEmpty (t : RingCore) : Prop := (∀ idx, (t.rx idx).empty = true) ∧ t.tx.empty = true

/-- The register writes of a run, in order. -/
def writesOf (inputs : List RingCycle) : List (RegAddr × BitVec 32) := ResetCore.writesOf (inputs.map RingCycle.reset)

/-- The writes request a reset that is latched when the request is released, and when it was served all rings are
empty: for any rings before, and any pushes and pops meanwhile. -/
def EmptiedBy (writes : List (RegAddr × BitVec 32)) : Prop :=
  ∀ t, machine.Reachable start t → ∀ (before after : List RingCycle) (release i : RingCycle),
    writesOf (before ++ [release]) = writes → release.reset.write = some (RegAddr.res, 0) →
    (∀ j ∈ after, j.reset.write = none) →
      (machine.run t (before ++ [release])).core.handler.rstRequested = true ∧
        ((machine.run t (before ++ [release] ++ after)).core.handler.rstRequested = true →
          (machine.run t (before ++ [release] ++ after ++ [i])).core.handler.rstRequested = false →
            (machine.run t (before ++ [release] ++ after ++ [i])).AllEmpty)

/-- The controller's part runs on its own. -/
theorem core_run (t : RingCore) (inputs : List RingCycle) :
    (machine.run t inputs).core = ResetCore.machine.run t.core (inputs.map RingCycle.reset) := by
  induction inputs generalizing t with
  | nil => rfl
  | cons i rest ih => exact ih (t.step i)

/-- A request that is dropped in a cycle was served in it. -/
theorem allEmpty_step {t : RingCore} {i : RingCycle} (hreleased : t.core.regs.userRst = false)
    (hpending : t.core.handler.rstRequested = true) (hserved : (t.step i).core.handler.rstRequested = false) :
    (t.step i).AllEmpty := by
  have hnext := ResetCore.rstRequested_step_of_released (i := i.reset) hreleased
  rw [hpending, Bool.and_true] at hnext
  have hrst : t.core.rstGlobal = true := by
    cases hlow : t.core.rstGlobal with
    | true => rfl
    | false =>
      rw [hlow, Bool.not_false] at hnext
      exact absurd hserved (by simp [show (t.step i).core.handler.rstRequested = true from hnext])
  constructor
  · intro idx
    simp [step, hrst, CircularBuffer.reset]
  · simp [step, hrst, CircularBuffer.reset]

/-- Writes that hold a request empty the rings. -/
theorem emptiedBy_of_holds {writes : List (RegAddr × BitVec 32)} (hholds : Holds writes) : EmptiedBy writes := by
  intro t _ before after release i hwrites hrelease hquiet
  rw [← hwrites, writesOf, List.map_append, List.map_singleton] at hholds
  obtain ⟨hheld, -⟩ := ResetCore.requested_of_holds (t := t.core) hrelease hholds
  rw [← core_run] at hheld
  have hrelease' : (machine.run t (before ++ [release])).core = (machine.run t before).core.step release.reset := by
    rw [Clocked.Machine.run_append]
    rfl
  refine ⟨?_, fun hpending hserved => ?_⟩
  · rw [hrelease']
    exact ResetCore.rstRequested_step hheld
  · have hreleased : (machine.run t (before ++ [release] ++ after)).core.regs.userRst = false := by
      have hnone : ∀ j ∈ after.map RingCycle.reset, j.write = none := by
        intro j hj
        obtain ⟨k, hk, rfl⟩ := List.mem_map.mp hj
        exact hquiet k hk
      rw [Clocked.Machine.run_append, core_run, ResetCore.regs_run hnone, hrelease']
      show ((machine.run t before).core.regsNext release.reset).userRst = false
      rw [ResetCore.regsNext, hrelease]
      rfl
    rw [Clocked.Machine.run_append] at hserved ⊢
    exact allEmpty_step hreleased hpending hserved

end RingCore

end Rings

namespace Udriver

/-- `udriver_initialize` passes its checks. -/
def Accepts (portMin portMax : BitVec 16) (os : Mapping) : Prop :=
  (portMax.toNat : ℤ) - portMin.toNat < maxUdpPorts ∧ ¬ (0xFFFFFFFF < os.shmemPhysAddr ∨ os.opened = false ∨ os.mapped = false)

instance (portMin portMax : BitVec 16) (os : Mapping) : Decidable (Accepts portMin portMax os) :=
  inferInstanceAs (Decidable (_ ∧ ¬ _))

/-- A clean device: a port range, no socket open, nothing popped or pushed, and writes that empty the rings. -/
structure Clean (portMin portMax : BitVec 16) (u : UserHost) (writes : List (RegAddr × BitVec 32)) : Prop where
  ordered : portMin ≤ portMax
  narrow : portMax.toNat - portMin.toNat < maxUdpPorts
  closed : ∀ idx, u.regs.opensock idx = false
  popped : ∀ idx, u.regs.popped idx = false
  pushed : u.regs.buftxPushed = false
  emptied : RingCore.EmptiedBy writes

/-- Whenever the call returns 0 the device is clean. -/
def LeavesClean (localMac : Fin 6 → BitVec 8) (localIp subnetMask gwIp : Fin 4 → BitVec 8) (portMin portMax : BitVec 16)
    (os : Mapping) (u : UserHost) : Prop :=
  ∀ accesses u', Program.Trace UserHost.Responds
    (udriverInitialize localMac localIp subnetMask gwIp portMin portMax os) u accesses 0 u' →
      Clean portMin portMax u' (accesses.filterMap Access.write)

/-- The port range is one, and every ring whose socket is open has its port in it, and its port is the number of a ring. -/
def SocketsInRange (portMin portMax : BitVec 16) (r : ConfigRegs) : Prop :=
  portMin ≤ portMax ∧ ∀ idx, r.opensock idx = true →
    portMin.toNat + idx.toNat ≤ portMax.toNat ∧ portMin.toNat + idx.toNat < maxUdpPorts

variable {localMac : Fin 6 → BitVec 8} {localIp subnetMask gwIp : Fin 4 → BitVec 8} {portMin portMax : BitVec 16}
  {os : Mapping} {u : UserHost}

/-- What is left on the device by a call that returns 0. -/
structure Initialized (portMin portMax : BitVec 16) (u u' : UserHost) : Prop where
  opensock : ∀ idx, u'.regs.opensock idx = true ↔ u.regs.opensock idx = true ∧
    ¬ (portMin.toNat + idx.toNat ≤ portMax.toNat ∧ portMin.toNat + idx.toNat < maxUdpPorts)
  popped : ∀ idx, u'.regs.popped idx = false
  pushed : u'.regs.buftxPushed = false

/-- A register that belongs to no ring is written: the bits of the rings stay. -/
theorem safe_write_named {reg : RegAddr} {value : BitVec 32} {α : Type} {f : Unit → UserCode α} {post : α → UserHost → Prop}
    {open₀ pop₀ : BufferIdx → Bool} (hopen : u.regs.opensock = open₀) (hpop : u.regs.popped = pop₀)
    (hreg : ConfigRegs.ringOf reg = none)
    (hnext : ∀ u' : UserHost, u'.regs = u.regs.write reg value → u'.regs.opensock = open₀ → u'.regs.popped = pop₀ →
      (f ()).Safe UserHost.Responds (fun _ => True) post u') :
    (writeReg reg value >>= f).Safe UserHost.Responds (fun _ => True) post u := by
  obtain ⟨hsockets, hpops⟩ := u.regs.bits_write_named hreg value
  exact Program.Safe.bind (UserHost.safe_of_run (hnext (u.afterWrite reg value) rfl (hsockets.trans hopen) (hpops.trans hpop)))

/-- What `udriver_initialize` does to the bits of the rings. -/
theorem safe_udriverInitialize (haccepts : Accepts portMin portMax os) :
    (udriverInitialize localMac localIp subnetMask gwIp portMin portMax os).Safe UserHost.Responds (fun _ => True)
      (fun ret u' => ret = 0 ∧ Initialized portMin portMax u u') u := by
  obtain ⟨hnarrow, hos⟩ := haccepts
  rw [udriverInitialize, dif_pos hnarrow, if_neg hos]
  refine safe_write_named rfl rfl (by decide) fun u₁ _ hopen₁ hpop₁ => ?_
  refine safe_write_named hopen₁ hpop₁ (by decide) fun u₂ _ hopen₂ hpop₂ => ?_
  refine safe_write_named hopen₂ hpop₂ (by decide) fun u₃ _ hopen₃ hpop₃ => ?_
  refine safe_write_named hopen₃ hpop₃ (by decide) fun u₄ _ hopen₄ hpop₄ => ?_
  refine safe_write_named hopen₄ hpop₄ (by decide) fun u₅ _ hopen₅ hpop₅ => ?_
  refine safe_write_named hopen₅ hpop₅ (by decide) fun u₆ _ hopen₆ hpop₆ => ?_
  refine safe_write_named hopen₆ hpop₆ (by decide) fun u₇ _ hopen₇ hpop₇ => ?_
  refine safe_write_named hopen₇ hpop₇ (by decide) fun u₈ _ hopen₈ hpop₈ => ?_
  refine safe_write_named hopen₈ hpop₈ (by decide) fun u₉ _ hopen₉ _ => ?_
  refine Program.Safe.bind (safe_popAll.mono fun _ u₁₀ hpopped => ?_)
  have hclear : u₁₀.regs.popped = fun _ => false := by
    funext idx
    have hidx := hpopped.popped idx.toNat (List.mem_range.mpr idx.isLt)
    rwa [BitVec.ofNat_toNat, BitVec.setWidth_eq] at hidx
  refine safe_write_named (hpopped.opensock.trans hopen₉) hclear (by decide) fun u₁₁ hregs₁₁ hopen₁₁ hpop₁₁ => ?_
  have hpush₁₁ : u₁₁.regs.buftxPushed = false := by
    rw [hregs₁₁]
    rfl
  refine Program.Safe.bind ((safe_closeAll ⟨portMin, portMax, hnarrow⟩).mono fun _ u₁₂ hclosed => ?_)
  refine safe_write_named rfl (hclosed.popped.trans hpop₁₁) (by decide) fun u₁₃ hregs₁₃ hopen₁₃ hpop₁₃ => ?_
  refine safe_write_named hopen₁₃ hpop₁₃ (by decide) fun u₁₄ hregs₁₄ hopen₁₄ hpop₁₄ => ?_
  refine safe_write_named hopen₁₄ hpop₁₄ (by decide) fun u₁₅ hregs₁₅ hopen₁₅ hpop₁₅ => ?_
  refine .pure ⟨rfl, fun idx => ?_, fun idx => ?_, ?_⟩
  · have hany := any_closedBy ⟨portMin, portMax, hnarrow⟩ idx
    rw [hopen₁₅, hclosed.opensock, hopen₁₁, ← hany]
    simp
  · rw [hpop₁₅]
  · rw [hregs₁₅, hregs₁₄, hregs₁₃]
    exact hclosed.buftxPushed.trans hpush₁₁

/-- A call that returns 0 has passed its checks. -/
theorem accepts_of_trace {accesses : List Access} {u' : UserHost} (htrace : Program.Trace UserHost.Responds
    (udriverInitialize localMac localIp subnetMask gwIp portMin portMax os) u accesses 0 u') : Accepts portMin portMax os := by
  have hfails {u u' : UserHost} {accesses : List Access}
      (h : Program.Trace UserHost.Responds (pure (-1) : UserCode ℤ) u accesses 0 u') : False := nomatch h
  by_contra hnot
  rw [udriverInitialize] at htrace
  split at htrace
  · next hnarrow =>
    rw [if_pos (not_not.mp fun hos => hnot ⟨hnarrow, hos⟩)] at htrace
    exact hfails htrace
  · exact hfails htrace

/-- A device that is left clean had its open sockets in reach. -/
theorem socketsInRange_of_leavesClean (hclean : LeavesClean localMac localIp subnetMask gwIp portMin portMax os u)
    (haccepts : Accepts portMin portMax os) : SocketsInRange portMin portMax u.regs := by
  have hsafe : (udriverInitialize localMac localIp subnetMask gwIp portMin portMax os).Safe UserHost.Responds (fun _ => True)
      (fun ret u' => ret = 0 ∧ Initialized portMin portMax u u') u := safe_udriverInitialize haccepts
  obtain ⟨accesses, htrace⟩ : ∃ accesses, Program.Trace UserHost.Responds
      (udriverInitialize localMac localIp subnetMask gwIp portMin portMax os) u accesses _ _ :=
    Program.exists_trace UserHost.execute (fun _ _ => rfl) _ _
  obtain ⟨⟨hret, hinit⟩, -⟩ := hsafe.of_trace htrace
  rw [hret] at htrace
  have h := hclean _ _ htrace
  refine ⟨h.ordered, fun idx hopen => ?_⟩
  by_contra hmissed
  have hstays := (hinit.opensock idx).mpr ⟨hopen, hmissed⟩
  rw [h.closed idx] at hstays
  exact absurd hstays (by simp)

/-- For all ring contents, all sockets that were left open and all port ranges, a call that returns 0 leaves a clean device
exactly if the range is one and reaches every open socket by its number. -/
theorem leavesClean_iff (localMac : Fin 6 → BitVec 8) (localIp subnetMask gwIp : Fin 4 → BitVec 8)
    (portMin portMax : BitVec 16) (os : Mapping) (u : UserHost) :
    LeavesClean localMac localIp subnetMask gwIp portMin portMax os u ↔
      (Accepts portMin portMax os → SocketsInRange portMin portMax u.regs) := by
  constructor
  · intro hclean haccepts
    exact socketsInRange_of_leavesClean hclean haccepts
  · intro hall accesses u' htrace
    have haccepts := accepts_of_trace htrace
    obtain ⟨hordered, hreached⟩ := hall haccepts
    obtain ⟨⟨-, hinit⟩, -⟩ := (safe_udriverInitialize haccepts).of_trace htrace
    refine ⟨hordered, ?_, fun idx => ?_, hinit.popped, hinit.pushed, RingCore.emptiedBy_of_holds (holds_udriverInitialize htrace)⟩
    · have hnarrow := haccepts.1
      have hle : portMin.toNat ≤ portMax.toNat := hordered
      omega
    · by_contra hopen
      have hboth := (hinit.opensock idx).mp (by simpa using hopen)
      exact hboth.2 (hreached idx hboth.1)

/-- The socket of the sixth ring was left open. -/
def leftOpen : UserHost :=
  { regs := ConfigRegs.reset.write (ConfigRegs.bufferRxCtrl 5) opensockMask
    memory := fun _ => 0
    pushes := 0
    shows := fun _ => ⟨fun _ => ⟨false, false, true, 0, 0⟩, 0, 0, true, false, false, fun _ => 0⟩ }

/-- With ports from 7400 on no index of the second loop is a port, and the socket stays open. -/
theorem not_leavesClean : ¬ ∀ (localMac : Fin 6 → BitVec 8) (localIp subnetMask gwIp : Fin 4 → BitVec 8)
    (portMin portMax : BitVec 16) (os : Mapping) (u : UserHost),
    LeavesClean localMac localIp subnetMask gwIp portMin portMax os u := by
  intro hall
  have hrange := socketsInRange_of_leavesClean
    (hall (fun _ => 0) (fun _ => 0) (fun _ => 0) (fun _ => 0) 7400 7500 ⟨0x70000000, true, true⟩ leftOpen) (by decide)
  exact absurd (hrange.2 5 (by decide)).2 (by decide)

end Udriver

end UdpIpCore
