import UdpIpCore.Clocked
import UdpIpCore.Kernel.Driver

/-!
# The lifecycle of the interface

The kernel calls the driver one call after the other; the device sees every register
access on its own. It must never receive while the shared-memory register does not hold
the DMA area of the open interface.
-/

namespace UdpIpCore

namespace Kernel

open Interaction

/-- The device registers, the driver data and the kernel's view of the interface. -/
structure Host where
  regs : ConfigRegs
  params : DriverParams
  /-- The DMA area `udp_core_ndo_open` has allocated and `udp_core_ndo_stop` has not freed. -/
  area : Option (BitVec 32)
  /-- The interface is open, from the call that opens it to the return of the one that stops it. -/
  running : Bool

/-- What the device and the kernel may answer to one step of the driver. -/
structure Answer where
  status : StatusInputs
  area : Option (BitVec 32)
  gateway : BitVec 32

namespace Host

/-- After probe. -/
def probed : Host := ⟨.reset, .initial, none, false⟩

/-- The host after a register write. -/
def written (s : Host) (reg : RegAddr) (value : BitVec 32) : Host :=
  { s with regs := s.regs.write reg value }

/-- One step of the driver. -/
def perform (s : Host) (e : Answer) : (c : Cmd) → c.Response × Host
  | .readRegister reg => (s.regs.read e.status reg, s)
  | .writeRegister reg value => ((), s.written reg value)
  | .allocMemory => (e.area, { s with area := e.area.or s.area })
  | .freeMemory => ((), { s with area := none })
  | .params => (s.params, s)
  | .setParams p => ((), { s with params := p })
  | .in4Pton _ => (e.gateway, s)
  | .setRunning running => ((), { s with running := running })

/-- A step may have any of its answers. -/
def Responds (s : Host) (c : Cmd) (r : c.Response) (s' : Host) : Prop :=
  ∃ e : Answer, s.perform e c = (r, s')

/-- If the device is out of reset and a socket is open, the interface is open and the device works
on its DMA area. -/
def ReceivesSafely (s : Host) : Prop :=
  s.regs.userRst = false → ∀ idx, s.regs.opensock idx = true →
    s.running = true ∧ s.area = some s.regs.sharedMem

/-- No socket is open. -/
def Closed (s : Host) : Prop := ∀ idx, s.regs.opensock idx = false

/-- The state between two calls. -/
structure AtRest (s : Host) : Prop where
  stopped : s.running = false → s.Closed
  opened : s.running = true → s.area = some s.regs.sharedMem

end Host

/-- The calls the kernel makes after probe. -/
inductive Call
  | ndoOpen
  | ndoStop
  | devlinkSetU16 (id : DevlinkParam) (value : BitVec 16)
  | devlinkSetString (id : DevlinkParam) (value : List Char)
  | setMacAddress (mac : BitVec 48)
  | inetaddr (event : NetdevEvent) (ifaAddress ifaMask : BitVec 32) (gateway : Option (BitVec 32))

section Calls

variable (kstrtoul : List Char → Option ℕ)

/-- A call, with the kernel's own bookkeeping of the interface. -/
def Call.code : Call → Code Unit
  | ndoOpen => do
    Program.command (Cmd.setRunning true)
    let ret ← Kernel.ndoOpen
    if ret = 0 then pure () else Program.command (Cmd.setRunning false)
  | ndoStop => do
    let _ ← Kernel.ndoStop
    Program.command (Cmd.setRunning false)
  | devlinkSetU16 id value => do let _ ← Kernel.devlinkSetU16 id value
  | devlinkSetString id value => do let _ ← Kernel.devlinkSetString kstrtoul id value
  | setMacAddress mac => do let _ ← ndoSetMacAddress mac
  | inetaddr event ifaAddress ifaMask gateway => notifierCall event ifaAddress ifaMask gateway

/-- The kernel opens a stopped interface and stops an open one; the other calls come at any time. -/
def Call.Allowed (s : Host) : Call → Prop
  | ndoOpen => s.running = false
  | ndoStop => s.running = true
  | devlinkSetU16 _ _ | devlinkSetString _ _ | setMacAddress _ | inetaddr _ _ _ _ => True

/-- The driver data a devlink call stores. -/
def Call.stores (p : DriverParams) : Call → Option DriverParams
  | devlinkSetU16 id value => id.withU16 p value
  | devlinkSetString id value => id.withString kstrtoul p value
  | ndoOpen | ndoStop | setMacAddress _ | inetaddr _ _ _ _ => none

/-- No listed socket has its control word at the address of the shared-memory register. -/
def AvoidsShmem (p : DriverParams) : Prop := ∀ id ∈ p.listed, id.toNat % 2048 ≠ 2037

/-- No listed socket has its control word among those of the RX rings. -/
def OpensNone (p : DriverParams) : Prop := ∀ id ∈ p.listed, maxUdpPorts ≤ id.toNat % 2048

/-- The branch that goes wrong is not taken: no parameter is set on a stopped interface with sockets
listed, and no listed socket falls on the shared-memory register of an open one. -/
structure Call.Harmless (s : Host) (c : Call) : Prop where
  opening : c = .ndoOpen → AvoidsShmem s.params
  changing : s.running = true → ∀ p, c.stores kstrtoul s.params = some p → AvoidsShmem p
  stopped : s.running = false → ∀ p, c.stores kstrtoul s.params = some p → OpensNone p

end Calls

/-- The host with the rest of the call it is in. -/
structure Thread where
  host : Host
  pending : Code Unit

inductive Event
  | invoke (c : Call)
  | answer (e : Answer)

namespace Thread

variable (kstrtoul : List Char → Option ℕ)

/-- A new call starts, or the next step of the current one is answered. -/
def step (t : Thread) : Event → Thread
  | .invoke c => { t with pending := c.code kstrtoul }
  | .answer e =>
    match t.pending with
    | .done _ => t
    | .perform c next => ⟨(t.host.perform e c).2, next (t.host.perform e c).1⟩

/-- One call at a time, in an order the kernel can use. -/
def Legal (t : Thread) : Event → Prop
  | .invoke c => t.pending.isDone = true ∧ c.Allowed t.host
  | .answer _ => t.pending.isDone = false

/-- The kernel, the driver and the device after probe. -/
def lifecycle : Clocked.Machine Thread Event where
  step := step kstrtoul
  legal := Legal

/-- After probe. -/
def start : Thread := ⟨.probed, .done ()⟩

/-- The condition on the calls of a run. -/
def Harmless (t : Thread) : Event → Prop
  | .invoke c => c.Harmless kstrtoul t.host
  | .answer _ => True

end Thread

/-- The property of each moment of a run. -/
def SafeMoment (t : Thread) (_ : Event) : Prop := t.host.ReceivesSafely

section Steps

variable {s : Host} {α : Type}

/-- A device in reset receives nothing. -/
theorem receivesSafely_of_reset (h : s.regs.userRst = true) : s.ReceivesSafely := by
  intro hres
  simp [h] at hres

/-- Between two calls the device receives safely. -/
theorem receivesSafely_of_atRest (h : s.AtRest) : s.ReceivesSafely := by
  intro _ idx hopen
  cases hrunning : s.running with
  | false => simp [h.stopped hrunning idx] at hopen
  | true => exact ⟨rfl, h.opened hrunning⟩

variable {inv : Host → Prop}

/-- A single step, with any of its answers. -/
theorem safe_command {c : Cmd} {post : c.Response → Host → Prop}
    (h : ∀ e : Answer, inv (s.perform e c).2 ∧ post (s.perform e c).1 (s.perform e c).2) :
    (Program.command c : Code c.Response).Safe Host.Responds inv post s := by
  refine Program.Safe.command ?_
  rintro r s' ⟨e, he⟩
  obtain ⟨rfl, rfl⟩ := Prod.mk.inj he
  exact h e

/-- A register read. -/
theorem safe_read {reg : RegAddr} {post : BitVec 32 → Host → Prop} (hs : inv s)
    (hpost : ∀ status, post (s.regs.read status reg) s) :
    (readRegister reg).Safe Host.Responds inv post s :=
  safe_command (c := .readRegister reg) fun e => ⟨hs, hpost e.status⟩

/-- A register write. -/
theorem safe_write {reg : RegAddr} {value : BitVec 32} {post : Unit → Host → Prop}
    (hs : inv (s.written reg value)) (hpost : post () (s.written reg value)) :
    (writeRegister reg value).Safe Host.Responds inv post s :=
  safe_command (c := .writeRegister reg value) fun _ => ⟨hs, hpost⟩

/-- The driver data are read. -/
theorem safe_params {post : DriverParams → Host → Prop} (hs : inv s) (hpost : post s.params s) :
    (Program.command Cmd.params).Safe Host.Responds inv post s :=
  safe_command (c := .params) fun _ => ⟨hs, hpost⟩

/-- A gateway address is parsed. -/
theorem safe_in4Pton {gwIp : List Char} {post : BitVec 32 → Host → Prop} (hs : inv s)
    (hpost : ∀ gw4, post gw4 s) :
    (Program.command (Cmd.in4Pton gwIp)).Safe Host.Responds inv post s :=
  safe_command (c := .in4Pton gwIp) fun e => ⟨hs, hpost e.gateway⟩

/-- The device is in reset and the driver data are those of `s₀`. -/
structure Held (s₀ s : Host) : Prop where
  reset : s.regs.userRst = true
  params : s.params = s₀.params
  area : s.area = s₀.area
  running : s.running = s₀.running

variable {s₀ : Host}

/-- A write that leaves the reset asserted. -/
theorem Held.written (h : Held s₀ s) {reg : RegAddr} {value : BitVec 32}
    (hreg : reg = RegAddr.res → value.getLsbD 0 = true) : Held s₀ (s.written reg value) := by
  refine ⟨?_, h.params, h.area, h.running⟩
  change (if reg = RegAddr.res then value.getLsbD 0 else s.regs.userRst) = true
  by_cases hres : reg = RegAddr.res
  · rw [if_pos hres, hreg hres]
  · rw [if_neg hres, h.reset]

/-- The sockets after a write of a ring's control word. -/
theorem opensock_written {bufferId : ℕ} (hlt : bufferId < maxUdpPorts) (value : BitVec 32)
    (idx : BufferIdx) :
    (s.written (ConfigRegs.bufferRxCtrl bufferId) value).regs.opensock idx =
      if idx.toNat = bufferId then value.getLsbD bufferOpensockOffset else s.regs.opensock idx := by
  change (s.regs.write _ value).opensock idx = _
  rw [ConfigRegs.opensock_write, ConfigRegs.ringOf_of_lt hlt]
  have hidx : some (BitVec.ofNat 10 bufferId) = some idx ↔ idx.toNat = bufferId := by
    rw [Option.some.injEq, ← BitVec.toNat_inj, BitVec.toNat_ofNat, Nat.mod_eq_of_lt hlt, eq_comm]
  by_cases h : idx.toNat = bufferId
  · rw [if_pos (hidx.mpr h), if_pos h]
  · rw [if_neg (fun heq => h (hidx.mp heq)), if_neg h]

/-- The shared-memory address after a write of a ring's control word. -/
theorem sharedMem_written {bufferId : ℕ} (hlt : bufferId < maxUdpPorts) (value : BitVec 32) :
    (s.written (ConfigRegs.bufferRxCtrl bufferId) value).regs.sharedMem = s.regs.sharedMem :=
  if_neg (ConfigRegs.ringOf_named (ConfigRegs.ringOf_of_lt hlt)).2

/-- What a driver loop over the rings keeps: the reset, the driver data and the DMA address. -/
structure HeldAt (s₀ s : Host) : Prop extends Held s₀ s where
  sharedMem : s.regs.sharedMem = s₀.regs.sharedMem

/-- The open-socket bit read from a ring's control word is the stored one. -/
theorem read_opensock {bufferId : ℕ} (hlt : bufferId < maxUdpPorts) (status : StatusInputs)
    {idx : BufferIdx} (hidx : idx.toNat = bufferId) :
    (s.regs.read status (ConfigRegs.bufferRxCtrl bufferId)).getLsbD bufferOpensockOffset =
      s.regs.opensock idx := by
  have heq : BitVec.ofNat 10 bufferId = idx := by
    rw [← hidx]
    exact BitVec.ofNat_toNat .. |>.trans (BitVec.setWidth_eq _)
  rw [ConfigRegs.read, ConfigRegs.ringOf_of_lt hlt, heq]
  exact ConfigRegs.getLsbD_rxWord_opensock _ _

/-- Clearing the open-socket bit. -/
theorem opensock_and (value : BitVec 32) :
    (value &&& ~~~opensockMask).getLsbD bufferOpensockOffset = false := by
  have hmask : (~~~opensockMask).getLsbD bufferOpensockOffset = false := by decide
  rw [BitVec.getLsbD_and, hmask, Bool.and_false]

/-- Setting the open-socket bit. -/
theorem opensock_or (value : BitVec 32) :
    (value ||| opensockMask).getLsbD bufferOpensockOffset = true := by
  have hmask : opensockMask.getLsbD bufferOpensockOffset = true := by decide
  rw [BitVec.getLsbD_or, hmask, Bool.or_true]

/-- Clearing the popped bit leaves the open-socket bit. -/
theorem opensock_and_popped (value : BitVec 32) :
    (value &&& ~~~poppedMask).getLsbD bufferOpensockOffset = value.getLsbD bufferOpensockOffset := by
  have hmask : (~~~poppedMask).getLsbD bufferOpensockOffset = true := by decide
  rw [BitVec.getLsbD_and, hmask, Bool.and_true]

/-- The sockets of the listed rings are closed. -/
def ClosedOn (items : List ℕ) (s : Host) : Prop :=
  ∀ idx : BufferIdx, idx.toNat ∈ items → s.regs.opensock idx = false

/-- The rings closed so far stay closed while one more is closed. -/
theorem ClosedOn.append {done : List ℕ} {bufferId : ℕ} {s' : Host} (h : ClosedOn done s)
    (hstep : ∀ idx, s'.regs.opensock idx =
      if idx.toNat = bufferId then false else s.regs.opensock idx) :
    ClosedOn (done ++ [bufferId]) s' := by
  intro idx hidx
  rw [hstep]
  split
  · rfl
  · rename_i hne
    rw [List.mem_append, List.mem_singleton] at hidx
    exact h idx (hidx.resolve_right hne)

/-- Closing all rings closes every socket. -/
theorem ClosedOn.closed (h : ClosedOn (List.range maxUdpPorts) s) : s.Closed :=
  fun idx => h idx (List.mem_range.mpr idx.isLt)

/-- A loop whose body closes the socket of its ring closes the sockets of all its rings. -/
theorem safe_closing {body : ℕ → Code Unit}
    (hbody : ∀ bufferId s, bufferId < maxUdpPorts → HeldAt s₀ s →
      (body bufferId).Safe Host.Responds inv (fun _ s' => HeldAt s₀ s' ∧
        ∀ idx, s'.regs.opensock idx = if idx.toNat = bufferId then false else s.regs.opensock idx) s)
    (items : List ℕ) (hitems : ∀ bufferId ∈ items, bufferId < maxUdpPorts) (h : HeldAt s₀ s) :
    (Program.forEach items body).Safe Host.Responds inv
      (fun _ s' => HeldAt s₀ s' ∧ ClosedOn items s') s := by
  refine Program.Safe.forEach (fun done s' => HeldAt s₀ s' ∧ ClosedOn done s')
    ⟨h, fun _ hidx => absurd hidx List.not_mem_nil⟩ ?_
  rintro done bufferId s' hmem ⟨hheld, hclosed⟩
  exact (hbody bufferId s' (hitems bufferId hmem) hheld).mono
    fun _ _ hstep => ⟨hstep.1, hclosed.append hstep.2⟩

/-- The register is neither the shared-memory register nor the control word of a ring. -/
def Plain (reg : RegAddr) : Prop := reg ≠ RegAddr.shmem ∧ ConfigRegs.ringOf reg = none

instance (reg : RegAddr) : Decidable (Plain reg) := inferInstanceAs (Decidable (_ ∧ _))

/-- A write to another register leaves the sockets. -/
theorem Plain.opensock {reg : RegAddr} (hreg : Plain reg) (value : BitVec 32) (idx : BufferIdx) :
    (s.written reg value).regs.opensock idx = s.regs.opensock idx := by
  change (s.regs.write reg value).opensock idx = _
  rw [ConfigRegs.opensock_write, hreg.2, if_neg (by simp)]

/-- A write to another register leaves the shared-memory address. -/
theorem Plain.sharedMem {reg : RegAddr} (hreg : Plain reg) (value : BitVec 32) :
    (s.written reg value).regs.sharedMem = s.regs.sharedMem :=
  if_neg hreg.1

/-- A write to another register keeps what holds between two calls. -/
theorem Host.AtRest.written (h : s.AtRest) {reg : RegAddr} (hreg : Plain reg) (value : BitVec 32) :
    (s.written reg value).AtRest where
  stopped := fun hrunning idx => (hreg.opensock value idx).trans (h.stopped hrunning idx)
  opened := fun hrunning => by
    rw [hreg.sharedMem]
    exact h.opened hrunning

/-- The driver data and the DMA area are those of `s₀`, and the open sockets are the listed ones. -/
structure Reopened (s₀ s : Host) : Prop where
  params : s.params = s₀.params
  area : s.area = s₀.area
  running : s.running = s₀.running
  sharedMem : AvoidsShmem s₀.params → s.regs.sharedMem = s₀.regs.sharedMem
  opensock : ∀ idx : BufferIdx, s.regs.opensock idx = true ↔
    ∃ id : BitVec 16, id ∈ s₀.params.listed ∧ id.toNat % 2048 = idx.toNat

/-- A write to another register keeps the sockets open. -/
theorem Reopened.written (h : Reopened s₀ s) {reg : RegAddr} (hreg : Plain reg) (value : BitVec 32) :
    Reopened s₀ (s.written reg value) where
  params := h.params
  area := h.area
  running := h.running
  sharedMem := fun havoids => (hreg.sharedMem value).trans (h.sharedMem havoids)
  opensock := fun idx => by rw [hreg.opensock, h.opensock]

/-- On the DMA area of an open interface, what the loop opens is safe. -/
theorem Reopened.atRest_of_running (h : Reopened s₀ s) (hrunning : s₀.running = true)
    (harea : s₀.area = some s₀.regs.sharedMem) (havoids : AvoidsShmem s₀.params) : s.AtRest where
  stopped := fun hstopped => by simp [h.running, hrunning] at hstopped
  opened := fun _ => by rw [h.area, h.sharedMem havoids, harea]

/-- On a stopped interface, the loop has to open nothing. -/
theorem Reopened.atRest_of_stopped (h : Reopened s₀ s) (hstopped : s₀.running = false)
    (hnone : OpensNone s₀.params) : s.AtRest where
  stopped := fun _ idx => by
    rw [Bool.eq_false_iff, Ne, h.opensock]
    rintro ⟨id, hid, hidx⟩
    have hring := hnone id hid
    rw [hidx] at hring
    exact absurd idx.isLt (Nat.not_lt.mpr hring)
  opened := fun hrunning => by simp [h.running, hstopped] at hrunning

variable (hinv : ∀ s : Host, s.regs.userRst = true → inv s)
include hinv

/-- A write in reset. -/
theorem Held.safe_write (h : Held s₀ s) {reg : RegAddr} {value : BitVec 32}
    {post : Unit → Host → Prop} (hreg : reg = RegAddr.res → value.getLsbD 0 = true)
    (hpost : Held s₀ (s.written reg value) → post () (s.written reg value)) :
    (writeRegister reg value).Safe Host.Responds inv post s :=
  Kernel.safe_write (hinv _ (h.written hreg).reset) (hpost (h.written hreg))

/-- A read in reset. -/
theorem Held.safe_read (h : Held s₀ s) {reg : RegAddr} {post : BitVec 32 → Host → Prop}
    (hpost : ∀ status, post (s.regs.read status reg) s) :
    (readRegister reg).Safe Host.Responds inv post s :=
  Kernel.safe_read (hinv _ h.reset) hpost

/-- A write of a ring's control word in reset. -/
theorem HeldAt.safe_write (h : HeldAt s₀ s) {bufferId : ℕ} (hlt : bufferId < maxUdpPorts)
    {value : BitVec 32} {post : Unit → Host → Prop}
    (hpost : HeldAt s₀ (s.written (ConfigRegs.bufferRxCtrl bufferId) value) →
      post () (s.written (ConfigRegs.bufferRxCtrl bufferId) value)) :
    (writeRegister (ConfigRegs.bufferRxCtrl bufferId) value).Safe Host.Responds inv
      post s :=
  Held.safe_write hinv h.toHeld (fun hres => absurd hres (ConfigRegs.ringOf_named (ConfigRegs.ringOf_of_lt hlt)).1)
    fun hheld => hpost ⟨hheld, (sharedMem_written hlt value).trans h.sharedMem⟩

/-- `udp_core_netdev_clear_socket` closes the socket of its ring and no other. -/
theorem safe_clearSocket {bufferId : ℕ} (hlt : bufferId < maxUdpPorts) (h : HeldAt s₀ s) :
    (clearSocket bufferId).Safe Host.Responds inv
      (fun _ s' => HeldAt s₀ s' ∧ ∀ idx, s'.regs.opensock idx =
        if idx.toNat = bufferId then false else s.regs.opensock idx) s := by
  refine Program.Safe.bind (Held.safe_read hinv h.toHeld fun status => ?_)
  refine HeldAt.safe_write hinv h hlt fun hheld => ⟨hheld, fun idx => ?_⟩
  rw [opensock_written hlt, opensock_and]

/-- `udp_core_netdev_notify_pop_rx` leaves every socket as it is. -/
theorem safe_notifyPopRx {bufferId : ℕ} (hlt : bufferId < maxUdpPorts) (h : HeldAt s₀ s) :
    (notifyPopRx bufferId).Safe Host.Responds inv
      (fun _ s' => HeldAt s₀ s' ∧ ∀ idx, s'.regs.opensock idx = s.regs.opensock idx) s := by
  refine Program.Safe.bind (Held.safe_read hinv h.toHeld fun status => ?_)
  refine Program.Safe.bind (HeldAt.safe_write hinv h hlt fun h₁ => ?_)
  refine Program.Safe.bind (HeldAt.safe_write hinv h₁ hlt fun h₂ => ?_)
  refine HeldAt.safe_write hinv h₂ hlt fun h₃ => ⟨h₃, fun idx => ?_⟩
  rw [opensock_written hlt, opensock_written hlt, opensock_written hlt]
  by_cases hidx : idx.toNat = bufferId
  · rw [if_pos hidx, ← read_opensock hlt status hidx, opensock_and_popped]
  · rw [if_neg hidx, if_neg hidx, if_neg hidx]

/-- Emptying a ring closes its socket and no other. -/
theorem safe_emptyBuffer {bufferId : ℕ} (hlt : bufferId < maxUdpPorts) (h : HeldAt s₀ s) :
    (emptyBuffer bufferId).Safe Host.Responds inv
      (fun _ s' => HeldAt s₀ s' ∧ ∀ idx, s'.regs.opensock idx =
        if idx.toNat = bufferId then false else s.regs.opensock idx) s := by
  refine Program.Safe.bind ((safe_notifyPopRx hinv hlt h).mono fun _ s₁ hpop => ?_)
  refine (safe_clearSocket hinv hlt hpop.1).mono fun _ s₂ hclear => ⟨hclear.1, fun idx => ?_⟩
  rw [hclear.2, hpop.2]

/-- `udp_core_netdev_notify_change` starts by closing every socket. -/
theorem safe_clearSockets (h : HeldAt s₀ s) : clearSockets.Safe Host.Responds inv
    (fun _ s' => HeldAt s₀ s' ∧ s'.Closed) s := by
  have hloop := safe_closing (fun _ _ hlt => safe_clearSocket hinv hlt) (List.range maxUdpPorts)
    (fun _ hb => List.mem_range.mp hb) h
  exact Program.Safe.mono hloop fun _ _ hs' => ⟨hs'.1, hs'.2.closed⟩

/-- Emptying the rings closes every socket as well. -/
theorem safe_emptyBuffers (h : HeldAt s₀ s) : emptyBuffers.Safe Host.Responds inv
    (fun _ s' => HeldAt s₀ s' ∧ s'.Closed) s := by
  have hloop := safe_closing (fun _ _ hlt => safe_emptyBuffer hinv hlt) (List.range maxUdpPorts)
    (fun _ hb => List.mem_range.mp hb) h
  exact Program.Safe.mono hloop fun _ _ hs' => ⟨hs'.1, hs'.2.closed⟩

/-- `udp_core_netdev_open_socket` opens the ring its identifier addresses, if any. It reaches the
DMA address only through the identifiers that fall on its register. -/
theorem safe_openSocket {bufferId : ℕ} (h : Held s₀ s) :
    (openSocket bufferId).Safe Host.Responds inv
      (fun _ s' => Held s₀ s' ∧
        (bufferId % 2048 ≠ 2037 → s'.regs.sharedMem = s.regs.sharedMem) ∧
        ∀ idx : BufferIdx, s'.regs.opensock idx =
          if bufferId % 2048 = idx.toNat then true else s.regs.opensock idx) s := by
  refine Program.Safe.bind (Held.safe_read hinv h fun status => ?_)
  refine Program.Safe.bind (Held.safe_write hinv h (fun hres => ?_) fun hheld => ?_)
  · rw [hres, BitVec.getLsbD_or, ConfigRegs.getLsbD_read_res, h.reset, Bool.true_or]
  refine Program.Safe.bind (Held.safe_read hinv hheld fun _ => .done ⟨hheld, fun havoids => ?_, fun idx => ?_⟩)
  · exact if_neg fun hshmem => havoids ((ConfigRegs.bufferRxCtrl_eq_shmem bufferId).mp hshmem)
  · change (s.regs.write _ _).opensock idx = _
    rw [ConfigRegs.opensock_write, opensock_or, ConfigRegs.ringOf_bufferRxCtrl]
    have hidx := idx.isLt
    by_cases hring : bufferId % 2048 < maxUdpPorts
    · have heq : some (BitVec.ofNat 10 bufferId) = some idx ↔ bufferId % 2048 = idx.toNat := by
        rw [Option.some.injEq, ← BitVec.toNat_inj, BitVec.toNat_ofNat]
        simp only [maxUdpPorts] at hring
        omega
      rw [if_pos hring]
      by_cases h : bufferId % 2048 = idx.toNat
      · rw [if_pos (heq.mpr h), if_pos h]
      · rw [if_neg (fun hsome => h (heq.mp hsome)), if_neg h]
    · rw [if_neg hring, if_neg (by simp), if_neg]
      simp only [maxUdpPorts] at hring
      omega

/-- The loop over the listed sockets opens the rings they address and no other. -/
theorem safe_openSockets {ids : List (BitVec 16)} (h : Held s₀ s) :
    (openSockets ids).Safe Host.Responds inv
      (fun _ s' => Held s₀ s' ∧
        ((∀ id ∈ ids, id.toNat % 2048 ≠ 2037) → s'.regs.sharedMem = s.regs.sharedMem) ∧
        ∀ idx : BufferIdx, s'.regs.opensock idx = true ↔
          s.regs.opensock idx = true ∨ ∃ id : BitVec 16, id ∈ ids ∧ id.toNat % 2048 = idx.toNat) s := by
  refine Program.Safe.forEach (fun done s' => Held s₀ s' ∧
    ((∀ id : BitVec 16, id ∈ done → id.toNat % 2048 ≠ 2037) → s'.regs.sharedMem = s.regs.sharedMem) ∧
    ∀ idx : BufferIdx, s'.regs.opensock idx = true ↔
      s.regs.opensock idx = true ∨ ∃ id : BitVec 16, id ∈ done ∧ id.toNat % 2048 = idx.toNat)
    ⟨h, fun _ => rfl, by simp⟩ ?_
  rintro done id s₁ - ⟨hheld, hshmem, hopen⟩
  refine (safe_openSocket hinv hheld).mono fun _ s₂ hstep => ⟨hstep.1, fun havoids => ?_, fun idx => ?_⟩
  · rw [hstep.2.1 (havoids id (by simp)), hshmem fun x hx => havoids x (List.mem_append_left _ hx)]
  · rw [hstep.2.2]
    simp only [List.mem_append, List.mem_singleton]
    by_cases hid : id.toNat % 2048 = idx.toNat
    · rw [if_pos hid]
      exact iff_of_true rfl (Or.inr ⟨id, Or.inr rfl, hid⟩)
    · rw [if_neg hid, hopen]
      constructor
      · rintro (hold | ⟨x, hx, hxidx⟩)
        · exact Or.inl hold
        · exact Or.inr ⟨x, Or.inl hx, hxidx⟩
      · rintro (hold | ⟨x, hx | rfl, hxidx⟩)
        · exact Or.inl hold
        · exact Or.inr ⟨x, hx, hxidx⟩
        · exact absurd hxidx hid

/-- Opening the listed sockets of a device with none open. -/
theorem safe_reopen (h : HeldAt s₀ s) (hclosed : s.Closed) :
    (openSockets s₀.params.listed).Safe Host.Responds inv
      (fun _ s' => s'.regs.userRst = true ∧ Reopened s₀ s') s := by
  refine (safe_openSockets hinv h.toHeld).mono fun _ s' hs' => ⟨hs'.1.reset, ?_⟩
  refine ⟨hs'.1.params, hs'.1.area, hs'.1.running, fun havoids => ?_, fun idx => ?_⟩
  · rw [hs'.2.1 havoids, h.sharedMem]
  · rw [hs'.2.2, hclosed idx]
    simp

/-- A write in reset once the sockets are open. -/
theorem Reopened.safe_write (h : Reopened s₀ s) (hreset : s.regs.userRst = true) {reg : RegAddr}
    {value : BitVec 32} {post : Unit → Host → Prop} (hreg : Plain reg ∧ reg ≠ RegAddr.res)
    (hpost : (s.written reg value).regs.userRst = true → Reopened s₀ (s.written reg value) →
      post () (s.written reg value)) :
    (writeRegister reg value).Safe Host.Responds inv post s := by
  have hreset' : (s.written reg value).regs.userRst = true := (if_neg hreg.2).trans hreset
  exact Kernel.safe_write (hinv _ hreset') (hpost hreset' (h.written hreg.1 value))

/-- `udp_core_netdev_notify_change` takes the device out of reset with the listed sockets open. -/
theorem safe_notifyChange
    (hfinal : ∀ s', Reopened s s' → s'.regs.userRst = false → inv s') :
    notifyChange.Safe Host.Responds inv
      (fun _ s' => Reopened s s' ∧ s'.regs.userRst = false) s := by
  have hheld : HeldAt (s.written RegAddr.res 1) (s.written RegAddr.res 1) :=
    ⟨⟨rfl, rfl, rfl, rfl⟩, rfl⟩
  refine Program.Safe.bind (Kernel.safe_write (hinv _ hheld.reset) ?_)
  refine Program.Safe.bind ((safe_clearSockets hinv hheld).mono fun _ s₁ hs₁ => ?_)
  refine Program.Safe.bind (safe_params (hinv _ hs₁.1.reset) ?_)
  rw [hs₁.1.params]
  refine Program.Safe.bind ((safe_reopen hinv hs₁.1 hs₁.2).mono fun _ s₂ hs₂ => ?_)
  have hopen : Reopened s s₂ := ⟨hs₂.2.params, hs₂.2.area, hs₂.2.running, hs₂.2.sharedMem, hs₂.2.opensock⟩
  refine Program.Safe.bind (hopen.safe_write hinv hs₂.1 (by decide) fun hreset₃ h₃ => ?_)
  refine Program.Safe.bind (h₃.safe_write hinv hreset₃ (by decide) fun hreset₄ h₄ => ?_)
  refine Program.Safe.bind (safe_in4Pton (hinv _ hreset₄) fun gw4 => ?_)
  refine Program.Safe.bind (h₄.safe_write hinv hreset₄ (by decide) fun hreset₅ h₅ => ?_)
  have hlast := h₅.written (by decide : Plain RegAddr.res) 0
  exact Kernel.safe_write (hfinal _ hlast rfl) ⟨hlast, rfl⟩

/-- A devlink setter that stores its parameter reopens the listed sockets, on any interface. -/
theorem safe_devlinkSet_stored {update : DriverParams → Option DriverParams} {p : DriverParams}
    (hs : inv s) (hparams : inv { s with params := p }) (hupdate : update s.params = some p)
    (hfinal : ∀ s', Reopened { s with params := p } s' → s'.regs.userRst = false → inv s') :
    (devlinkSet update).Safe Host.Responds inv
      (fun _ s' => Reopened { s with params := p } s' ∧ s'.regs.userRst = false) s := by
  refine Program.Safe.bind (safe_params hs ?_)
  rw [hupdate]
  refine Program.Safe.bind (safe_command (c := .setParams p) fun _ => ⟨hparams, ?_⟩)
  exact Program.Safe.bind ((safe_notifyChange hinv hfinal).mono fun _ _ hs' => .pure hs')

end Steps

/-- A run of a function that starts with a register write. -/
theorem split_write {responds : Host → (c : Cmd) → c.Response → Host → Prop}
    (hresponds : ∀ s c r s', responds s c r s' → Host.Responds s c r s') {α : Type} {reg : RegAddr} {value : BitVec 32}
    {f : Unit → Code α} {s s' : Host} {cmds : List Cmd} {a : α}
    (h : Program.Trace responds (writeRegister reg value >>= f) s cmds a s') :
    ∃ rest, cmds = .writeRegister reg value :: rest ∧ Program.Trace responds (f ()) (s.written reg value) rest a s' := by
  obtain ⟨rest, r, s₁, rfl, hr, hrest⟩ := h.split_command
  obtain ⟨e, he⟩ := hresponds _ _ _ _ hr
  obtain ⟨-, rfl⟩ := Prod.mk.inj he
  exact ⟨rest, rfl, hrest⟩

section CallSafety

variable {s : Host} {α : Type}

/-- A register write between two calls, outside the reset, the DMA address and the rings. -/
theorem Host.AtRest.safe_write (h : s.AtRest) {reg : RegAddr} {value : BitVec 32}
    {post : Unit → Host → Prop} (hreg : Plain reg)
    (hpost : (s.written reg value).AtRest → post () (s.written reg value)) :
    (writeRegister reg value).Safe Host.Responds Host.ReceivesSafely post s :=
  Kernel.safe_write (receivesSafely_of_atRest (h.written hreg value)) (hpost (h.written hreg value))

/-- `udp_core_ndo_open` with the area it has allocated. -/
def ndoOpenWith (physDmaArea : BitVec 32) : Code Int := do
  let p ← Program.command Cmd.params
  writeRegister RegAddr.shmem physDmaArea
  writeRegister RegAddr.udpRangeL (p.portLow.setWidth 32)
  writeRegister RegAddr.udpRangeH (p.portHigh.setWidth 32)
  emptyBuffers
  openSockets p.listed
  writeRegister RegAddr.buftxPushed 0
  writeRegister RegAddr.ier0 1
  writeRegister RegAddr.gie 1
  writeRegister RegAddr.res 0
  return 0

theorem ndoOpen_eq : Kernel.ndoOpen = (do
    writeRegister RegAddr.res 1
    match ← Program.command Cmd.allocMemory with
    | none => return enomem
    | some physDmaArea => ndoOpenWith physDmaArea) := rfl

/-- With its area, `udp_core_ndo_open` takes the device out of reset with the listed sockets open. -/
theorem safe_ndoOpenWith {inv : Host → Prop} (hinv : ∀ s : Host, s.regs.userRst = true → inv s) (physDmaArea : BitVec 32)
    (hreset : s.regs.userRst = true)
    (hfinal : ∀ s', Reopened (s.written RegAddr.shmem physDmaArea) s' → s'.regs.userRst = false → inv s') :
    (ndoOpenWith physDmaArea).Safe Host.Responds inv (fun ret s' =>
      ret = 0 ∧ Reopened (s.written RegAddr.shmem physDmaArea) s' ∧ s'.regs.userRst = false) s := by
  have hheld : HeldAt (s.written RegAddr.shmem physDmaArea) (((s.written RegAddr.shmem physDmaArea).written RegAddr.udpRangeL
      (s.params.portLow.setWidth 32)).written RegAddr.udpRangeH (s.params.portHigh.setWidth 32)) :=
    ⟨⟨hreset, rfl, rfl, rfl⟩, rfl⟩
  refine Program.Safe.bind (safe_params (hinv _ hreset) ?_)
  refine Program.Safe.bind (Kernel.safe_write (hinv _ hreset) ?_)
  refine Program.Safe.bind (Kernel.safe_write (hinv _ hreset) ?_)
  refine Program.Safe.bind (Kernel.safe_write (hinv _ hreset) ?_)
  refine Program.Safe.bind ((safe_emptyBuffers hinv hheld).mono fun _ s₁ hs₁ => ?_)
  refine Program.Safe.bind ((safe_reopen hinv hs₁.1 hs₁.2).mono fun _ s₂ hs₂ => ?_)
  refine Program.Safe.bind (hs₂.2.safe_write hinv hs₂.1 (by decide) fun hreset₃ h₃ => ?_)
  refine Program.Safe.bind (h₃.safe_write hinv hreset₃ (by decide) fun hreset₄ h₄ => ?_)
  refine Program.Safe.bind (h₄.safe_write hinv hreset₄ (by decide) fun _ h₅ => ?_)
  have hlast := h₅.written (by decide : Plain RegAddr.res) 0
  exact Program.Safe.bind (Kernel.safe_write (hfinal _ hlast rfl) (.done ⟨rfl, hlast, rfl⟩))

/-- `udp_core_ndo_open` leaves the device receiving into the area it has allocated. If it fails, all
sockets stay closed. -/
theorem safe_ndoOpen (hclosed : s.Closed) (hrunning : s.running = true) (havoids : AvoidsShmem s.params) :
    Kernel.ndoOpen.Safe Host.Responds Host.ReceivesSafely (fun ret s' =>
      if ret = 0 then s'.running = true ∧ s'.area = some s'.regs.sharedMem else s'.Closed) s := by
  have hreset : ∀ s : Host, s.regs.userRst = true → s.ReceivesSafely := fun _ => receivesSafely_of_reset
  rw [ndoOpen_eq]
  refine Program.Safe.bind (Kernel.safe_write (hreset _ rfl) ?_)
  refine Program.Safe.bind (safe_command fun e => ⟨hreset _ rfl, ?_⟩)
  change Program.Safe _ _ _ (match e.area with | none => _ | some _ => _) _
  cases hphys : e.area with
  | none => exact .done fun idx => hclosed idx
  | some physDmaArea =>
    have harea : e.area.or s.area = some physDmaArea := by rw [hphys, Option.some_or]
    have hrest {s' : Host} (h : Reopened ((Host.perform (s.written RegAddr.res 1) e .allocMemory).2.written RegAddr.shmem
        physDmaArea) s') : s'.AtRest := h.atRest_of_running hrunning harea havoids
    refine (safe_ndoOpenWith hreset physDmaArea rfl fun s' h _ => receivesSafely_of_atRest (hrest h)).mono fun ret s' hs' => ?_
    rw [if_pos hs'.1]
    exact ⟨hs'.2.1.running.trans hrunning, (hrest hs'.2.1).opened (hs'.2.1.running.trans hrunning)⟩

/-- `udp_core_ndo_stop` leaves every socket closed. -/
theorem safe_ndoStop : Kernel.ndoStop.Safe Host.Responds Host.ReceivesSafely (fun _ s' => s'.Closed) s := by
  have hreset : ∀ s : Host, s.regs.userRst = true → s.ReceivesSafely := fun _ => receivesSafely_of_reset
  refine Program.Safe.bind (Kernel.safe_write (hreset _ rfl) ?_)
  refine Program.Safe.bind (safe_command (c := .freeMemory) fun e => ⟨hreset _ rfl, ?_⟩)
  refine Program.Safe.bind (Kernel.safe_write (hreset _ rfl) ?_)
  refine Program.Safe.bind ((safe_emptyBuffers hreset ⟨⟨rfl, rfl, rfl, rfl⟩, rfl⟩).mono fun _ s₁ hs₁ => ?_)
  have hclosed : ∀ reg value, Plain reg → ∀ s : Host, s.Closed → (s.written reg value).Closed :=
    fun reg value hreg s hs idx => (hreg.opensock value idx).trans (hs idx)
  have h₁ := hclosed RegAddr.buftxPushed 0 (by decide) _ hs₁.2
  have h₂ := hclosed RegAddr.ier0 0 (by decide) _ h₁
  have h₃ := hclosed RegAddr.gie 0 (by decide) _ h₂
  have h₄ := hclosed RegAddr.res 0 (by decide) _ h₃
  have hsafe : ∀ s : Host, s.Closed → s.ReceivesSafely := fun s hs _ idx hopen => by simp [hs idx] at hopen
  refine Program.Safe.bind (Kernel.safe_write (hsafe _ h₁) ?_)
  refine Program.Safe.bind (Kernel.safe_write (hsafe _ h₂) ?_)
  refine Program.Safe.bind (Kernel.safe_write (hsafe _ h₃) ?_)
  exact Program.Safe.bind (Kernel.safe_write (hsafe _ h₄) (.done h₄))

/-- The devlink setters, from a state where the stored parameters open nothing they must not. -/
theorem safe_devlinkSet {update : DriverParams → Option DriverParams} (h : s.AtRest)
    (hchanging : s.running = true → ∀ p, update s.params = some p → AvoidsShmem p)
    (hstopped : s.running = false → ∀ p, update s.params = some p → OpensNone p) :
    (devlinkSet update).Safe Host.Responds Host.ReceivesSafely (fun _ s' => s'.AtRest) s := by
  cases hupdate : update s.params with
  | none =>
    refine Program.Safe.bind (safe_params (receivesSafely_of_atRest h) ?_)
    rw [hupdate]
    exact .done h
  | some p =>
    have hparams : ({ s with params := p } : Host).AtRest := ⟨h.stopped, h.opened⟩
    have hfinal : ∀ s', Reopened { s with params := p } s' → s'.AtRest := by
      intro s' hs'
      cases hrunning : s.running with
      | false => exact hs'.atRest_of_stopped hrunning (hstopped hrunning p hupdate)
      | true => exact hs'.atRest_of_running hrunning (h.opened hrunning) (hchanging hrunning p hupdate)
    refine (safe_devlinkSet_stored (fun _ => receivesSafely_of_reset) (receivesSafely_of_atRest h)
      (receivesSafely_of_atRest hparams) hupdate
      fun s' hs' _ => receivesSafely_of_atRest (hfinal s' hs')).mono fun _ s' hs' => hfinal s' hs'.1

/-- `udp_core_ndo_set_mac_address`. -/
theorem safe_setMacAddress (mac : BitVec 48) (h : s.AtRest) :
    (ndoSetMacAddress mac).Safe Host.Responds Host.ReceivesSafely (fun _ s' => s'.AtRest) s := by
  unfold ndoSetMacAddress
  split
  · exact .done h
  · refine Program.Safe.bind (h.safe_write (by decide) fun h₁ => ?_)
    exact Program.Safe.bind (h₁.safe_write (by decide) fun h₂ => .done h₂)

/-- `udp_core_notifier_call`. -/
theorem safe_notifierCall (event : NetdevEvent) (ifaAddress ifaMask : BitVec 32)
    (gateway : Option (BitVec 32)) (h : s.AtRest) :
    (notifierCall event ifaAddress ifaMask gateway).Safe Host.Responds Host.ReceivesSafely
      (fun _ s' => s'.AtRest) s := by
  have hwrites : ∀ gw4, (notifierWrites event ifaAddress ifaMask gw4).Safe Host.Responds
      Host.ReceivesSafely (fun _ s' => s'.AtRest) s := by
    intro gw4
    cases event with
    | up =>
      refine Program.Safe.bind (h.safe_write (by decide) fun h₁ => ?_)
      refine Program.Safe.bind (h₁.safe_write (by decide) fun h₂ => ?_)
      refine Program.Safe.bind (h₂.safe_write (by decide) fun h₃ => ?_)
      refine Program.Safe.bind (h₃.safe_write (by decide) fun h₄ => ?_)
      exact h₄.safe_write (by decide) id
    | down => exact h.safe_write (by decide) id
    | other => exact .done h
  refine Program.Safe.bind (Program.Safe.bind (safe_params (receivesSafely_of_atRest h) ?_))
  cases gateway with
  | some gw4 => exact .done (hwrites gw4)
  | none => exact safe_in4Pton (receivesSafely_of_atRest h) hwrites

variable (kstrtoul : List Char → Option ℕ)

/-- Each call the kernel may make keeps the device receiving safely and ends in a state at rest. -/
theorem safe_call (c : Call) (h : s.AtRest) (hallowed : c.Allowed s) (hharmless : c.Harmless kstrtoul s) :
    (c.code kstrtoul).Safe Host.Responds Host.ReceivesSafely (fun _ s' => s'.AtRest) s := by
  cases c with
  | ndoOpen =>
    have hclosed : ({ s with running := true } : Host).Closed := h.stopped hallowed
    have hsafe : ∀ s' : Host, s'.Closed → s'.ReceivesSafely := fun s' hs' _ idx hopen => by
      simp [hs' idx] at hopen
    refine Program.Safe.bind (safe_command (c := .setRunning true) fun _ => ⟨hsafe _ hclosed, ?_⟩)
    refine Program.Safe.bind ((safe_ndoOpen hclosed rfl (hharmless.opening rfl)).mono fun ret s' hs' => ?_)
    split at hs' <;> rename_i hret
    · rw [if_pos hret]
      exact .done ⟨fun hstopped => by simp [hs'.1] at hstopped, fun _ => hs'.2⟩
    · rw [if_neg hret]
      have hrest : ({ s' with running := false } : Host).AtRest :=
        ⟨fun _ => hs', fun hrunning => Bool.noConfusion hrunning⟩
      exact safe_command (c := .setRunning false) fun _ => ⟨hsafe _ hs', hrest⟩
  | ndoStop =>
    refine Program.Safe.bind (safe_ndoStop.mono fun _ s' hs' => ?_)
    have hrest : ({ s' with running := false } : Host).AtRest :=
      ⟨fun _ => hs', fun hrunning => Bool.noConfusion hrunning⟩
    exact safe_command (c := .setRunning false) fun _ => ⟨receivesSafely_of_atRest hrest, hrest⟩
  | devlinkSetU16 id value =>
    exact Program.Safe.bind ((safe_devlinkSet h hharmless.changing hharmless.stopped).mono fun _ _ hs' => .pure hs')
  | devlinkSetString id value =>
    exact Program.Safe.bind ((safe_devlinkSet h hharmless.changing hharmless.stopped).mono fun _ _ hs' => .pure hs')
  | setMacAddress mac =>
    exact Program.Safe.bind ((safe_setMacAddress mac h).mono fun _ _ hs' => .pure hs')
  | inetaddr event ifaAddress ifaMask gateway => exact safe_notifierCall event ifaAddress ifaMask gateway h

end CallSafety

section Run

variable (kstrtoul : List Char → Option ℕ)

/-- What holds at every moment: the device receives safely, and the rest of the call in progress
keeps it so. -/
structure Thread.Inv (t : Thread) : Prop where
  safe : t.host.ReceivesSafely
  rest : t.pending.Safe Host.Responds Host.ReceivesSafely (fun _ s => s.AtRest) t.host

/-- After probe the interface is stopped and every socket is closed. -/
theorem inv_start : Thread.start.Inv where
  safe := fun _ idx hopen => by simp [Thread.start, Host.probed, ConfigRegs.reset, ConfigRegs.opensock] at hopen
  rest := .done ⟨fun _ idx => by simp [Thread.start, Host.probed, ConfigRegs.reset, ConfigRegs.opensock],
    fun hrunning => by simp [Thread.start, Host.probed] at hrunning⟩

/-- Every event keeps it. -/
theorem inv_step (t : Thread) (e : Event) (h : t.Inv)
    (hlegal : t.Legal e ∧ t.Harmless kstrtoul e) : (t.step kstrtoul e).Inv := by
  obtain ⟨host, pending⟩ := t
  cases e with
  | invoke c =>
    refine ⟨h.safe, ?_⟩
    cases h.rest with
    | done hrest => exact safe_call kstrtoul c hrest hlegal.1.2 hlegal.2
    | perform => simp [Thread.Legal, Program.isDone] at hlegal
  | answer e =>
    cases h.rest with
    | done hrest => exact h
    | perform hinv hnext =>
      exact ⟨hinv _ _ ⟨e, rfl⟩, hnext _ _ ⟨e, rfl⟩⟩

/-- Whenever the device is out of reset with a socket open, the interface is open and the device
works on its DMA area, if the calls keep to the condition. -/
theorem receivesSafely_of_harmless :
    ((Thread.lifecycle kstrtoul).restrict (Thread.Harmless kstrtoul)).Always Thread.start SafeMoment :=
  Clocked.Machine.always_of_invariant inv_start (inv_step kstrtoul) fun _ _ h _ => h.safe

section Answered

variable {kstrtoul} {α : Type} {m : Clocked.Machine Thread Event} {s : Host}

/-- The next step of the call in progress is answered. -/
theorem reachable_answer (hstep : m.step = Thread.step kstrtoul)
    (hlegal : ∀ s c next e, m.legal ⟨s, .perform c next⟩ (.answer e)) {c : Cmd} {f : c.Response → Code Unit}
    (hreach : m.Reachable Thread.start ⟨s, Program.command c >>= f⟩) (e : Answer) :
    m.Reachable Thread.start ⟨(s.perform e c).2, f (s.perform e c).1⟩ := by
  have hnext := hreach.next (hlegal s c f e)
  rw [hstep] at hnext
  exact hnext

/-- A part of the call in progress can be answered to its end, where every answer is legal. -/
theorem exists_reachable_bind (hstep : m.step = Thread.step kstrtoul)
    (hlegal : ∀ s c next e, m.legal ⟨s, .perform c next⟩ (.answer e)) {p : Code α} {f : α → Code Unit}
    {post : α → Host → Prop} (h : p.Safe Host.Responds (fun _ => True) post s)
    (hreach : m.Reachable Thread.start ⟨s, p >>= f⟩) : ∃ a s', post a s' ∧ m.Reachable Thread.start ⟨s', f a⟩ := by
  have e : Answer := ⟨.idle, none, 0⟩
  obtain ⟨a, s', hs', hpost⟩ := h.completes (fun s p => m.Reachable Thread.start ⟨s, p >>= f⟩)
    (fun s c next hs => ⟨_, _, ⟨e, rfl⟩, reachable_answer hstep hlegal (f := fun r => next r >>= f) hs e⟩) hreach
  exact ⟨a, s', hpost, hs'⟩

end Answered

/-- The interface is opened after probe. -/
theorem receivesSafely_opened : ∃ t, ((Thread.lifecycle fun _ => none).restrict (Thread.Harmless fun _ => none)).Reachable
    Thread.start t ∧ t.host.regs.userRst = false ∧ t.host.regs.opensock 0 = true ∧
      t.host.running = true ∧ t.host.area = some t.host.regs.sharedMem := by
  have hanswer (s : Host) (c : Cmd) (next : c.Response → Code Unit) (e : Answer) :
      ((Thread.lifecycle fun _ => none).restrict (Thread.Harmless fun _ => none)).legal ⟨s, .perform c next⟩ (.answer e) :=
    ⟨rfl, trivial⟩
  have havoids : AvoidsShmem Host.probed.params := by
    have hlisted : Host.probed.params.listed = [0, 1, 10, 11] := rfl
    rw [AvoidsShmem, hlisted]
    simp
  have hinvoke : ((Thread.lifecycle fun _ => none).restrict (Thread.Harmless fun _ => none)).legal Thread.start
      (.invoke .ndoOpen) :=
    ⟨⟨rfl, rfl⟩, fun _ => havoids, fun hrunning => Bool.noConfusion hrunning,
      fun _ p hp => absurd hp (Option.some_ne_none p).symm⟩
  -- the area is allocated at address 0
  let e : Answer := ⟨.idle, some 0, 0⟩
  have hset := reachable_answer rfl hanswer ((Clocked.Machine.Reachable.refl _ _).next hinvoke) e
  rw [ndoOpen_eq, Program.bind_assoc] at hset
  have hreset := reachable_answer rfl hanswer hset e
  rw [Program.bind_assoc] at hreset
  have hallocated := reachable_answer rfl hanswer hreset e
  obtain ⟨ret, s', ⟨rfl, hopen, hserved⟩, hreach⟩ := exists_reachable_bind rfl hanswer
    (safe_ndoOpenWith (fun _ _ => trivial) 0 rfl fun _ _ _ => trivial) hallocated
  rw [if_pos rfl] at hreach
  have hsocket : s'.regs.opensock 0 = true := (hopen.opensock 0).mpr ⟨0, by decide, rfl⟩
  have hnone (p : DriverParams) (hp : (Call.setMacAddress 0).stores (fun _ => none) s'.params = some p) : False :=
    Option.some_ne_none p hp.symm
  obtain ⟨hrunning, harea⟩ := receivesSafely_of_harmless (fun _ => none) _ hreach (.invoke (.setMacAddress 0))
    ⟨⟨rfl, trivial⟩, nofun, fun _ p hp => (hnone p hp).elim, fun _ p hp => (hnone p hp).elim⟩ hserved 0 hsocket
  exact ⟨_, hreach, hserved, hsocket, hrunning, harea⟩

/-- Without the condition it fails: after probe, a set of `PORT_RANGE_LOWER` takes the device out of
reset with the default sockets open and no DMA area. -/
theorem not_receivesSafely :
    ¬ (Thread.lifecycle fun _ => none).Always Thread.start SafeMoment := by
  intro halways
  let set : Host := { Host.probed with params := { DriverParams.initial with portLow := 7400 } }
  have hstored : (Kernel.devlinkSetU16 .portLow 7400).Safe Host.Responds (fun _ => True)
      (fun _ s' => Reopened set s' ∧ s'.regs.userRst = false) Host.probed :=
    safe_devlinkSet_stored (fun _ _ => trivial) trivial trivial rfl fun _ _ _ => trivial
  have hlegal : (Thread.lifecycle fun _ => none).legal Thread.start
      (.invoke (.devlinkSetU16 .portLow 7400)) := ⟨rfl, trivial⟩
  have hinvoked := (Clocked.Machine.Reachable.refl (Thread.lifecycle fun _ => none) _).next hlegal
  obtain ⟨-, s', ⟨hopen, hreset⟩, hs'⟩ := exists_reachable_bind rfl (fun _ _ _ _ => rfl) hstored hinvoked
  have hsafe := halways _ hs' (.invoke (.setMacAddress 0)) ⟨rfl, trivial⟩
  have hrunning := (hsafe hreset 0 ((hopen.opensock 0).mpr ⟨0, by decide, rfl⟩)).1
  rw [hopen.running] at hrunning
  exact Bool.noConfusion hrunning

end Run

end Kernel

end UdpIpCore
