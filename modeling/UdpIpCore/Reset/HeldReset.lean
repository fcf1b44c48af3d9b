import UdpIpCore.Kernel.Lifecycle
import UdpIpCore.Rtl.UserRstHandler
import UdpIpCore.Userspace.SocketRun

/-!
# Writing the registers in reset

`udp_core_ndo_open` and `udriver_initialize` request the reset with their first register
write and release it with their last one. Neither any register value they read nor any
socket they are told to open makes them release it before.
-/

namespace UdpIpCore

open Interaction

/-- The register write of a step of the kernel driver. -/
def Kernel.Cmd.write : Kernel.Cmd → Option (RegAddr × BitVec 32)
  | .writeRegister reg value => some (reg, value)
  | _ => none

/-- The register write of an access of the userspace driver. -/
def Access.write : Access → Option (RegAddr × BitVec 32)
  | .writeReg reg value => some (reg, value)
  | _ => none

/-- A user program on its own is answered by its host. -/
def UserHost.Responds (h : UserHost) (c : Access) (r : c.Response) (h' : UserHost) : Prop := h.execute c = (r, h')

/-- The register writes a call that opens the device makes until it returns successfully. -/
inductive Opens : List (RegAddr × BitVec 32) → Prop
  | ndoOpen {s s' : Kernel.Host} {cmds : List Kernel.Cmd}
      (h : Program.Trace Kernel.Host.Responds Kernel.ndoOpen s cmds 0 s') :
      Opens (cmds.filterMap Kernel.Cmd.write)
  | udriverInitialize {u u' : UserHost} {localMac : Fin 6 → BitVec 8} {localIp subnetMask gwIp : Fin 4 → BitVec 8}
      {portMin portMax : BitVec 16} {os : Udriver.Mapping} {accesses : List Access}
      (h : Program.Trace UserHost.Responds
        (Udriver.udriverInitialize localMac localIp subnetMask gwIp portMin portMax os) u accesses 0 u') :
      Opens (accesses.filterMap Access.write)

/-- Register writes that hold the reset request from the first one to the last one. -/
structure Holds (writes : List (RegAddr × BitVec 32)) : Prop where
  frame : ∃ body, writes = (RegAddr.res, 1) :: body ++ [(RegAddr.res, 0)] ∧ body ≠ [] ∧
    ∀ w ∈ body, w.1 = RegAddr.res → w.2.getLsbD 0 = true

section Writes

/-- A write after which the reset is requested. -/
theorem getLsbD_of_userRst {r : ConfigRegs} {value : BitVec 32}
    (h : (r.write RegAddr.res value).userRst = true) : value.getLsbD 0 = true := h

/-- The writes of a kernel function that keeps the reset requested. -/
theorem Kernel.keeps_of_safe {α : Type} {p : Code α} {post : α → Host → Prop} {s s' : Host} {cmds : List Cmd} {a : α}
    (hsafe : p.Safe Host.Responds (fun s => s.regs.userRst = true) post s)
    (h : Program.Trace Host.Responds p s cmds a s') :
    post a s' ∧ ∀ w ∈ cmds.filterMap Cmd.write, w.1 = RegAddr.res → w.2.getLsbD 0 = true := by
  obtain ⟨hpost, hall⟩ := hsafe.of_trace h
  refine ⟨hpost, fun w hw hres => ?_⟩
  obtain ⟨c, hc, hwrite⟩ := List.mem_filterMap.mp hw
  obtain ⟨s₁, r, s₂, ⟨e, he⟩, hinv⟩ := hall c hc
  cases c with
  | writeRegister reg value =>
    obtain rfl := Option.some.inj hwrite
    obtain rfl : reg = RegAddr.res := hres
    rw [← (Prod.mk.inj he).2] at hinv
    exact getLsbD_of_userRst hinv
  | _ => exact absurd hwrite nofun

/-- The writes of a user function that keeps the reset requested. -/
theorem Udriver.keeps_of_safe {α : Type} {p : UserCode α} {post : α → UserHost → Prop} {u u' : UserHost}
    {accesses : List Access} {a : α} (hsafe : p.Safe UserHost.Responds (fun u => u.regs.userRst = true) post u)
    (h : Program.Trace UserHost.Responds p u accesses a u') :
    post a u' ∧ ∀ w ∈ accesses.filterMap Access.write, w.1 = RegAddr.res → w.2.getLsbD 0 = true := by
  obtain ⟨hpost, hall⟩ := hsafe.of_trace h
  refine ⟨hpost, fun w hw hres => ?_⟩
  obtain ⟨c, hc, hwrite⟩ := List.mem_filterMap.mp hw
  obtain ⟨u₁, r, u₂, he, hinv⟩ := hall c hc
  cases c with
  | writeReg reg value =>
    obtain rfl := Option.some.inj hwrite
    obtain rfl : reg = RegAddr.res := hres
    rw [← (Prod.mk.inj he).2] at hinv
    exact getLsbD_of_userRst hinv
  | _ => exact absurd hwrite nofun

/-- A user function that starts with a register write. -/
theorem Udriver.split_write {α : Type} {reg : RegAddr} {value : BitVec 32} {f : Unit → UserCode α} {u u' : UserHost}
    {accesses : List Access} {a : α}
    (h : Program.Trace UserHost.Responds (writeReg reg value >>= f) u accesses a u') :
    ∃ rest, accesses = .writeReg reg value :: rest ∧
      Program.Trace UserHost.Responds (f ()) (u.afterWrite reg value) rest a u' := by
  obtain ⟨rest, r, u₁, rfl, he, hrest⟩ := h.split_command
  obtain ⟨-, rfl⟩ := Prod.mk.inj he
  exact ⟨rest, rfl, hrest⟩

end Writes

section Sequences

/-- `udp_core_ndo_open` holds the request until it returns 0. -/
theorem holds_ndoOpen {s s' : Kernel.Host} {cmds : List Kernel.Cmd}
    (h : Program.Trace Kernel.Host.Responds Kernel.ndoOpen s cmds 0 s') :
    Holds (cmds.filterMap Kernel.Cmd.write) := by
  obtain ⟨_, rfl, h₁⟩ := Kernel.split_write (fun _ _ _ _ hr => hr) h
  obtain ⟨_, physDmaArea, s₁, rfl, ⟨e, he⟩, h₂⟩ := h₁.split_command
  obtain ⟨-, rfl⟩ := Prod.mk.inj he
  cases physDmaArea with
  | none => exact absurd h₂.of_pure.2.1 (by decide)
  | some physDmaArea =>
    obtain ⟨_, p, s₂, rfl, ⟨e', he'⟩, h₃⟩ := h₂.split_command
    obtain ⟨-, rfl⟩ := Prod.mk.inj he'
    obtain ⟨_, rfl, h₄⟩ := Kernel.split_write (fun _ _ _ _ hr => hr) h₃
    obtain ⟨_, rfl, h₅⟩ := Kernel.split_write (fun _ _ _ _ hr => hr) h₄
    obtain ⟨_, rfl, h₆⟩ := Kernel.split_write (fun _ _ _ _ hr => hr) h₅
    obtain ⟨emptied, _, _, s₃, rfl, hemptied, h₇⟩ := h₆.split
    obtain ⟨opened, _, _, s₄, rfl, hopened, h₈⟩ := h₇.split
    obtain ⟨_, rfl, h₉⟩ := Kernel.split_write (fun _ _ _ _ hr => hr) h₈
    obtain ⟨_, rfl, h₁₀⟩ := Kernel.split_write (fun _ _ _ _ hr => hr) h₉
    obtain ⟨_, rfl, h₁₁⟩ := Kernel.split_write (fun _ _ _ _ hr => hr) h₁₀
    obtain ⟨_, rfl, h₁₂⟩ := Kernel.split_write (fun _ _ _ _ hr => hr) h₁₁
    obtain ⟨rfl, -⟩ := h₁₂.of_pure
    have hinv (s : Kernel.Host) (hs : s.regs.userRst = true) : s.regs.userRst = true := hs
    obtain ⟨⟨hheld, -⟩, hempty⟩ := Kernel.keeps_of_safe (Kernel.safe_emptyBuffers hinv ⟨⟨rfl, rfl, rfl, rfl⟩, rfl⟩) hemptied
    obtain ⟨-, hopen⟩ := Kernel.keeps_of_safe (Kernel.safe_openSockets hinv hheld.toHeld) hopened
    refine ⟨(RegAddr.shmem, physDmaArea) :: (RegAddr.udpRangeL, p.portLow.setWidth 32) ::
      (RegAddr.udpRangeH, p.portHigh.setWidth 32) :: (emptied.filterMap Kernel.Cmd.write ++
      opened.filterMap Kernel.Cmd.write) ++ [(RegAddr.buftxPushed, 0), (RegAddr.ier0, 1), (RegAddr.gie, 1)], ?_, ?_, ?_⟩
    · simp [Kernel.Cmd.write, List.filterMap_cons]
    · exact List.cons_ne_nil _ _
    · intro w hw hres
      simp only [List.mem_cons, List.mem_append, List.cons_append, List.append_assoc, List.not_mem_nil, or_false] at hw
      rcases hw with rfl | rfl | rfl | hw | hw | rfl | rfl | rfl
      · exact absurd hres (by decide : RegAddr.shmem ≠ RegAddr.res)
      · exact absurd hres (by decide : RegAddr.udpRangeL ≠ RegAddr.res)
      · exact absurd hres (by decide : RegAddr.udpRangeH ≠ RegAddr.res)
      · exact hempty w hw hres
      · exact hopen w hw hres
      · exact absurd hres (by decide : RegAddr.buftxPushed ≠ RegAddr.res)
      · exact absurd hres (by decide : RegAddr.ier0 ≠ RegAddr.res)
      · exact absurd hres (by decide : RegAddr.gie ≠ RegAddr.res)

variable {u : UserHost}

/-- Within the reset a single access that leaves it requested. -/
theorem Udriver.safe_readReg {reg : RegAddr} {post : BitVec 32 → UserHost → Prop} (hu : u.regs.userRst = true)
    (hpost : ∀ value u', u'.regs.userRst = true → post value u') :
    (readReg reg).Safe UserHost.Responds (fun u => u.regs.userRst = true) post u := by
  refine Program.Safe.command (R := Access.Response) (c := Access.readReg reg) ?_
  intro r u' h
  obtain ⟨rfl, rfl⟩ := Prod.mk.inj h
  exact ⟨hu, hpost _ _ hu⟩

/-- A write of another register than the reset. -/
theorem Udriver.safe_writeReg {reg : RegAddr} {value : BitVec 32} {post : Unit → UserHost → Prop}
    (hu : u.regs.userRst = true) (hreg : reg ≠ RegAddr.res)
    (hpost : ∀ u', u'.regs.userRst = true → post () u') :
    (writeReg reg value).Safe UserHost.Responds (fun u => u.regs.userRst = true) post u := by
  refine Program.Safe.command (R := Access.Response) (c := Access.writeReg reg value) ?_
  intro r u' h
  obtain ⟨-, rfl⟩ := Prod.mk.inj h
  have hnext : (u.afterWrite reg value).regs.userRst = true := (u.regs.userRst_write_of_ne hreg value).trans hu
  exact ⟨hnext, hpost _ hnext⟩

/-- The control word of a ring is not the reset register. -/
theorem bufferRxCtrl_ne_res {bufferId : ℕ} (hlt : bufferId < maxUdpPorts) :
    ConfigRegs.bufferRxCtrl bufferId ≠ RegAddr.res := (ConfigRegs.ringOf_named (ConfigRegs.ringOf_of_lt hlt)).1

/-- `notify_pop_to_rx_buffer` leaves the request. -/
theorem Udriver.safe_notifyPopToRxBuffer {bufferId : ℕ} (hlt : bufferId < maxUdpPorts) (hu : u.regs.userRst = true) :
    (notifyPopToRxBuffer bufferId).Safe UserHost.Responds (fun u => u.regs.userRst = true)
      (fun _ u => u.regs.userRst = true) u := by
  have hreg := bufferRxCtrl_ne_res hlt
  refine Program.Safe.bind (safe_readReg hu fun value u₁ hu₁ => ?_)
  refine Program.Safe.bind (safe_writeReg hu₁ hreg fun u₂ hu₂ => ?_)
  refine Program.Safe.bind (safe_writeReg hu₂ hreg fun u₃ hu₃ => ?_)
  exact safe_writeReg hu₃ hreg fun u₄ hu₄ => hu₄

/-- `udriver_set_socket_status` leaves the request. -/
theorem Udriver.safe_udriverSetSocketStatus (dev : UdpIpDevice) (port status : BitVec 32) (hu : u.regs.userRst = true) :
    (udriverSetSocketStatus dev port status).Safe UserHost.Responds (fun u => u.regs.userRst = true)
      (fun _ u => u.regs.userRst = true) u := by
  unfold udriverSetSocketStatus
  split
  · exact .done hu
  · rename_i hport
    have hlt : (bufferId dev port).toNat < maxUdpPorts := by
      have hnarrow := dev.narrow
      rw [not_or, BitVec.lt_def, BitVec.lt_def, BitVec.toNat_setWidth_of_le (by decide),
        BitVec.toNat_setWidth_of_le (by decide)] at hport
      rw [bufferId, BitVec.toNat_sub, BitVec.toNat_setWidth_of_le (by decide)]
      omega
    have hreg := bufferRxCtrl_ne_res hlt
    refine Program.Safe.bind (safe_readReg hu fun value u₁ hu₁ => ?_)
    exact Program.Safe.bind (safe_writeReg hu₁ hreg fun u₂ hu₂ => .done hu₂)

/-- A loop whose body leaves the request. -/
theorem Udriver.safe_forEach {items : List ℕ} {body : ℕ → UserCode Unit} (hu : u.regs.userRst = true)
    (hbody : ∀ b u, b ∈ items → u.regs.userRst = true → (body b).Safe UserHost.Responds (fun u => u.regs.userRst = true)
      (fun _ u => u.regs.userRst = true) u) :
    (Program.forEach items body).Safe UserHost.Responds (fun u => u.regs.userRst = true)
      (fun _ u => u.regs.userRst = true) u :=
  Program.Safe.forEach (fun _ u => u.regs.userRst = true) hu fun _ b u hb => hbody b u hb

/-- `udriver_initialize` holds the request until it returns 0. -/
theorem holds_udriverInitialize {u u' : UserHost} {localMac : Fin 6 → BitVec 8}
    {localIp subnetMask gwIp : Fin 4 → BitVec 8} {portMin portMax : BitVec 16} {os : Udriver.Mapping}
    {accesses : List Access} (h : Program.Trace UserHost.Responds
      (Udriver.udriverInitialize localMac localIp subnetMask gwIp portMin portMax os) u accesses 0 u') :
    Holds (accesses.filterMap Access.write) := by
  have hfails {u u' : UserHost} {accesses : List Access}
      (h : Program.Trace UserHost.Responds (pure (-1) : UserCode ℤ) u accesses 0 u') : False := nomatch h
  rw [Udriver.udriverInitialize] at h
  split at h
  swap
  · exact (hfails h).elim
  rename_i narrow
  split at h
  · exact (hfails h).elim
  obtain ⟨_, rfl, h₁⟩ := Udriver.split_write h
  obtain ⟨_, rfl, h₂⟩ := Udriver.split_write h₁
  obtain ⟨_, rfl, h₃⟩ := Udriver.split_write h₂
  obtain ⟨_, rfl, h₄⟩ := Udriver.split_write h₃
  obtain ⟨_, rfl, h₅⟩ := Udriver.split_write h₄
  obtain ⟨_, rfl, h₆⟩ := Udriver.split_write h₅
  obtain ⟨_, rfl, h₇⟩ := Udriver.split_write h₆
  obtain ⟨_, rfl, h₈⟩ := Udriver.split_write h₇
  obtain ⟨_, rfl, h₉⟩ := Udriver.split_write h₈
  obtain ⟨popped, _, _, u₁, rfl, hpopped, h₁₀⟩ := h₉.split
  obtain ⟨_, rfl, h₁₁⟩ := Udriver.split_write h₁₀
  obtain ⟨closed, _, _, u₂, rfl, hclosed, h₁₂⟩ := h₁₁.split
  obtain ⟨_, rfl, h₁₃⟩ := Udriver.split_write h₁₂
  obtain ⟨_, rfl, h₁₄⟩ := Udriver.split_write h₁₃
  obtain ⟨_, rfl, h₁₅⟩ := Udriver.split_write h₁₄
  cases h₁₅
  obtain ⟨hu₁, hpops⟩ := Udriver.keeps_of_safe (Udriver.safe_forEach rfl fun b _ hb hu =>
    Udriver.safe_notifyPopToRxBuffer (List.mem_range.mp hb) hu) hpopped
  have hu₁' : (u₁.afterWrite RegAddr.buftxPushed 0).regs.userRst = true := hu₁
  obtain ⟨-, hcloses⟩ := Udriver.keeps_of_safe (Udriver.safe_forEach hu₁' fun b _ _ hu =>
    Program.Safe.bind ((Udriver.safe_udriverSetSocketStatus _ _ _ hu).mono fun _ _ hu' => .pure hu')) hclosed
  refine ⟨[(RegAddr.mac0, (Udriver.ethMacToEthMac32 localMac).2), (RegAddr.mac1, (Udriver.ethMacToEthMac32 localMac).1),
    (RegAddr.gw, Udriver.byteArrToUint32 gwIp), (RegAddr.snm, Udriver.byteArrToUint32 subnetMask),
    (RegAddr.ipLoc, Udriver.byteArrToUint32 localIp), (RegAddr.shmem, os.shmemPhysAddr.setWidth 32),
    (RegAddr.udpRangeL, portMin.setWidth 32), (RegAddr.udpRangeH, portMax.setWidth 32)] ++
    (popped.filterMap Access.write ++ [(RegAddr.buftxPushed, 0)] ++ closed.filterMap Access.write ++
    [(RegAddr.ier0, 0), (RegAddr.gie, 0)]), ?_, ?_, ?_⟩
  · simp [Access.write]
  · exact List.cons_ne_nil _ _
  · intro w hw hres
    simp only [List.mem_append, List.append_assoc] at hw
    rcases hw with hw | hw | hw | hw | hw
    · refine absurd hres ((?_ : ∀ w ∈ _, w.1 ≠ RegAddr.res) w hw)
      simp only [List.mem_cons, List.not_mem_nil, or_false, forall_eq_or_imp, forall_eq]
      decide
    · exact hpops w hw hres
    · rw [List.mem_singleton.mp hw] at hres
      exact absurd hres (by decide)
    · exact hcloses w hw hres
    · refine absurd hres ((?_ : ∀ w ∈ _, w.1 ≠ RegAddr.res) w hw)
      simp only [List.mem_cons, List.not_mem_nil, or_false, forall_eq_or_imp, forall_eq]
      decide

/-- Both functions hold the request while they write. -/
theorem Opens.holds {writes : List (RegAddr × BitVec 32)} (h : Opens writes) : Holds writes := by
  cases h with
  | ndoOpen h => exact holds_ndoOpen h
  | udriverInitialize h => exact holds_udriverInitialize h

end Sequences

end UdpIpCore
