import UdpIpCore.Kernel.NapiPoll
import UdpIpCore.Reset.HeldReset

/-!
# The calls and the poll at the DMA area

`udp_core_ndo_stop` frees the DMA area while it holds the reset request, and clears the shared-memory
register before it releases the request. The address of the next area is published before the reset
of `udp_core_ndo_open` is released. The receive poll loads from the area only after it has read the
control word of a ring that is not empty, and never writes the two registers.
-/

namespace UdpIpCore

open Interaction

namespace Kernel

/-- What the calls decide about the DMA area. -/
structure AreaView where
  userRst : Bool
  sharedMem : BitVec 32
  /-- The area in the driver data. -/
  area : Option (BitVec 32)
  /-- The area that was freed, until the address of a new one is published. -/
  freed : Option (BitVec 32)

namespace AreaView

/-- The view after a register write. -/
def written (v : AreaView) (reg : RegAddr) (value : BitVec 32) : AreaView where
  userRst := if reg = RegAddr.res then value.getLsbD 0 else v.userRst
  sharedMem := if reg = RegAddr.shmem then value else v.sharedMem
  area := v.area
  freed := if reg = RegAddr.shmem ∧ v.area = some value then none else v.freed

/-- The view after a step of the driver. -/
def next (v : AreaView) : (c : Cmd) → c.Response → AreaView
  | .writeRegister reg value, _ => v.written reg value
  | .allocMemory, area => { v with area := area.or v.area }
  | .freeMemory, _ => { v with area := none, freed := v.area.or v.freed }
  | .readRegister _, _ | .params, _ | .setParams _, _ | .in4Pton _, _ | .setRunning _, _ => v

/-- A step has one effect for each answer. -/
def Responds (v : AreaView) (c : Cmd) (r : c.Response) (v' : AreaView) : Prop := v' = v.next c r

/-- While an area is freed, the reset is requested or the shared-memory register is cleared. -/
def Covered (v : AreaView) : Prop := v.freed ≠ none → v.userRst = true ∨ v.sharedMem = 0

/-- A step after which a freed area is covered; it writes no other address than that of the next area. -/
def Covers (q : AreaView × AreaView) : Prop :=
  q.2.freed ≠ none → (q.2.userRst = true ∨ q.2.sharedMem = 0) ∧ (q.2.sharedMem = q.1.sharedMem ∨ q.2.sharedMem = 0)

variable {v b : AreaView} {α : Type}

/-- A write of another register leaves the view. -/
theorem written_of_ne {reg : RegAddr} (hres : reg ≠ RegAddr.res) (hshmem : reg ≠ RegAddr.shmem) (value : BitVec 32) :
    v.written reg value = v := by
  rw [written, if_neg hres, if_neg hshmem, if_neg fun h => hshmem h.1]

/-- After such a step a freed area is covered. -/
theorem Covers.covered {q : AreaView × AreaView} (h : Covers q) : q.2.Covered := fun hfreed => (h hfreed).1

/-- A step that leaves the view. -/
theorem covers_refl (h : v.Covered) : Covers (v, v) := fun hfreed => ⟨h hfreed, Or.inl rfl⟩

/-- A step with the reset requested, that leaves the address. -/
theorem covers_of_reset {v' : AreaView} (hreset : v'.userRst = true) (hsame : v'.sharedMem = v.sharedMem) :
    Covers (v, v') := fun _ => ⟨Or.inl hreset, Or.inl hsame⟩

/-- A step after which the register is cleared. -/
theorem covers_of_cleared {v' : AreaView} (h : v'.sharedMem = 0) : Covers (v, v') := fun _ => ⟨Or.inr h, Or.inr h⟩

/-- A step after which nothing is freed. -/
theorem covers_of_published {v' : AreaView} (h : v'.freed = none) : Covers (v, v') := fun hfreed => absurd h hfreed

/-- A single step. -/
theorem safe_command {c : Cmd} {post : c.Response → AreaView × AreaView → Prop}
    (h : ∀ r : c.Response, Covers (v, v.next c r) ∧ post r (v, v.next c r)) :
    (Program.command (R := Cmd.Response) c).Safe (Program.keeping Responds) Covers post (b, v) := by
  refine Program.Safe.command_keeping fun r v' hr => ?_
  subst hr
  exact h r

/-- A register write. -/
theorem safe_write {reg : RegAddr} {value : BitVec 32} {post : Unit → AreaView × AreaView → Prop}
    (hcovers : Covers (v, v.written reg value)) (hpost : post () (v, v.written reg value)) :
    (writeRegister reg value).Safe (Program.keeping Responds) Covers post (b, v) :=
  safe_command (c := .writeRegister reg value) fun _ => ⟨hcovers, hpost⟩

/-- A step that leaves the view. -/
def Leaves (c : Cmd) : Prop := ∀ (v : AreaView) (r : c.Response), v.next c r = v

/-- A function whose steps leave the view. -/
theorem safe_of_leaves {p : Code α} (hwithin : p.Within Leaves) (hcovered : v.Covered) :
    p.Safe (Program.keeping Responds) Covers (fun _ q => q.2 = v) (b, v) := by
  induction p generalizing b with
  | done a => exact .done rfl
  | perform c next ih =>
    have hnext (r : c.Response) (q : AreaView × AreaView) (hr : Program.keeping Responds (b, v) c r q) : q = (v, v) :=
      Prod.ext hr.1 (hr.2.trans (hwithin.1 v r))
    refine .perform (fun r q hr => ?_) fun r q hr => ?_
    · rw [hnext r q hr]
      exact covers_refl hcovered
    · rw [hnext r q hr]
      exact ih r (hwithin.2 r)

/-- A step that frees an area. -/
def Frees (c : Cmd) : Prop := c = .freeMemory

/-- Nothing is freed by the other steps. -/
theorem freed_next {c : Cmd} (hc : ¬ Frees c) (r : c.Response) (hfreed : v.freed = none) : (v.next c r).freed = none := by
  cases c with
  | writeRegister reg value =>
    change (if reg = RegAddr.shmem ∧ v.area = some value then none else v.freed) = none
    rw [hfreed, ite_self]
  | freeMemory => exact absurd rfl hc
  | readRegister | allocMemory | params | setParams | in4Pton | setRunning => exact hfreed

/-- A function that frees nothing, once an area is published. -/
theorem safe_of_published {p : Code α} (hwithin : p.Within fun c => ¬ Frees c) (hfreed : v.freed = none) :
    p.Safe (Program.keeping Responds) Covers (fun _ q => q.2.freed = none) (b, v) := by
  induction p generalizing b v with
  | done a => exact .done hfreed
  | perform c next ih =>
    refine .perform (fun r q hr => ?_) fun r q hr => ?_
    · exact covers_of_published (by rw [hr.2]; exact freed_next hwithin.1 r hfreed)
    · obtain ⟨before, after⟩ := q
      obtain ⟨-, rfl⟩ := hr
      exact ih r (hwithin.2 r) (freed_next hwithin.1 r hfreed)

end AreaView

section Calls

open AreaView

/-- A register read leaves the view. -/
theorem leaves_readRegister (reg : RegAddr) : (readRegister reg).Within Leaves :=
  Program.Within.command (R := Cmd.Response) (c := Cmd.readRegister reg) fun _ _ => rfl

/-- A write of a register that is not one of the two leaves it. -/
theorem leaves_writeRegister {reg : RegAddr} (hres : reg ≠ RegAddr.res) (hshmem : reg ≠ RegAddr.shmem)
    (value : BitVec 32) : (writeRegister reg value).Within Leaves :=
  Program.Within.command (R := Cmd.Response) (c := Cmd.writeRegister reg value) fun _ _ => written_of_ne hres hshmem value

/-- Emptying and closing a ring leaves it. -/
theorem leaves_emptyBuffer {bufferId : ℕ} (hlt : bufferId < maxUdpPorts) : (emptyBuffer bufferId).Within Leaves := by
  obtain ⟨hres, hshmem⟩ := ConfigRegs.ringOf_named (ConfigRegs.ringOf_of_lt hlt)
  have hread := leaves_readRegister (ConfigRegs.bufferRxCtrl bufferId)
  have hwrite (value : BitVec 32) := leaves_writeRegister hres hshmem value
  have hpop : (notifyPopRx bufferId).Within Leaves :=
    Program.Within.bind hread fun _ => Program.Within.bind (hwrite _) fun _ => Program.Within.bind (hwrite _) fun _ => hwrite _
  exact Program.Within.bind hpop fun _ => Program.Within.bind hread fun _ => hwrite _

/-- The view after any rings were emptied. -/
theorem safe_emptyEach {items : List ℕ} (hitems : ∀ bufferId ∈ items, bufferId < maxUdpPorts) {v b : AreaView}
    (hcovered : v.Covered) : (Program.forEach items emptyBuffer).Safe (Program.keeping Responds) Covers
      (fun _ q => q.2 = v) (b, v) := by
  have hwithin : (Program.forEach items emptyBuffer).Within Leaves :=
    Program.Within.forEach fun bufferId hmem => leaves_emptyBuffer (hitems bufferId hmem)
  exact safe_of_leaves hwithin hcovered

/-- The view after all of them were emptied. -/
theorem safe_emptyBuffers_area {v b : AreaView} (hcovered : v.Covered) :
    emptyBuffers.Safe (Program.keeping Responds) Covers (fun _ q => q.2 = v) (b, v) :=
  safe_emptyEach (fun _ hmem => List.mem_range.mp hmem) hcovered

/-- `udp_core_ndo_stop` covers the area it frees. -/
theorem safe_ndoStop_area {v b : AreaView} :
    Kernel.ndoStop.Safe (Program.keeping Responds) Covers (fun _ q => q.2.Covered) (b, v) := by
  refine Program.Safe.bind (AreaView.safe_write (covers_of_reset rfl rfl) ?_)
  refine Program.Safe.bind (AreaView.safe_command (c := .freeMemory) fun _ => ⟨covers_of_reset rfl rfl, ?_⟩)
  refine Program.Safe.bind (AreaView.safe_write (covers_of_cleared rfl) ?_)
  refine Program.Safe.bind ((safe_emptyBuffers_area fun _ => Or.inl rfl).mono fun _ q hq => ?_)
  obtain ⟨b₁, v₁⟩ := q
  have hcleared : v₁.sharedMem = 0 := by
    rw [show v₁ = _ from hq]
    rfl
  have hwrite {b : AreaView} {reg : RegAddr} {value : BitVec 32} (hres : reg ≠ RegAddr.res) (hshmem : reg ≠ RegAddr.shmem) :
      (writeRegister reg value).Safe (Program.keeping Responds) Covers (fun _ q => q.2 = v₁) (b, v₁) :=
    safe_of_leaves (leaves_writeRegister hres hshmem value) fun _ => Or.inr hcleared
  refine Program.Safe.bind ((hwrite (by decide) (by decide)).mono fun _ q hq₂ => ?_)
  obtain ⟨b₂, v₂⟩ := q
  obtain rfl : v₂ = v₁ := hq₂
  refine Program.Safe.bind ((hwrite (by decide) (by decide)).mono fun _ q hq₃ => ?_)
  obtain ⟨b₃, v₃⟩ := q
  obtain rfl : v₃ = v₂ := hq₃
  refine Program.Safe.bind ((hwrite (by decide) (by decide)).mono fun _ q hq₄ => ?_)
  obtain ⟨b₄, v₄⟩ := q
  obtain rfl : v₄ = v₃ := hq₄
  have hreleased : Covers (v₄, v₄.written RegAddr.res 0) := covers_of_cleared hcleared
  exact Program.Safe.bind (AreaView.safe_write hreleased (.done hreleased.covered))

/-- Opening sockets frees nothing. -/
theorem not_frees_openSockets (ids : List (BitVec 16)) : (openSockets ids).Within fun c => ¬ Frees c := by
  unfold openSockets
  have hread (reg : RegAddr) : (readRegister reg).Within fun c => ¬ Frees c := Program.Within.command (R := Cmd.Response) nofun
  refine Program.Within.forEach fun id _ => ?_
  exact Program.Within.bind (hread _) fun _ => Program.Within.bind (Program.Within.command (R := Cmd.Response) nofun) fun _ =>
    Program.Within.bind (hread _) fun _ => trivial

/-- `udp_core_ndo_open` covers the area that was freed before, until it has published a new one. -/
theorem safe_ndoOpen_area {v b : AreaView} :
    Kernel.ndoOpen.Safe (Program.keeping Responds) Covers (fun _ q => q.2.Covered) (b, v) := by
  refine Program.Safe.bind (AreaView.safe_write (covers_of_reset rfl rfl) ?_)
  refine Program.Safe.bind (AreaView.safe_command (c := .allocMemory) fun physDmaArea => ⟨covers_of_reset rfl rfl, ?_⟩)
  cases physDmaArea with
  | none => exact .done fun _ => Or.inl rfl
  | some physDmaArea =>
    have hwrite (reg : RegAddr) (value : BitVec 32) : (writeRegister reg value).Within fun c => ¬ Frees c :=
      Program.Within.command (R := Cmd.Response) nofun
    refine Program.Safe.bind (AreaView.safe_command (c := .params) fun p => ⟨covers_of_reset rfl rfl, ?_⟩)
    have hpublished : (((v.written RegAddr.res 1).next .allocMemory (some physDmaArea)).written RegAddr.shmem
        physDmaArea).freed = none := if_pos ⟨rfl, rfl⟩
    refine Program.Safe.bind (AreaView.safe_write (covers_of_published hpublished) ?_)
    refine Program.Safe.bind ((safe_of_published (hwrite _ _) hpublished).mono fun _ q₁ hq₁ => ?_)
    refine Program.Safe.bind ((safe_of_published (hwrite _ _) hq₁).mono fun _ q₂ hq₂ => ?_)
    refine Program.Safe.bind ((safe_emptyBuffers_area fun hfreed => absurd hq₂ hfreed).mono fun _ q₃ hq₃ => ?_)
    have hfreed : q₃.2.freed = none := by
      rw [hq₃]
      exact hq₂
    refine (safe_of_published ?_ hfreed).mono fun _ q hq hne => absurd hq hne
    refine Program.Within.bind (not_frees_openSockets _) fun _ => ?_
    refine Program.Within.bind (hwrite _ _) fun _ => Program.Within.bind (hwrite _ _) fun _ => ?_
    exact Program.Within.bind (hwrite _ _) fun _ => Program.Within.bind (hwrite _ _) fun _ => trivial

variable {kstrtoul : List Char → Option ℕ}

/-- Opening and stopping the interface, with the kernel's bookkeeping. -/
theorem safe_call_area {c : Call} (hc : c = .ndoOpen ∨ c = .ndoStop) {v b : AreaView} (hcovered : v.Covered) :
    (c.code kstrtoul).Safe (Program.keeping Responds) Covers (fun _ q => q.2.Covered) (b, v) := by
  have hrunning {b v : AreaView} (running : Bool) (hv : v.Covered) : (Program.command (R := Cmd.Response)
      (.setRunning running)).Safe (Program.keeping Responds) Covers (fun _ q => q.2 = v) (b, v) :=
    AreaView.safe_command (c := .setRunning running) fun _ => ⟨covers_refl hv, rfl⟩
  rcases hc with rfl | rfl
  · refine Program.Safe.bind ((hrunning true hcovered).mono fun _ q hq => ?_)
    refine Program.Safe.bind (safe_ndoOpen_area.mono fun ret q' hq' => ?_)
    by_cases hret : ret = 0
    · rw [if_pos hret]
      exact .pure hq'
    · rw [if_neg hret]
      refine (hrunning false hq').mono fun _ q'' hq'' => ?_
      rw [hq'']
      exact hq'
  · refine Program.Safe.bind (safe_ndoStop_area.mono fun _ q hq => ?_)
    refine (hrunning false hq).mono fun _ q' hq' => ?_
    rw [hq']
    exact hq

end Calls

section Poll

variable {α β : Type}

namespace NetCmd

/-- The register write of a step of the data path. -/
def write : NetCmd → Option (RegAddr × BitVec 32)
  | access c => c.write
  | _ => none

/-- The step accesses the DMA area. -/
def InArea : NetCmd → Prop
  | access (.load _) | access (.store _ _) => True
  | _ => False

/-- If the step reads the control word of a ring, the word shows an empty ring. -/
def ShowsEmpty : (c : NetCmd) → c.Response → Prop
  | access (.readReg reg), value => (ConfigRegs.ringOf reg).isSome = true → value.getLsbD bufferEmptyOffset = true
  | _, _ => True

/-- The step writes neither the reset nor the shared-memory register. -/
def Modest (c : NetCmd) : Prop := ∀ w ∈ c.write, w.1 ≠ RegAddr.res ∧ w.1 ≠ RegAddr.shmem

end NetCmd

/-- No access of the area, as long as every ring that is looked at is empty. -/
def NetCode.Idle : NetCode α → Prop
  | .done _ => True
  | .perform c next => ¬ c.InArea ∧ ∀ r, c.ShowsEmpty r → NetCode.Idle (next r)

namespace NetCode

/-- Sequencing. -/
theorem Idle.bind {p : NetCode α} {f : α → NetCode β} (hp : Idle p) (hf : ∀ a, Idle (f a)) : Idle (p >>= f) := by
  induction p with
  | done a => exact hf a
  | perform c next ih => exact ⟨hp.1, fun r hr => ih r (hp.2 r hr)⟩

/-- A pass over rings that are empty. -/
theorem idle_napiPollPass (budget : ℕ) (ports : List BufferIdx) (s : NapiProgress) :
    Idle (napiPollPass budget ports s) := by
  induction ports generalizing s with
  | nil => trivial
  | cons bufferId rest ih =>
    rw [napiPollPass]
    split
    · trivial
    · have hring : (ConfigRegs.ringOf (ConfigRegs.bufferRxCtrl bufferId.toNat)).isSome = true := by
        rw [ConfigRegs.ringOf_of_lt bufferId.isLt]
        rfl
      refine ⟨id, fun reg hreg => ?_⟩
      change Idle (if reg.getLsbD bufferEmptyOffset = true then napiPollPass budget rest s else _)
      rw [if_pos (hreg hring)]
      exact ih s

/-- Any number of them. -/
theorem idle_napiPollLoop (budget : ℕ) (ports : List BufferIdx) (passes : ℕ) (s : NapiProgress) :
    Idle (napiPollLoop budget ports passes s) := by
  induction passes generalizing s with
  | zero => trivial
  | succ passes ih =>
    refine Idle.bind (idle_napiPollPass budget ports _) fun s' => ?_
    split
    · exact ih s'
    · trivial

/-- `udp_core_rx_poll` does not access the area before it has found a packet. -/
theorem idle_napiPoll (budget : ℕ) (ports : List BufferIdx) (passes : ℕ) : Idle (napiPoll budget ports passes) := by
  refine Idle.bind (idle_napiPollLoop budget ports passes _) fun s => ?_
  cases s with
  | none => trivial
  | some s =>
    dsimp only
    split
    · exact ⟨id, fun _ _ => ⟨id, fun _ _ => trivial⟩⟩
    · trivial

/-- The accesses of a function of the user. -/
theorem within_accesses {p : UserCode α} {allowed : NetCmd → Prop} (h : p.Within fun c => allowed (.access c)) :
    (accesses p).Within allowed := by
  induction p with
  | done a => trivial
  | perform c next ih => exact ⟨h.1, fun r => ih r (h.2 r)⟩

/-- A register read is modest. -/
theorem modest_readReg (reg : RegAddr) : (accesses (Udriver.readReg reg)).Within NetCmd.Modest :=
  within_accesses (Program.Within.command (R := Access.Response) fun _ hw => absurd hw (Option.not_mem_none _))

/-- So is a write of another register. -/
theorem modest_writeReg {reg : RegAddr} (hres : reg ≠ RegAddr.res) (hshmem : reg ≠ RegAddr.shmem) (value : BitVec 32) :
    (accesses (Udriver.writeReg reg value)).Within NetCmd.Modest := by
  refine within_accesses (Program.Within.command (R := Access.Response) fun w hw => ?_)
  rw [← Option.some.inj hw]
  exact ⟨hres, hshmem⟩

/-- So is reading the area. -/
theorem modest_xrtBORead (offset size : ℕ) : (accesses (Udriver.xrtBORead offset size)).Within NetCmd.Modest :=
  within_accesses (SharedRings.within_xrtBORead (fun _ _ hw => absurd hw (Option.not_mem_none _)) size offset)

/-- So is popping a ring. -/
theorem modest_notifyPop (idx : BufferIdx) : (accesses (Udriver.notifyPopToRxBuffer idx.toNat)).Within NetCmd.Modest := by
  have hring := ConfigRegs.ringOf_named (ConfigRegs.ringOf_of_lt idx.isLt)
  have hwrite (value : BitVec 32) : (Udriver.writeReg (ConfigRegs.bufferRxCtrl idx.toNat) value).Within
      fun c => NetCmd.Modest (.access c) := by
    refine Program.Within.command (R := Access.Response) fun w hw => ?_
    rw [← Option.some.inj hw]
    exact hring
  refine within_accesses (Program.Within.bind (Program.Within.command (R := Access.Response) ?_) fun _ => ?_)
  · exact fun _ hw => absurd hw (Option.not_mem_none _)
  · exact Program.Within.bind (hwrite _) fun _ => Program.Within.bind (hwrite _) fun _ => hwrite _

/-- So is a pass. -/
theorem modest_napiPollPass (budget : ℕ) (ports : List BufferIdx) (s : NapiProgress) :
    (napiPollPass budget ports s).Within NetCmd.Modest := by
  have hkernel {c : NetCmd} (hc : c.write = none) : (Program.command (R := NetCmd.Response) c).Within NetCmd.Modest :=
    Program.Within.command (R := NetCmd.Response) fun _ hw => absurd (hc ▸ hw) (Option.not_mem_none _)
  induction ports generalizing s with
  | nil => trivial
  | cons bufferId rest ih =>
    rw [napiPollPass]
    split
    · trivial
    refine Program.Within.bind (modest_readReg _) fun reg => ?_
    split
    · exact ih s
    refine Program.Within.bind (modest_xrtBORead _ _) fun header => ?_
    refine Program.Within.bind (hkernel rfl) fun skb => ?_
    split
    · trivial
    refine Program.Within.bind (modest_xrtBORead _ _) fun payload => ?_
    refine Program.Within.bind (hkernel rfl) fun _ => ?_
    refine Program.Within.bind (hkernel rfl) fun _ => ?_
    exact Program.Within.bind (modest_notifyPop bufferId) fun _ => ih _

/-- So are any number of them. -/
theorem modest_napiPollLoop (budget : ℕ) (ports : List BufferIdx) (passes : ℕ) (s : NapiProgress) :
    (napiPollLoop budget ports passes s).Within NetCmd.Modest := by
  induction passes generalizing s with
  | zero => trivial
  | succ passes ih =>
    refine Program.Within.bind (modest_napiPollPass budget ports _) fun s' => ?_
    split
    · exact ih s'
    · trivial

/-- `udp_core_rx_poll` writes neither register. -/
theorem modest_napiPoll (budget : ℕ) (ports : List BufferIdx) (passes : ℕ) :
    (napiPoll budget ports passes).Within NetCmd.Modest := by
  have hgie : (accesses (Udriver.writeReg RegAddr.gie 1)).Within NetCmd.Modest :=
    modest_writeReg (by decide) (by decide) 1
  refine Program.Within.bind (modest_napiPollLoop budget ports passes _) fun s => ?_
  cases s with
  | none => trivial
  | some s =>
    dsimp only
    split
    · refine Program.Within.bind (Program.Within.command (R := NetCmd.Response) ?_) fun _ => ?_
      · exact fun _ hw => absurd hw (Option.not_mem_none _)
      · exact Program.Within.bind hgie fun _ => trivial
    · trivial

end NetCode

end Poll

end Kernel

end UdpIpCore
