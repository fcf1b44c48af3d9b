import UdpIpCore.Clocked
import UdpIpCore.Interference
import UdpIpCore.Rtl.AxiLite
import UdpIpCore.Simulation

/-!
# The processing system on its bus

A user program runs on the PS one register or memory access after the other, while the
device takes a step in every cycle. A register access goes through the AXI-lite slave: it
takes effect in one cycle and is over when the response has arrived. Memory accesses take
effect in the cycle they are made in.

`System.Inv` carries a proof outline of the program through the cycles of the device.
-/

namespace UdpIpCore

open Interaction

/-- The accesses of a user program. Memory is addressed from the start of the shared buffer. -/
inductive Access
  | readReg (reg : RegAddr)
  | writeReg (reg : RegAddr) (value : BitVec 32)
  | load (offset : ℕ)
  | store (offset : ℕ) (value : BitVec 8)

/-- What an access returns. -/
abbrev Access.Response : Access → Type
  | readReg _ => BitVec 32
  | writeReg _ _ => Unit
  | load _ => BitVec 8
  | store _ _ => Unit

/-- A user program. -/
abbrev UserCode := Program Access Access.Response

/-- What the PS drives in one cycle. -/
structure PsSignals extends AxiLiteMaster where
  store : Option (ℕ × BitVec 8)

/-- A clocked device behind an AXI-lite slave, on a shared memory. -/
structure Device (D J : Type) where
  step : D → PsSignals → J → D
  /-- What the device's own environment may do. -/
  legal : D → J → Prop
  axi : D → AxiLite
  readValue : D → J → RegAddr → BitVec 32
  load : D → ℕ → BitVec 8
  axi_step : ∀ d g j, axi (step d g j) = (axi d).step g.toAxiLiteMaster (readValue d j)

/-- How far the pending register access has come. -/
inductive Phase
  | issue
  /-- The write address was taken. -/
  | addressed
  /-- The access took effect; its response is outstanding. -/
  | effected
deriving DecidableEq

/-- The PS: the program in progress and the results of the calls that have returned. -/
structure Ps (α : Type) where
  pending : Option (UserCode α)
  phase : Phase
  results : List α

/-- What the PS is ready to do in a cycle. -/
structure PsInput (K : Type) where
  awvalid : Bool
  wvalid : Bool
  bready : Bool
  arvalid : Bool
  rready : Bool
  /-- Make the pending memory access. -/
  access : Bool
  /-- The next call, if one is made. -/
  call : Option K

namespace Ps

variable {α K : Type}

/-- No call was made yet. -/
def start : Ps α := ⟨none, .issue, []⟩

/-- Go on with the rest of the program, or keep its result. -/
def resume (t : Ps α) : UserCode α → Ps α
  | .done a => ⟨none, .issue, t.results ++ [a]⟩
  | .perform c next => ⟨some (.perform c next), .issue, t.results⟩

/-- What the PS drives: at most its pending access. -/
def signals (t : Ps α) (i : PsInput K) : PsSignals :=
  match t.pending with
  | some (.perform (.readReg reg) _) =>
    ⟨⟨false, 0, false, 0, i.bready, i.arvalid && t.phase = .issue, reg, i.rready⟩, none⟩
  | some (.perform (.writeReg reg value) _) =>
    ⟨⟨i.awvalid && t.phase = .issue, reg, i.wvalid && t.phase ≠ .effected, value, i.bready, false, 0,
      i.rready⟩, none⟩
  | some (.perform (.store offset value) _) =>
    ⟨⟨false, 0, false, 0, i.bready, false, 0, i.rready⟩, if i.access then some (offset, value) else none⟩
  | some (.perform (.load _) _) | some (.done _) | none =>
    ⟨⟨false, 0, false, 0, i.bready, false, 0, i.rready⟩, none⟩

/-- One cycle of the PS. -/
def step (code : K → UserCode α) (t : Ps α) (axi : AxiLite) (load : ℕ → BitVec 8) (i : PsInput K) : Ps α :=
  let g := (t.signals i).toAxiLiteMaster
  match t.pending with
  | none =>
    match i.call with
    | none => t
    | some k => t.resume (code k)
  | some (.done a) => t.resume (.done a)
  | some (.perform (.readReg _) next) =>
    if axi.rvalid && g.rready then t.resume (next axi.rdata)
    else if axi.arHs g then { t with phase := .effected }
    else t
  | some (.perform (.writeReg _ _) next) =>
    if axi.bvalid && g.bready then t.resume (next ())
    else if axi.wHs g then { t with phase := .effected }
    else if axi.awHs g then { t with phase := .addressed }
    else t
  | some (.perform (.load offset) next) => if i.access then t.resume (next (load offset)) else t
  | some (.perform (.store _ _) next) => if i.access then t.resume (next ()) else t

/-- The slave waits for a write address, and for a read address. -/
def WriteIdle (axi : AxiLite) : Prop := axi.wstate = .wrIdle ∨ axi.wstate = .wrReset
def ReadIdle (axi : AxiLite) : Prop := axi.rstate = .rdIdle ∨ axi.rstate = .rdReset

/-- The slave stands where the pending access is. -/
def InPhase (t : Ps α) (axi : AxiLite) : Prop :=
  match t.pending with
  | some (.perform (.readReg _) _) =>
    WriteIdle axi ∧ match t.phase with
      | .issue => ReadIdle axi
      | .addressed => False
      | .effected => axi.rstate = .rdData
  | some (.perform (.writeReg reg _) _) =>
    ReadIdle axi ∧ match t.phase with
      | .issue => WriteIdle axi
      | .addressed => axi.wstate = .wrData ∧ axi.waddr = reg
      | .effected => axi.wstate = .wrResp
  | some (.perform (.load _) _) | some (.perform (.store _ _) _) | some (.done _) | none =>
    WriteIdle axi ∧ ReadIdle axi ∧ t.phase = .issue

/-- What is left of the program once the pending access has taken effect. -/
def rest (t : Ps α) (axi : AxiLite) : Option (UserCode α) :=
  match t.pending, t.phase with
  | some (.perform (.readReg _) next), .effected => some (next axi.rdata)
  | some (.perform (.writeReg _ _) next), .effected => some (next ())
  | p, _ => p

end Ps

namespace Ps

variable {α K : Type}

/-- The offset the PS loads from in a cycle. -/
def loads (t : Ps α) (i : PsInput K) : Option ℕ :=
  match t.pending with
  | some (.perform (.load offset) _) => if i.access then some offset else none
  | _ => none

/-- The PS depends on the memory only where it loads. -/
theorem step_congr {code : K → UserCode α} {t : Ps α} {axi : AxiLite} {load load' : ℕ → BitVec 8} {i : PsInput K}
    (h : ∀ offset, t.loads i = some offset → load offset = load' offset) :
    t.step code axi load i = t.step code axi load' i := by
  obtain ⟨pending, phase, results⟩ := t
  match pending, h with
  | some (.perform (.load offset) next), h =>
    cases haccess : i.access with
    | false => simp only [step, haccess, Bool.false_eq_true, if_false]
    | true =>
      have hload := h offset (by simp only [loads, haccess, if_true])
      simp only [step, hload]
  | none, _ => rfl
  | some (.done _), _ => rfl
  | some (.perform (.readReg _) _), _ => rfl
  | some (.perform (.writeReg _ _) _), _ => rfl
  | some (.perform (.store _ _) _), _ => rfl

end Ps

namespace Device

variable {D J : Type}

/-- A cycle in which the PS writes neither a register nor the memory. -/
def Quiet (v : Device D J) (d d' : D) : Prop :=
  ∃ g j, v.legal d j ∧ (v.axi d).wHs g.toAxiLiteMaster = false ∧ g.store = none ∧ d' = v.step d g j

/-- The cycle in which an access of the PS takes effect. -/
def Responds (v : Device D J) (d : D) : (c : Access) → c.Response → D → Prop
  | .readReg reg, r, d' => ∃ g j, v.legal d j ∧ (v.axi d).wHs g.toAxiLiteMaster = false ∧
      g.store = none ∧ r = v.readValue d j reg ∧ d' = v.step d g j
  | .writeReg reg value, _, d' => ∃ g j, v.legal d j ∧ (v.axi d).wHs g.toAxiLiteMaster = true ∧
      (v.axi d).waddr = reg ∧ g.wdata = value ∧ g.store = none ∧ d' = v.step d g j
  | .load offset, r, d' => v.Quiet d d' ∧ r = v.load d offset
  | .store offset value, _, d' => ∃ g j, v.legal d j ∧ (v.axi d).wHs g.toAxiLiteMaster = false ∧
      g.store = some (offset, value) ∧ d' = v.step d g j

end Device

/-- The PS and the device. -/
structure System (D α : Type) where
  ps : Ps α
  device : D

namespace System

variable {D J K α : Type}

/-- One cycle. -/
def step (v : Device D J) (code : K → UserCode α) (s : System D α) (i : PsInput K × J) : System D α where
  ps := s.ps.step code (v.axi s.device) (v.load s.device) i.1
  device := v.step s.device (s.ps.signals i.1) i.2

/-- The PS runs one call after the other on the device. -/
def machine (v : Device D J) (code : K → UserCode α) : Clocked.Machine (System D α) (PsInput K × J) where
  step := step v code
  legal := fun s i => v.legal s.device i.2

/-- Between two calls `between` holds, and a call in progress follows its proof outline. -/
structure Inv (v : Device D J) (between during : List α → D → Prop) (s : System D α) : Prop where
  phase : s.ps.InPhase (v.axi s.device)
  outline : match s.ps.rest (v.axi s.device) with
    | none => between s.ps.results s.device
    | some p => p.Outline v.Quiet v.Responds (during s.ps.results)
        (fun a => between (s.ps.results ++ [a])) s.device

/-- The system on a device of which only a part is looked at. -/
def view {E : Type} (f : D → E) (s : System D α) : System E α := ⟨s.ps, f s.device⟩

/-- A device that contains another one: in a cycle whose load agrees, the PS and the part go on as they would
on their own. -/
theorem view_step {E L : Type} {v : Device D J} {w : Device E L} {code : K → UserCode α} {f : D → E} {s : System D α}
    {i : PsInput K} {j : J} {l : L} (hstep : f (v.step s.device (s.ps.signals i) j) = w.step (f s.device) (s.ps.signals i) l)
    (haxi : v.axi s.device = w.axi (f s.device))
    (hload : ∀ offset, s.ps.loads i = some offset → v.load s.device offset = w.load (f s.device) offset) :
    (step v code s (i, j)).view f = step w code (s.view f) (i, l) := by
  rw [view, view, step, step, hstep, haxi, Ps.step_congr hload]

/-- A device that is simulated cycle by cycle, with the same bus and the same memory, can stand for the other one under
every program and any condition on what the PS does. -/
theorem simulates {E L : Type} {v : Device D J} {w : Device E L} (code : K → UserCode α) (calls : PsInput K → Prop)
    {r : D → E → Prop}
    (hstep : ∀ d e g j, r d e → v.legal d j → ∃ l, w.legal e l ∧ r (v.step d g j) (w.step e g l))
    (haxi : ∀ d e, r d e → v.axi d = w.axi e) (hload : ∀ d e, r d e → v.load d = w.load e) :
    ((machine v code).restrict fun _ i => calls i.1).Simulates ((machine w code).restrict fun _ i => calls i.1)
      fun s t => s.ps = t.ps ∧ r s.device t.device := by
  rintro s t ⟨i, j⟩ ⟨hps, hr⟩ ⟨hlegal, hcalls⟩
  obtain ⟨l, hl, hnext⟩ := hstep _ _ (s.ps.signals i) j hr hlegal
  rw [hps] at hnext
  refine ⟨(i, l), ⟨hl, hcalls⟩, ?_, ?_⟩
  · show s.ps.step code (v.axi s.device) (v.load s.device) i = t.ps.step code (w.axi t.device) (w.load t.device) i
    rw [hps, haxi _ _ hr, hload _ _ hr]
  · show r (v.step s.device (s.ps.signals i) j) _
    rw [hps]
    exact hnext

section Step

variable {v : Device D J} {code : K → UserCode α} {between during : List α → D → Prop}
  {t : Ps α} {d : D} {i : PsInput K} {j : J}

/-- A slave that waits for a write address stays so until it takes one. -/
theorem writeIdle_step {a : AxiLite} {m : AxiLiteMaster} {f : RegAddr → BitVec 32}
    (h : Ps.WriteIdle a) (hm : a.awHs m = false) : Ps.WriteIdle (a.step m f) := by
  rcases h with h | h
  · simp only [AxiLite.awHs, AxiLite.awready, h, decide_true, Bool.and_true] at hm
    simp [Ps.WriteIdle, AxiLite.step, AxiLite.wnext, h, hm]
  · simp [Ps.WriteIdle, AxiLite.step, AxiLite.wnext, h]

/-- A slave that waits for a read address stays so until it takes one. -/
theorem readIdle_step {a : AxiLite} {m : AxiLiteMaster} {f : RegAddr → BitVec 32}
    (h : Ps.ReadIdle a) (hm : a.arHs m = false) : Ps.ReadIdle (a.step m f) := by
  rcases h with h | h
  · simp only [AxiLite.arHs, AxiLite.arready, h, decide_true, Bool.and_true] at hm
    simp [Ps.ReadIdle, AxiLite.step, AxiLite.rnext, h, hm]
  · simp [Ps.ReadIdle, AxiLite.step, AxiLite.rnext, h]

/-- No write takes effect while the slave waits for a write address. -/
theorem wHs_of_writeIdle {a : AxiLite} (h : Ps.WriteIdle a) (m : AxiLiteMaster) : a.wHs m = false := by
  rcases h with h | h <;> simp [AxiLite.wHs, AxiLite.wready, h]

/-- Once the slave is idle, the rest of a program goes on from the point of its outline. -/
theorem inv_resume {p : UserCode α} (hwrite : Ps.WriteIdle (v.axi d)) (hread : Ps.ReadIdle (v.axi d))
    (h : p.Outline v.Quiet v.Responds (during t.results) (fun a => between (t.results ++ [a])) d) :
    Inv v between during ⟨t.resume p, d⟩ := by
  cases p with
  | done a => exact ⟨⟨hwrite, hread, rfl⟩, h.result⟩
  | perform c next =>
    cases c with
    | readReg reg => exact ⟨⟨hwrite, hread⟩, h⟩
    | writeReg reg value => exact ⟨⟨hread, hwrite⟩, h⟩
    | load offset => exact ⟨⟨hwrite, hread, rfl⟩, h⟩
    | store offset value => exact ⟨⟨hwrite, hread, rfl⟩, h⟩

/-- A cycle with a register read pending: the handshake of its address is the moment of the read. -/
theorem inv_step_readReg {reg : RegAddr} {next : BitVec 32 → UserCode α}
    (h : Inv v between during ⟨t, d⟩) (hj : v.legal d j)
    (ht : t.pending = some (.perform (.readReg reg) next)) :
    Inv v between during (step v code ⟨t, d⟩ (i, j)) := by
  obtain ⟨pending, phase, results⟩ := t
  obtain rfl : pending = _ := ht
  obtain ⟨⟨hwrite, hphase⟩, houtline⟩ := h
  let g := Ps.signals ⟨some (.perform (.readReg reg) next), phase, results⟩ i
  have hwHs := wHs_of_writeIdle hwrite g.toAxiLiteMaster
  have hwrite' : Ps.WriteIdle (v.axi (v.step d g j)) := by
    rw [v.axi_step]
    exact writeIdle_step hwrite rfl
  cases phase with
  | addressed => exact hphase.elim
  | issue =>
    have hread : Ps.ReadIdle (v.axi d) := hphase
    have hrvalid : (v.axi d).rvalid = false := by
      rcases hread with h | h <;> simp [AxiLite.rvalid, h]
    cases har : (v.axi d).arHs g.toAxiLiteMaster with
    | false =>
      have hstep : step v code ⟨⟨some (.perform (.readReg reg) next), .issue, results⟩, d⟩ (i, j) =
          ⟨⟨some (.perform (.readReg reg) next), .issue, results⟩, v.step d g j⟩ := by
        simp only [step, Ps.step, hrvalid, Bool.false_and, Bool.false_eq_true, if_false]
        rw [if_neg (by rw [Bool.not_eq_true]; exact har)]
      have hread' : Ps.ReadIdle (v.axi (v.step d g j)) := by
        rw [v.axi_step]
        exact readIdle_step hread har
      rw [hstep]
      exact ⟨⟨hwrite', hread'⟩, houtline.quiet_step ⟨g, j, hj, hwHs, rfl, rfl⟩⟩
    | true =>
      have hstep : step v code ⟨⟨some (.perform (.readReg reg) next), .issue, results⟩, d⟩ (i, j) =
          ⟨⟨some (.perform (.readReg reg) next), .effected, results⟩, v.step d g j⟩ := by
        simp only [step, Ps.step, hrvalid, Bool.false_and, Bool.false_eq_true, if_false]
        rw [if_pos har]
      have hrdata : (v.axi (v.step d g j)).rdata = v.readValue d j reg := by
        rw [v.axi_step]
        exact if_pos har
      have hrstate : (v.axi (v.step d g j)).rstate = .rdData := by
        rw [v.axi_step]
        simp only [AxiLite.arHs, AxiLite.arready, Bool.and_eq_true, decide_eq_true_eq] at har
        simp [AxiLite.step, AxiLite.rnext, har]
      rw [hstep]
      refine ⟨⟨hwrite', hrstate⟩, ?_⟩
      have hperformed := houtline.performed ⟨g, j, hj, hwHs, rfl, rfl, rfl⟩
      rw [← hrdata] at hperformed
      exact hperformed
  | effected =>
    have hrdata : (v.axi d).rstate = .rdData := hphase
    have hrvalid : (v.axi d).rvalid = true := by simp [AxiLite.rvalid, hrdata]
    have har : (v.axi d).arHs g.toAxiLiteMaster = false := by
      simp [AxiLite.arHs, AxiLite.arready, hrdata]
    have hkeep : (v.axi (v.step d g j)).rdata = (v.axi d).rdata := by
      rw [v.axi_step]
      exact if_neg (by simp [har])
    have hquiet := houtline.quiet_step ⟨g, j, hj, hwHs, rfl, rfl⟩
    cases hready : i.rready with
    | false =>
      have hstep : step v code ⟨⟨some (.perform (.readReg reg) next), .effected, results⟩, d⟩ (i, j) =
          ⟨⟨some (.perform (.readReg reg) next), .effected, results⟩, v.step d g j⟩ := by
        simp only [step, Ps.step, hrvalid, Bool.true_and]
        rw [if_neg (by rw [Bool.not_eq_true]; exact hready), if_neg (by rw [Bool.not_eq_true]; exact har)]
      have hrstate : (v.axi (v.step d g j)).rstate = .rdData := by
        rw [v.axi_step]
        simp [AxiLite.step, AxiLite.rnext, hrdata, show g.rready = false from hready]
      rw [hstep]
      refine ⟨⟨hwrite', hrstate⟩, ?_⟩
      rw [← hkeep] at hquiet
      exact hquiet
    | true =>
      have hstep : step v code ⟨⟨some (.perform (.readReg reg) next), .effected, results⟩, d⟩ (i, j) =
          ⟨Ps.resume ⟨some (.perform (.readReg reg) next), .effected, results⟩ (next (v.axi d).rdata),
            v.step d g j⟩ := by
        simp only [step, Ps.step, hrvalid, Bool.true_and]
        exact congrArg (System.mk · (v.step d g j)) (if_pos hready)
      have hread' : Ps.ReadIdle (v.axi (v.step d g j)) := by
        rw [v.axi_step]
        simp [Ps.ReadIdle, AxiLite.step, AxiLite.rnext, hrdata, hrvalid, show g.rready = true from hready]
      rw [hstep]
      exact inv_resume hwrite' hread' hquiet

/-- A cycle with a register write pending: the handshake of its data is the moment of the write. -/
theorem inv_step_writeReg {reg : RegAddr} {value : BitVec 32} {next : Unit → UserCode α}
    (h : Inv v between during ⟨t, d⟩) (hj : v.legal d j)
    (ht : t.pending = some (.perform (.writeReg reg value) next)) :
    Inv v between during (step v code ⟨t, d⟩ (i, j)) := by
  obtain ⟨pending, phase, results⟩ := t
  obtain rfl : pending = _ := ht
  obtain ⟨⟨hread, hphase⟩, houtline⟩ := h
  let g := Ps.signals ⟨some (.perform (.writeReg reg value) next), phase, results⟩ i
  have har : (v.axi d).arHs g.toAxiLiteMaster = false := rfl
  have hread' : Ps.ReadIdle (v.axi (v.step d g j)) := by
    rw [v.axi_step]
    exact readIdle_step hread har
  cases phase with
  | issue =>
    have hwrite : Ps.WriteIdle (v.axi d) := hphase
    have hwHs := wHs_of_writeIdle hwrite g.toAxiLiteMaster
    have hbvalid : (v.axi d).bvalid = false := by
      rcases hwrite with h | h <;> simp [AxiLite.bvalid, h]
    have hquiet := houtline.quiet_step ⟨g, j, hj, hwHs, rfl, rfl⟩
    cases haw : (v.axi d).awHs g.toAxiLiteMaster with
    | false =>
      have hstep : step v code ⟨⟨some (.perform (.writeReg reg value) next), .issue, results⟩, d⟩ (i, j) =
          ⟨⟨some (.perform (.writeReg reg value) next), .issue, results⟩, v.step d g j⟩ := by
        simp only [step, Ps.step, hbvalid, Bool.false_and, Bool.false_eq_true, if_false]
        rw [if_neg (by rw [Bool.not_eq_true]; exact hwHs), if_neg (by rw [Bool.not_eq_true]; exact haw)]
      have hwrite' : Ps.WriteIdle (v.axi (v.step d g j)) := by
        rw [v.axi_step]
        exact writeIdle_step hwrite haw
      rw [hstep]
      exact ⟨⟨hread', hwrite'⟩, hquiet⟩
    | true =>
      have hstep : step v code ⟨⟨some (.perform (.writeReg reg value) next), .issue, results⟩, d⟩ (i, j) =
          ⟨⟨some (.perform (.writeReg reg value) next), .addressed, results⟩, v.step d g j⟩ := by
        simp only [step, Ps.step, hbvalid, Bool.false_and, Bool.false_eq_true, if_false]
        rw [if_neg (by rw [Bool.not_eq_true]; exact hwHs), if_pos haw]
      have hwrite' : (v.axi (v.step d g j)).wstate = .wrData ∧ (v.axi (v.step d g j)).waddr = reg := by
        rw [v.axi_step]
        refine ⟨?_, if_pos haw⟩
        simp only [AxiLite.awHs, AxiLite.awready, Bool.and_eq_true, decide_eq_true_eq] at haw
        simp [AxiLite.step, AxiLite.wnext, haw]
      rw [hstep]
      exact ⟨⟨hread', hwrite'⟩, hquiet⟩
  | addressed =>
    obtain ⟨hdata, haddr⟩ : (v.axi d).wstate = .wrData ∧ (v.axi d).waddr = reg := hphase
    have hbvalid : (v.axi d).bvalid = false := by simp [AxiLite.bvalid, hdata]
    have haw : (v.axi d).awHs g.toAxiLiteMaster = false := by simp [AxiLite.awHs, AxiLite.awready, hdata]
    cases hwHs : (v.axi d).wHs g.toAxiLiteMaster with
    | false =>
      have hstep : step v code ⟨⟨some (.perform (.writeReg reg value) next), .addressed, results⟩, d⟩ (i, j) =
          ⟨⟨some (.perform (.writeReg reg value) next), .addressed, results⟩, v.step d g j⟩ := by
        simp only [step, Ps.step, hbvalid, Bool.false_and, Bool.false_eq_true, if_false]
        rw [if_neg (by rw [Bool.not_eq_true]; exact hwHs), if_neg (by rw [Bool.not_eq_true]; exact haw)]
      have hwrite' : (v.axi (v.step d g j)).wstate = .wrData ∧ (v.axi (v.step d g j)).waddr = reg := by
        rw [v.axi_step]
        refine ⟨?_, (if_neg (by simp [haw])).trans haddr⟩
        simp only [AxiLite.wHs, AxiLite.wready, hdata, decide_true, Bool.and_true] at hwHs
        simp [AxiLite.step, AxiLite.wnext, hdata, hwHs]
      rw [hstep]
      exact ⟨⟨hread', hwrite'⟩, houtline.quiet_step ⟨g, j, hj, hwHs, rfl, rfl⟩⟩
    | true =>
      have hstep : step v code ⟨⟨some (.perform (.writeReg reg value) next), .addressed, results⟩, d⟩ (i, j) =
          ⟨⟨some (.perform (.writeReg reg value) next), .effected, results⟩, v.step d g j⟩ := by
        simp only [step, Ps.step, hbvalid, Bool.false_and, Bool.false_eq_true, if_false]
        rw [if_pos hwHs]
      have hwrite' : (v.axi (v.step d g j)).wstate = .wrResp := by
        rw [v.axi_step]
        exact AxiLite.wnext_of_wHs hwHs
      rw [hstep]
      exact ⟨⟨hread', hwrite'⟩, houtline.performed ⟨g, j, hj, hwHs, haddr, rfl, rfl, rfl⟩⟩
  | effected =>
    have hresp : (v.axi d).wstate = .wrResp := hphase
    have hbvalid : (v.axi d).bvalid = true := by simp [AxiLite.bvalid, hresp]
    have hwHs : (v.axi d).wHs g.toAxiLiteMaster = false := by simp [AxiLite.wHs, AxiLite.wready, hresp]
    have haw : (v.axi d).awHs g.toAxiLiteMaster = false := by simp [AxiLite.awHs, AxiLite.awready, hresp]
    have hquiet := houtline.quiet_step ⟨g, j, hj, hwHs, rfl, rfl⟩
    cases hready : i.bready with
    | false =>
      have hstep : step v code ⟨⟨some (.perform (.writeReg reg value) next), .effected, results⟩, d⟩ (i, j) =
          ⟨⟨some (.perform (.writeReg reg value) next), .effected, results⟩, v.step d g j⟩ := by
        simp only [step, Ps.step, hbvalid, Bool.true_and]
        rw [if_neg (by rw [Bool.not_eq_true]; exact hready), if_neg (by rw [Bool.not_eq_true]; exact hwHs),
          if_neg (by rw [Bool.not_eq_true]; exact haw)]
      have hwrite' : (v.axi (v.step d g j)).wstate = .wrResp := by
        rw [v.axi_step]
        simp [AxiLite.step, AxiLite.wnext, hresp, show g.bready = false from hready]
      rw [hstep]
      exact ⟨⟨hread', hwrite'⟩, hquiet⟩
    | true =>
      have hstep : step v code ⟨⟨some (.perform (.writeReg reg value) next), .effected, results⟩, d⟩ (i, j) =
          ⟨Ps.resume ⟨some (.perform (.writeReg reg value) next), .effected, results⟩ (next ()),
            v.step d g j⟩ := by
        simp only [step, Ps.step, hbvalid, Bool.true_and]
        exact congrArg (System.mk · (v.step d g j)) (if_pos hready)
      have hwrite' : Ps.WriteIdle (v.axi (v.step d g j)) := by
        rw [v.axi_step]
        simp [Ps.WriteIdle, AxiLite.step, AxiLite.wnext, hresp, show g.bready = true from hready]
      rw [hstep]
      exact inv_resume hwrite' hread' hquiet

/-- Without an address offered an idle slave stays idle, and no register access takes effect. -/
theorem idle_step {g : PsSignals} (hwrite : Ps.WriteIdle (v.axi d)) (hread : Ps.ReadIdle (v.axi d))
    (haw : g.awvalid = false) (har : g.arvalid = false) :
    (v.axi d).wHs g.toAxiLiteMaster = false ∧ Ps.WriteIdle (v.axi (v.step d g j)) ∧
      Ps.ReadIdle (v.axi (v.step d g j)) := by
  have har' : (v.axi d).arHs g.toAxiLiteMaster = false := by simp [AxiLite.arHs, har]
  have haw' : (v.axi d).awHs g.toAxiLiteMaster = false := by simp [AxiLite.awHs, haw]
  rw [v.axi_step]
  exact ⟨wHs_of_writeIdle hwrite _, writeIdle_step hwrite haw', readIdle_step hread har'⟩

/-- A cycle with a memory read pending. -/
theorem inv_step_load {offset : ℕ} {next : BitVec 8 → UserCode α} (h : Inv v between during ⟨t, d⟩)
    (hj : v.legal d j) (ht : t.pending = some (.perform (.load offset) next)) :
    Inv v between during (step v code ⟨t, d⟩ (i, j)) := by
  obtain ⟨pending, phase, results⟩ := t
  obtain rfl : pending = _ := ht
  obtain ⟨⟨hwrite, hread, hphase⟩, houtline⟩ := h
  obtain rfl : phase = .issue := hphase
  let g := Ps.signals ⟨some (.perform (.load offset) next), .issue, results⟩ i
  obtain ⟨hwHs, hwrite', hread'⟩ := idle_step (g := g) (j := j) hwrite hread rfl rfl
  have hquiet : v.Quiet d (v.step d g j) := ⟨g, j, hj, hwHs, rfl, rfl⟩
  cases haccess : i.access with
  | false =>
    have hstep : step v code ⟨⟨some (.perform (.load offset) next), .issue, results⟩, d⟩ (i, j) =
        ⟨⟨some (.perform (.load offset) next), .issue, results⟩, v.step d g j⟩ := by
      simp only [step, Ps.step, haccess, Bool.false_eq_true, if_false]
      rfl
    rw [hstep]
    exact ⟨⟨hwrite', hread', rfl⟩, houtline.quiet_step hquiet⟩
  | true =>
    have hstep : step v code ⟨⟨some (.perform (.load offset) next), .issue, results⟩, d⟩ (i, j) =
        ⟨Ps.resume ⟨some (.perform (.load offset) next), .issue, results⟩ (next (v.load d offset)),
          v.step d g j⟩ := by
      simp only [step, Ps.step, haccess, if_true]
      rfl
    rw [hstep]
    exact inv_resume hwrite' hread' (houtline.performed ⟨hquiet, rfl⟩)

/-- A cycle with a memory write pending. -/
theorem inv_step_store {offset : ℕ} {value : BitVec 8} {next : Unit → UserCode α}
    (h : Inv v between during ⟨t, d⟩) (hj : v.legal d j)
    (ht : t.pending = some (.perform (.store offset value) next)) :
    Inv v between during (step v code ⟨t, d⟩ (i, j)) := by
  obtain ⟨pending, phase, results⟩ := t
  obtain rfl : pending = _ := ht
  obtain ⟨⟨hwrite, hread, hphase⟩, houtline⟩ := h
  obtain rfl : phase = .issue := hphase
  let g := Ps.signals ⟨some (.perform (.store offset value) next), .issue, results⟩ i
  obtain ⟨hwHs, hwrite', hread'⟩ := idle_step (g := g) (j := j) hwrite hread rfl rfl
  cases haccess : i.access with
  | false =>
    have hstore : g.store = none := if_neg (by simp [haccess])
    have hstep : step v code ⟨⟨some (.perform (.store offset value) next), .issue, results⟩, d⟩ (i, j) =
        ⟨⟨some (.perform (.store offset value) next), .issue, results⟩, v.step d g j⟩ := by
      simp only [step, Ps.step, haccess, Bool.false_eq_true, if_false]
      rfl
    rw [hstep]
    exact ⟨⟨hwrite', hread', rfl⟩, houtline.quiet_step ⟨g, j, hj, hwHs, hstore, rfl⟩⟩
  | true =>
    have hstore : g.store = some (offset, value) := if_pos haccess
    have hstep : step v code ⟨⟨some (.perform (.store offset value) next), .issue, results⟩, d⟩ (i, j) =
        ⟨Ps.resume ⟨some (.perform (.store offset value) next), .issue, results⟩ (next ()),
          v.step d g j⟩ := by
      simp only [step, Ps.step, haccess, if_true]
      rfl
    rw [hstep]
    exact inv_resume hwrite' hread' (houtline.performed ⟨g, j, hj, hwHs, hstore, rfl⟩)

/-- Every cycle keeps the proof outline, if what holds between two calls survives quiet cycles and
the call that is made starts from it. -/
theorem inv_step_call {s : System D α} {i : PsInput K × J} (h : Inv v between during s)
    (hlegal : (machine v code).legal s i)
    (hquiet : ∀ results d d', between results d → v.Quiet d d' → between results d')
    (hcode : ∀ results d k, i.1.call = some k → between results d →
      (code k).Outline v.Quiet v.Responds (during results) (fun a => between (results ++ [a])) d) :
    Inv v between during ((machine v code).step s i) := by
  obtain ⟨⟨pending, phase, results⟩, d⟩ := s
  obtain ⟨i, j⟩ := i
  match pending, h with
  | some (.perform (.readReg reg) next), h => exact inv_step_readReg h hlegal rfl
  | some (.perform (.writeReg reg value) next), h => exact inv_step_writeReg h hlegal rfl
  | some (.perform (.load offset) next), h => exact inv_step_load h hlegal rfl
  | some (.perform (.store offset value) next), h => exact inv_step_store h hlegal rfl
  | some (.done a), ⟨⟨hwrite, hread, hphase⟩, houtline⟩ =>
    obtain ⟨hwHs, hwrite', hread'⟩ := idle_step
      (g := Ps.signals ⟨some (.done a), phase, results⟩ i) (j := j) hwrite hread rfl rfl
    have hdone := houtline.quiet_step ⟨_, j, hlegal, hwHs, rfl, rfl⟩
    exact inv_resume (t := ⟨some (.done a), phase, results⟩) hwrite' hread' hdone
  | none, ⟨⟨hwrite, hread, hphase⟩, hbetween⟩ =>
    obtain ⟨hwHs, hwrite', hread'⟩ := idle_step
      (g := Ps.signals ⟨none, phase, results⟩ i) (j := j) hwrite hread rfl rfl
    have hbetween' := hquiet _ _ _ hbetween ⟨_, j, hlegal, hwHs, rfl, rfl⟩
    cases hcall : i.call with
    | none =>
      have hstep : (machine v code).step ⟨⟨none, phase, results⟩, d⟩ (i, j) =
          ⟨⟨none, phase, results⟩, v.step d (Ps.signals ⟨none, phase, results⟩ i) j⟩ := by
        simp only [machine, step, Ps.step, hcall]
      rw [hstep]
      exact ⟨⟨hwrite', hread', hphase⟩, hbetween'⟩
    | some k =>
      have hstep : (machine v code).step ⟨⟨none, phase, results⟩, d⟩ (i, j) =
          ⟨Ps.resume ⟨none, phase, results⟩ (code k),
            v.step d (Ps.signals ⟨none, phase, results⟩ i) j⟩ := by
        simp only [machine, step, Ps.step, hcall]
      rw [hstep]
      exact inv_resume (t := ⟨none, phase, results⟩) hwrite' hread' (hcode _ _ k hcall hbetween')

/-- So it does if every call starts from it. -/
theorem inv_step (hquiet : ∀ results d d', between results d → v.Quiet d d' → between results d')
    (hcode : ∀ results d k, between results d → (code k).Outline v.Quiet v.Responds (during results)
      (fun a => between (results ++ [a])) d)
    (s : System D α) (i : PsInput K × J) (h : Inv v between during s)
    (hlegal : (machine v code).legal s i) : Inv v between during ((machine v code).step s i) :=
  inv_step_call h hlegal hquiet fun results d k _ => hcode results d k

/-- Before the first call. -/
theorem inv_start (hwrite : Ps.WriteIdle (v.axi d)) (hread : Ps.ReadIdle (v.axi d)) (h : between [] d) :
    Inv v between during ⟨Ps.start, d⟩ := ⟨⟨hwrite, hread, rfl⟩, h⟩

/-- What holds during a call holds throughout, if it holds between two calls. -/
theorem Inv.always {s : System D α} (h : Inv v between during s)
    (hbetween : ∀ results d, between results d → during results d) : during s.ps.results s.device := by
  have houtline := h.outline
  cases hrest : s.ps.rest (v.axi s.device) with
  | none => exact hbetween _ _ (by simpa only [hrest] using houtline)
  | some p =>
    rw [hrest] at houtline
    exact houtline.invariant

/-- Between two calls. -/
theorem Inv.idle {s : System D α} (h : Inv v between during s) (hidle : s.ps.pending = none) :
    between s.ps.results s.device := by
  have houtline := h.outline
  simpa only [Ps.rest, hidle] using houtline

end Step

end System

end UdpIpCore
