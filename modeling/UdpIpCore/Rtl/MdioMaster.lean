import UdpIpCore.Progress
import UdpIpCore.ShiftRegister
import Mathlib.Algebra.Group.Nat.Defs

/-!
# The MDIO master

`mdio_master` sends each command over one line: 32 ones, then the 32 bits of the frame, with one
more clock behind them. For a read it leaves the line to the PHY after the register address, and
the last 16 bits of the shift register are what the PHY has answered. The line is sampled by the PHY
at the rising edges of `mdc`; the master takes what it shifts in at the falling ones.
-/

namespace UdpIpCore

/-- A command of the host. -/
structure MdioCommand where
  phyAddr : BitVec 5
  regAddr : BitVec 5
  data : BitVec 16
  opcode : BitVec 2
deriving DecidableEq

namespace MdioCommand

/-- `{2'b01, cmd_opcode, cmd_phy_addr, cmd_reg_addr, 2'b10, cmd_data}`. -/
def word (c : MdioCommand) : BitVec 32 := 0b01#2 ++ c.opcode ++ c.phyAddr ++ c.regAddr ++ 0b10#2 ++ c.data

/-- The opcodes that read. -/
def isRead (opcode : BitVec 2) : Bool := opcode = 0b10 || opcode = 0b11

/-- The line at a rising edge, counted from the start of the command, if it is driven. -/
def wire (c : MdioCommand) (n : ℕ) : Option Bool :=
  if n < 32 then some true
  else if 64 ≤ n ∨ isRead c.opcode = true ∧ 46 ≤ n then none
  else some (c.word.getMsbD (n - 32))

/-- In the preamble. -/
theorem wire_preamble (c : MdioCommand) {n : ℕ} (hn : n < 32) : c.wire n = some true := if_pos hn

/-- After the last bit. -/
theorem wire_last (c : MdioCommand) {n : ℕ} (hn : 64 ≤ n) : c.wire n = none := by
  rw [wire, if_neg (by omega), if_pos (Or.inl hn)]

/-- In the frame, where the PHY does not answer. -/
theorem wire_frame {c : MdioCommand} {n : ℕ} (hn : 32 ≤ n) (hlast : n < 64) (hnot : ¬ (isRead c.opcode = true ∧ 46 ≤ n)) :
    c.wire n = some (c.word.getMsbD (n - 32)) := by
  rw [wire, if_neg (by omega), if_neg]
  rintro (h | h)
  · omega
  · exact hnot h

/-- Where it does. -/
theorem isNone_wire (c : MdioCommand) {n : ℕ} (hn : 32 ≤ n) (hlast : n < 64) :
    (c.wire n).isNone = (isRead c.opcode && decide (46 ≤ n)) := by
  by_cases hread : isRead c.opcode = true ∧ 46 ≤ n
  · rw [wire, if_neg (by omega), if_pos (Or.inr hread), hread.1, decide_eq_true hread.2]
    rfl
  · rw [wire_frame hn hlast hread]
    simp only [not_and, Nat.not_le] at hread
    cases hopcode : isRead c.opcode with
    | false => rfl
    | true =>
      rw [decide_eq_false (Nat.not_le.mpr (hread hopcode))]
      rfl

/-- The line at all its rising edges. -/
def edges (c : MdioCommand) : List (Option Bool) := (List.range 65).map c.wire

end MdioCommand

/-- `STATE_*`. -/
inductive MdioState
  | idle
  | preamble
  | transfer
deriving DecidableEq

/-- The registers. -/
structure MdioMaster where
  state : MdioState
  count : ℕ
  bitCount : ℕ
  cycle : Bool
  data : BitVec 32
  op : BitVec 2
  cmdReady : Bool
  dataOut : BitVec 16
  dataOutValid : Bool
  mdioI : Bool
  mdcO : Bool
  mdioO : Bool
  mdioT : Bool
  busy : Bool
deriving DecidableEq

/-- The inputs of a cycle. -/
structure MdioInput where
  cmd : MdioCommand
  cmdValid : Bool
  dataOutReady : Bool
  mdioI : Bool
  prescale : BitVec 8

namespace MdioMaster

/-- After reset; what the reset leaves alone has its initial value. -/
def reset : MdioMaster where
  state := .idle
  count := 0
  bitCount := 0
  cycle := false
  data := 0
  op := 0
  cmdReady := false
  dataOut := 0
  dataOutValid := false
  mdioI := true
  mdcO := false
  mdioO := false
  mdioT := true
  busy := false

/-- The combinational block. -/
def next (m : MdioMaster) (i : MdioInput) : MdioMaster :=
  let n := { m with cmdReady := false, dataOutValid := m.dataOutValid && !i.dataOutReady }
  if 0 < m.count then { n with count := m.count - 1 }
  else if m.cycle then { n with cycle := false, mdcO := true, count := i.prescale.toNat }
  else
    match m.state with
    | .idle =>
      if m.cmdReady && i.cmdValid then
        { n with
          mdcO := false, data := i.cmd.word, op := i.cmd.opcode, mdioT := false, mdioO := true, bitCount := 32,
          cycle := true, count := i.prescale.toNat, state := .preamble }
      else { n with mdcO := false, cmdReady := !m.dataOutValid }
    | .preamble =>
      let n := { n with mdcO := false, cycle := true, count := i.prescale.toNat }
      if 1 < m.bitCount then { n with bitCount := m.bitCount - 1 }
      else
        { n with
          bitCount := 32, mdioO := m.data.getMsbD 0, data := m.data.shiftConcat m.mdioI, state := .transfer }
    | .transfer =>
      let n := { n with
        mdcO := false, cycle := true, count := i.prescale.toNat
        mdioT := if MdioCommand.isRead m.op && m.bitCount = 19 then true else m.mdioT }
      if 1 < m.bitCount then
        { n with bitCount := m.bitCount - 1, mdioO := m.data.getMsbD 0, data := m.data.shiftConcat m.mdioI }
      else
        { n with
          dataOut := if MdioCommand.isRead m.op then m.data.setWidth 16 else m.dataOut
          dataOutValid := n.dataOutValid || MdioCommand.isRead m.op, mdioT := true, state := .idle }

/-- One clock edge. -/
def step (m : MdioMaster) (i : MdioInput) : MdioMaster :=
  { m.next i with
    mdioI := i.mdioI
    busy := (m.next i).state != .idle || m.count != 0 || m.cycle || m.mdcO }

/-- The line, if it is driven. -/
def line (m : MdioMaster) : Option Bool := if m.mdioT then none else some m.mdioO

/-- A command is handed over. -/
def accepts (m : MdioMaster) (i : MdioInput) : Bool := m.cmdReady && i.cmdValid

/-- What was read and not handed over. -/
def pending (m : MdioMaster) : List (BitVec 16) := if m.dataOutValid then [m.dataOut] else []

end MdioMaster

/-- A command with what the line carried at the rising edges of `mdc` since it was accepted, and what was read from it at the
falling ones. -/
structure MdioFrame where
  cmd : MdioCommand
  driven : List (Option Bool)
  heard : List Bool

namespace MdioFrame

/-- What the PHY has answered to a read: the 16 bits before the last one of the frame. -/
def answer (f : MdioFrame) : BitVec 16 := ((f.heard.drop 47).take 16).foldl BitVec.shiftConcat 0

/-- The answer, once the frame of a read is over. -/
def answered (f : MdioFrame) : Option (BitVec 16) :=
  if MdioCommand.isRead f.cmd.opcode ∧ 64 ≤ f.heard.length then some f.answer else none

/-- The whole frame was sent. -/
structure Complete (f : MdioFrame) : Prop where
  driven : f.driven = f.cmd.edges
  heard : f.heard.length = 65

end MdioFrame

/-- The master with the commands it accepted, the last of them apart, and the words it handed over. -/
structure MdioRun where
  master : MdioMaster
  past : List MdioFrame
  last : Option MdioFrame
  taken : List (BitVec 16)

namespace MdioRun

/-- After reset. -/
def start : MdioRun := ⟨.reset, [], none, []⟩

/-- All commands. -/
def frames (s : MdioRun) : List MdioFrame := s.past ++ s.last.toList

/-- What a cycle adds to the frame. -/
def observe (m m' : MdioMaster) (f : MdioFrame) : MdioFrame where
  cmd := f.cmd
  driven := f.driven ++ if !m.mdcO && m'.mdcO then [m.line] else []
  heard := f.heard ++ if m.mdcO && !m'.mdcO then [m.mdioI] else []

/-- One cycle. -/
def step (s : MdioRun) (i : MdioInput) : MdioRun where
  master := s.master.step i
  past := if s.master.accepts i then s.past ++ s.last.toList else s.past
  last := if s.master.accepts i then some ⟨i.cmd, [], []⟩ else s.last.map (observe s.master (s.master.step i))
  taken := s.taken ++ if s.master.dataOutValid && i.dataOutReady then [s.master.dataOut] else []

/-- The master under any inputs. -/
def machine : Clocked.Machine MdioRun MdioInput := ⟨step, fun _ _ => True⟩

end MdioRun

namespace MdioMaster

variable {m : MdioMaster} {i : MdioInput} {f : MdioFrame} {n : ℕ}

/-- The `n`-th bit of the frame is on the line; the clock is low before its rising edge, and high until its falling edge. -/
structure Serving (m : MdioMaster) (f : MdioFrame) (n : ℕ) : Prop where
  lt : n < 65
  heard : f.heard.length = n
  driven : f.driven = (List.range (if m.cycle then n else n + 1)).map f.cmd.wire
  mdcO : m.mdcO = !m.cycle
  state : m.state = if n < 32 then .preamble else if n < 64 then .transfer else .idle
  bitCount : n < 64 → m.bitCount = (if n < 32 then 32 else 64) - n
  op : m.op = f.cmd.opcode
  mdioT : m.mdioT = (f.cmd.wire n).isNone
  mdioO : m.mdioT = false → f.cmd.wire n = some m.mdioO
  data : n < 64 → m.data = (f.heard.drop 31).foldl BitVec.shiftConcat f.cmd.word
  notReady : m.cmdReady = false
  noData : n < 64 → m.dataOutValid = false

/-- There is no command under way. -/
structure Resting (m : MdioMaster) : Prop where
  state : m.state = .idle
  count : m.count = 0
  cycle : m.cycle = false
  mdcO : m.mdcO = false
  ready : m.cmdReady = true → m.dataOutValid = false

/-- The line. -/
theorem Serving.line (h : m.Serving f n) : m.line = f.cmd.wire n := by
  rw [MdioMaster.line]
  cases hdriven : m.mdioT with
  | false => exact (h.mdioO hdriven).symm
  | true =>
    have hnone := h.mdioT
    rw [hdriven] at hnone
    exact (Option.isNone_iff_eq_none.mp hnone.symm).symm

/-- Between the edges. -/
theorem next_wait (hcount : 0 < m.count) : m.next i =
    { m with cmdReady := false, dataOutValid := m.dataOutValid && !i.dataOutReady, count := m.count - 1 } := by
  rw [next, if_pos hcount]

/-- At a rising edge. -/
theorem next_rise (hcount : m.count = 0) (hcycle : m.cycle = true) : m.next i =
    { m with
      cmdReady := false, dataOutValid := m.dataOutValid && !i.dataOutReady, cycle := false, mdcO := true
      count := i.prescale.toNat } := by
  rw [next, if_neg (by omega), if_pos hcycle]

/-- At a falling edge, or without one. -/
theorem next_idle (hcount : m.count = 0) (hcycle : m.cycle = false) (hstate : m.state = .idle)
    (hnot : m.accepts i = false) : m.next i =
    { m with dataOutValid := m.dataOutValid && !i.dataOutReady, mdcO := false, cmdReady := !m.dataOutValid } := by
  rw [accepts] at hnot
  rw [next, if_neg (by omega), if_neg (by rw [hcycle]; decide), hstate]
  simp [hnot]

/-- A command is accepted. -/
theorem next_accept (hcount : m.count = 0) (hcycle : m.cycle = false) (hstate : m.state = .idle) (haccepts : m.accepts i = true) :
    m.next i = { m with
      cmdReady := false, dataOutValid := m.dataOutValid && !i.dataOutReady, mdcO := false, data := i.cmd.word
      op := i.cmd.opcode, mdioT := false, mdioO := true, bitCount := 32, cycle := true, count := i.prescale.toNat
      state := .preamble } := by
  rw [accepts] at haccepts
  rw [next, if_neg (by omega), if_neg (by rw [hcycle]; decide), hstate]
  simp [haccepts]

/-- In the preamble. -/
theorem next_preamble (hcount : m.count = 0) (hcycle : m.cycle = false) (hstate : m.state = .preamble) (hbits : 1 < m.bitCount) :
    m.next i = { m with
      cmdReady := false, dataOutValid := m.dataOutValid && !i.dataOutReady, mdcO := false, cycle := true
      count := i.prescale.toNat, bitCount := m.bitCount - 1 } := by
  rw [next, if_neg (by omega), if_neg (by rw [hcycle]; decide), hstate]
  simp [hbits]

/-- After it. -/
theorem next_first (hcount : m.count = 0) (hcycle : m.cycle = false) (hstate : m.state = .preamble)
    (hbits : ¬ 1 < m.bitCount) : m.next i = { m with
      cmdReady := false, dataOutValid := m.dataOutValid && !i.dataOutReady, mdcO := false, cycle := true
      count := i.prescale.toNat, bitCount := 32, mdioO := m.data.getMsbD 0, data := m.data.shiftConcat m.mdioI
      state := .transfer } := by
  rw [next, if_neg (by omega), if_neg (by rw [hcycle]; decide), hstate]
  simp [hbits]

/-- In the frame. -/
theorem next_transfer (hcount : m.count = 0) (hcycle : m.cycle = false) (hstate : m.state = .transfer) (hbits : 1 < m.bitCount) :
    m.next i = { m with
      cmdReady := false, dataOutValid := m.dataOutValid && !i.dataOutReady, mdcO := false, cycle := true
      count := i.prescale.toNat
      mdioT := if MdioCommand.isRead m.op && m.bitCount = 19 then true else m.mdioT
      bitCount := m.bitCount - 1, mdioO := m.data.getMsbD 0, data := m.data.shiftConcat m.mdioI } := by
  rw [next, if_neg (by omega), if_neg (by rw [hcycle]; decide), hstate]
  simp [hbits]

/-- After it. -/
theorem next_last (hcount : m.count = 0) (hcycle : m.cycle = false) (hstate : m.state = .transfer) (hbits : ¬ 1 < m.bitCount) :
    m.next i = { m with
      cmdReady := false, mdcO := false, cycle := true, count := i.prescale.toNat
      dataOut := if MdioCommand.isRead m.op then m.data.setWidth 16 else m.dataOut
      dataOutValid := m.dataOutValid && !i.dataOutReady || MdioCommand.isRead m.op, mdioT := true, state := .idle } := by
  rw [next, if_neg (by omega), if_neg (by rw [hcycle]; decide), hstate]
  simp [hbits]

/-- At a falling edge before the last one. -/
theorem next_fall (hcount : m.count = 0) (hcycle : m.cycle = false) (hstate : m.state ≠ .idle) :
    (m.next i).mdcO = false ∧ (m.next i).cycle = true ∧ (m.next i).count = i.prescale.toNat := by
  rw [next, if_neg (by omega), if_neg (by rw [hcycle]; decide)]
  cases h : m.state with
  | idle => exact absurd h hstate
  | preamble | transfer => dsimp only; split <;> exact ⟨rfl, rfl, rfl⟩

/-- Between the edges nothing is seen. -/
theorem Serving.wait (h : m.Serving f n) (hcount : 0 < m.count) : (m.step i).Serving f n := by
  rw [step, next_wait hcount]
  exact { h with notReady := rfl, noData := fun hn => by simp [h.noData hn] }

/-- At a rising edge the line is seen. -/
theorem Serving.rise (h : m.Serving f n) (hcount : m.count = 0) (hcycle : m.cycle = true) :
    (m.step i).Serving { f with driven := f.driven ++ [m.line] } n := by
  have hdriven := h.driven
  rw [if_pos hcycle] at hdriven
  rw [step, next_rise hcount hcycle]
  refine { h with driven := ?_, mdcO := rfl, notReady := rfl, noData := fun hn => by simp [h.noData hn] }
  dsimp only
  rw [if_neg Bool.false_ne_true, hdriven, h.line, List.range_succ, List.map_append]
  rfl

/-- The shift register takes what is heard. -/
theorem Serving.shiftConcat (h : m.Serving f n) (hn : 31 ≤ n) (hlast : n < 64) :
    m.data.shiftConcat m.mdioI = ((f.heard ++ [m.mdioI]).drop 31).foldl BitVec.shiftConcat f.cmd.word := by
  rw [List.drop_append_of_le_length (by rw [h.heard]; exact hn), List.foldl_append, ← h.data hlast]
  rfl

/-- It gives out the bits of the word. -/
theorem Serving.getMsbD_data (h : m.Serving f n) (hn : 31 ≤ n) (hlast : n < 63) : m.data.getMsbD 0 = f.cmd.word.getMsbD (n - 31) := by
  have hlength : (f.heard.drop 31).length = n - 31 := by rw [List.length_drop, h.heard]
  rw [h.data (by omega), ShiftRegister.getMsbD_foldl (by rw [hlength]; omega), hlength]

/-- At a falling edge of the preamble. -/
theorem Serving.fall_preamble (h : m.Serving f n) (hcount : m.count = 0) (hcycle : m.cycle = false) (hn : n + 1 < 32) :
    (m.step i).Serving { f with heard := f.heard ++ [m.mdioI] } (n + 1) := by
  have hbits := h.bitCount (by omega)
  have hdriven := h.driven
  have hmdioT := h.mdioT
  have hmdioO := h.mdioO
  have hdata := h.data (by omega)
  have hstate := h.state
  rw [if_pos (by omega)] at hbits hstate
  rw [if_neg (by rw [hcycle]; decide)] at hdriven
  rw [f.cmd.wire_preamble (by omega)] at hmdioT hmdioO
  rw [List.drop_eq_nil_of_le (by rw [h.heard]; omega)] at hdata
  rw [step, next_preamble hcount hcycle hstate (by omega)]
  refine ⟨by omega, by simp [h.heard], hdriven, rfl, ?_, fun _ => ?_, h.op, ?_, ?_, fun _ => ?_, rfl, fun _ => ?_⟩
  · rw [if_pos hn]
    exact hstate
  · rw [if_pos hn]
    dsimp only
    omega
  · rw [f.cmd.wire_preamble hn]
    exact hmdioT
  · rw [f.cmd.wire_preamble hn]
    exact hmdioO
  · rw [List.drop_eq_nil_of_le (by simp [h.heard]; omega)]
    exact hdata
  · simp [h.noData (by omega)]

/-- At the last one of it. -/
theorem Serving.fall_first (h : m.Serving f n) (hcount : m.count = 0) (hcycle : m.cycle = false) (hn : n = 31) :
    (m.step i).Serving { f with heard := f.heard ++ [m.mdioI] } (n + 1) := by
  have hbits := h.bitCount (by omega)
  have hdriven := h.driven
  have hstate := h.state
  have hshift := h.shiftConcat (by omega) (by omega)
  have hmsb := h.getMsbD_data (by omega) (by omega)
  have hmdioT := h.mdioT
  subst hn
  rw [if_pos (by decide)] at hbits hstate
  rw [if_neg (by rw [hcycle]; decide)] at hdriven
  rw [f.cmd.wire_preamble (by decide)] at hmdioT
  have hwire : f.cmd.wire 32 = some (m.data.getMsbD 0) := by
    rw [hmsb]
    exact MdioCommand.wire_frame (by decide) (by decide) (by omega)
  rw [step, next_first hcount hcycle hstate (by omega)]
  refine ⟨by decide, by simp [h.heard], hdriven, rfl, rfl, fun _ => rfl, h.op, ?_, fun _ => hwire, fun _ => hshift, rfl,
    fun _ => ?_⟩
  · rw [hwire]
    exact hmdioT
  · simp [h.noData (by decide)]

/-- At a falling edge of the frame. -/
theorem Serving.fall_transfer (h : m.Serving f n) (hcount : m.count = 0) (hcycle : m.cycle = false) (hn : 32 ≤ n)
    (hlast : n < 63) : (m.step i).Serving { f with heard := f.heard ++ [m.mdioI] } (n + 1) := by
  have hbits := h.bitCount (by omega)
  have hdriven := h.driven
  have hstate := h.state
  have hshift := h.shiftConcat (by omega) (by omega)
  have hmsb := h.getMsbD_data (by omega) hlast
  have hmdioT := h.mdioT
  rw [if_neg (by omega)] at hbits hstate
  rw [if_pos (by omega)] at hstate
  rw [if_neg (by rw [hcycle]; decide)] at hdriven
  rw [MdioCommand.isNone_wire _ hn (by omega)] at hmdioT
  -- the line is left to the PHY with the 46th bit
  have htristate : (if MdioCommand.isRead m.op && m.bitCount = 19 then true else m.mdioT) = (f.cmd.wire (n + 1)).isNone := by
    rw [MdioCommand.isNone_wire _ (by omega) (by omega), hmdioT, h.op]
    cases MdioCommand.isRead f.cmd.opcode with
    | false => rfl
    | true =>
      simp only [Bool.true_and, decide_eq_true_eq]
      split <;> simp only [Bool.true_eq, decide_eq_true_eq, decide_eq_decide] <;> omega
  rw [step, next_transfer hcount hcycle hstate (by omega)]
  refine ⟨by omega, by simp [h.heard], hdriven, rfl, ?_, fun _ => ?_, h.op, htristate, fun hline => ?_, fun _ => hshift, rfl,
    fun _ => ?_⟩
  · dsimp only
    rw [if_neg (by omega), if_pos (by omega)]
    exact hstate
  · dsimp only
    rw [if_neg (by omega)]
    omega
  · dsimp only at hline ⊢
    rw [htristate, MdioCommand.isNone_wire _ (by omega) (by omega)] at hline
    rw [hmsb]
    refine MdioCommand.wire_frame (by omega) (by omega) fun hread => ?_
    rw [hread.1, decide_eq_true hread.2] at hline
    exact Bool.noConfusion hline
  · simp [h.noData (by omega)]

/-- At the last one of it, what was read is given out. -/
theorem Serving.fall_last (h : m.Serving f n) (hcount : m.count = 0) (hcycle : m.cycle = false) (hn : n = 63) :
    (m.step i).Serving { f with heard := f.heard ++ [m.mdioI] } (n + 1) ∧
      (m.step i).pending = ({ f with heard := f.heard ++ [m.mdioI] } : MdioFrame).answered.toList := by
  have hbits := h.bitCount (by omega)
  have hdriven := h.driven
  have hstate := h.state
  have hdata := h.data (by omega)
  have hnoData := h.noData (by omega)
  subst hn
  rw [if_neg (by decide)] at hbits hstate
  rw [if_pos (by decide)] at hstate
  rw [if_neg (by rw [hcycle]; decide)] at hdriven
  rw [step, next_last hcount hcycle hstate (by omega)]
  refine ⟨⟨by decide, by simp [h.heard], hdriven, rfl, rfl, fun hlt => absurd hlt (by decide), h.op, ?_, ?_,
    fun hlt => absurd hlt (by decide), rfl, fun hlt => absurd hlt (by decide)⟩, ?_⟩
  · rw [f.cmd.wire_last (by decide)]
    rfl
  · exact fun hline => Bool.noConfusion hline
  · have hlength : (f.heard.drop 31).length = 32 := by rw [List.length_drop, h.heard]
    have hword : m.data.setWidth 16 = ({ f with heard := f.heard ++ [m.mdioI] } : MdioFrame).answer := by
      rw [MdioFrame.answer, hdata, ShiftRegister.setWidth_foldl (by decide) (by omega), hlength, List.drop_drop]
      dsimp only
      rw [List.drop_append_of_le_length (by rw [h.heard]; decide), List.take_append_of_le_length (by simp [h.heard]),
        List.take_of_length_le (by simp [h.heard])]
    have hlong : 64 ≤ (f.heard ++ [m.mdioI]).length := by simp [h.heard]
    rw [pending, MdioFrame.answered, hnoData, h.op]
    dsimp only
    cases hread : MdioCommand.isRead f.cmd.opcode with
    | false => rfl
    | true =>
      rw [if_pos (And.intro rfl hlong), ← hword]
      rfl

/-- The falling edge after the last clock. -/
theorem Serving.rest (h : m.Serving f n) (hcount : m.count = 0) (hcycle : m.cycle = false) (hn : n = 64) :
    (m.step i).Resting ∧ MdioFrame.Complete { f with heard := f.heard ++ [m.mdioI] } := by
  subst hn
  have hstate : m.state = .idle := h.state
  have hnot : m.accepts i = false := by rw [accepts, h.notReady]; rfl
  have hdriven := h.driven
  rw [if_neg (by rw [hcycle]; decide)] at hdriven
  rw [step, next_idle hcount hcycle hstate hnot]
  refine ⟨⟨hstate, hcount, hcycle, rfl, fun hready => ?_⟩, hdriven, by simp [h.heard]⟩
  simp only [Bool.not_eq_true'] at hready
  simp [hready]

/-- What is given out in a cycle that reads nothing. -/
structure KeepsData (m m' : MdioMaster) (i : MdioInput) : Prop where
  dataOut : m'.dataOut = m.dataOut
  dataOutValid : m'.dataOutValid = (m.dataOutValid && !i.dataOutReady)

/-- It is handed over once. -/
theorem KeepsData.pending {m' : MdioMaster} (h : KeepsData m m' i) :
    (if m.dataOutValid && i.dataOutReady then [m.dataOut] else []) ++ m'.pending = m.pending := by
  rw [MdioMaster.pending, MdioMaster.pending, h.dataOut, h.dataOutValid]
  cases m.dataOutValid <;> cases i.dataOutReady <;> rfl

/-- At a falling edge before the end of the frame. -/
theorem Serving.fall (h : m.Serving f n) (hcount : m.count = 0) (hcycle : m.cycle = false) (hn : n < 63) :
    (m.step i).Serving { f with heard := f.heard ++ [m.mdioI] } (n + 1) ∧ KeepsData m (m.step i) i := by
  have hbits := h.bitCount (by omega)
  have hstate := h.state
  by_cases hpreamble : n < 32
  · rw [if_pos hpreamble] at hbits hstate
    by_cases hlast : n + 1 < 32
    · refine ⟨h.fall_preamble hcount hcycle hlast, ?_⟩
      rw [step, next_preamble hcount hcycle hstate (by omega)]
      exact ⟨rfl, rfl⟩
    · refine ⟨h.fall_first hcount hcycle (by omega), ?_⟩
      rw [step, next_first hcount hcycle hstate (by omega)]
      exact ⟨rfl, rfl⟩
  · rw [if_neg hpreamble] at hbits hstate
    rw [if_pos (by omega)] at hstate
    refine ⟨h.fall_transfer hcount hcycle (by omega) hn, ?_⟩
    rw [step, next_transfer hcount hcycle hstate (by omega)]
    exact ⟨rfl, rfl⟩

/-- A command is accepted where there is none under way. -/
theorem Resting.accept (h : m.Resting) (haccepts : m.accepts i = true) : (m.step i).Serving ⟨i.cmd, [], []⟩ 0 := by
  have hready : m.cmdReady = true := (Bool.and_eq_true_iff.mp haccepts).1
  rw [step, next_accept h.count h.cycle h.state haccepts]
  exact ⟨by decide, rfl, rfl, rfl, rfl, fun _ => rfl, rfl, rfl, fun _ => rfl, fun _ => rfl, rfl, fun _ => by simp [h.ready hready]⟩

/-- Otherwise it stays so. -/
theorem Resting.stay (h : m.Resting) (hnot : m.accepts i = false) : (m.step i).Resting := by
  rw [step, next_idle h.count h.cycle h.state hnot]
  refine ⟨h.state, h.count, h.cycle, rfl, fun hready => ?_⟩
  simp only [Bool.not_eq_true'] at hready
  simp [hready]

end MdioMaster

namespace MdioRun

open MdioMaster

variable {m m' : MdioMaster} {s : MdioRun} {i : MdioInput} {f : MdioFrame} {n p : ℕ}

/-- No edge. -/
theorem observe_of_eq (h : m'.mdcO = m.mdcO) : observe m m' f = f := by
  rw [observe, h, Bool.not_and_self, Bool.and_not_self]
  simp

/-- A rising edge. -/
theorem observe_rise (h : m.mdcO = false) (h' : m'.mdcO = true) : observe m m' f = { f with driven := f.driven ++ [m.line] } := by
  rw [observe, h, h']
  simp

/-- A falling edge. -/
theorem observe_fall (h : m.mdcO = true) (h' : m'.mdcO = false) :
    observe m m' f = { f with heard := f.heard ++ [m.mdioI] } := by
  rw [observe, h, h']
  simp

/-- A frame that goes on has no answer yet. -/
theorem answered_of_lt (h : f.heard.length < 64) : f.answered = none := if_neg fun hread => by omega

/-- What is heard after the frame is not part of the answer. -/
theorem answered_append (b : Bool) (h : 64 ≤ f.heard.length) : ({ f with heard := f.heard ++ [b] } : MdioFrame).answered = f.answered := by
  have hanswer : ({ f with heard := f.heard ++ [b] } : MdioFrame).answer = f.answer := by
    rw [MdioFrame.answer, MdioFrame.answer]
    dsimp only
    rw [List.drop_append_of_le_length (by omega), List.take_append_of_le_length (by rw [List.length_drop]; omega)]
  rw [MdioFrame.answered, MdioFrame.answered, hanswer]
  simp only [List.length_append]
  simp [h, Nat.le_add_right_of_le h]

/-- The commands before the last one are served, and every read gave its answer once, in the order of the commands. -/
structure Inv (s : MdioRun) : Prop where
  past : ∀ f ∈ s.past, f.Complete
  phase : (∃ f n, s.last = some f ∧ s.master.Serving f n) ∨ s.master.Resting ∧ ∀ f, s.last = some f → f.Complete
  answers : s.frames.filterMap MdioFrame.answered = s.taken ++ s.master.pending

theorem inv_start : start.Inv where
  past := fun _ hf => absurd hf List.not_mem_nil
  phase := Or.inr ⟨⟨rfl, rfl, rfl, rfl, fun _ => rfl⟩, fun _ hf => absurd hf.symm (Option.some_ne_none _)⟩
  answers := rfl

/-- A cycle that accepts nothing. -/
theorem step_eq (hnot : s.master.accepts i = false) : s.step i =
    ⟨s.master.step i, s.past, s.last.map (observe s.master (s.master.step i)),
      s.taken ++ if s.master.dataOutValid && i.dataOutReady then [s.master.dataOut] else []⟩ := by
  rw [step, hnot]
  simp

/-- What is accepted comes behind the other commands. -/
theorem cmds_step (s : MdioRun) (i : MdioInput) : (s.step i).frames.map MdioFrame.cmd =
    s.frames.map MdioFrame.cmd ++ if s.master.accepts i then [i.cmd] else [] := by
  cases haccepts : s.master.accepts i with
  | true =>
    rw [step, haccepts, frames, frames, List.map_append]
    rfl
  | false =>
    have hsame : (s.last.map (observe s.master (s.master.step i))).toList.map MdioFrame.cmd = s.last.toList.map MdioFrame.cmd := by
      cases s.last <;> rfl
    rw [step_eq haccepts, frames, frames, List.map_append, hsame, List.map_append]
    exact (List.append_nil _).symm

/-- While a command is served none is accepted. -/
theorem accepts_of_serving (h : m.Serving f n) : m.accepts i = false := by
  rw [accepts, h.notReady]
  rfl

/-- A cycle that reads nothing keeps the answers. -/
theorem answers_of_keeps {f' : MdioFrame} (hs : s.Inv) (hlast : s.last = some f) (hnot : s.master.accepts i = false)
    (hobserve : observe s.master (s.master.step i) f = f') (hanswered : f'.answered = f.answered)
    (hdata : KeepsData s.master (s.master.step i) i) :
    (s.step i).frames.filterMap MdioFrame.answered = (s.step i).taken ++ (s.step i).master.pending := by
  have hanswers := hs.answers
  rw [frames, hlast] at hanswers
  rw [step_eq hnot, frames, hlast, Option.map_some, hobserve, List.append_assoc, hdata.pending, ← hanswers]
  simp only [Option.toList_some, List.filterMap_append, List.filterMap_cons, hanswered]

/-- The edges of `mdc` before the last command is served. -/
def edgesLeft (s : MdioRun) : ℕ :=
  match s.last with
  | none => 0
  | some f => 2 * (65 - f.heard.length) - if s.master.cycle then 0 else 1

/-- A cycle brings the next edge nearer. -/
structure Hastens (s : MdioRun) (i : MdioInput) : Prop where
  waiting : 0 < s.master.count → (s.step i).master.count + 1 = s.master.count ∧ (s.step i).edgesLeft = s.edgesLeft
  edge : s.master.count = 0 → (s.step i).master.count ≤ i.prescale.toNat ∧ (s.step i).edgesLeft + 1 = s.edgesLeft

/-- The edges after a cycle. -/
theorem edgesLeft_step {f' : MdioFrame} (hlast : s.last = some f) (hnot : s.master.accepts i = false)
    (hobserve : observe s.master (s.master.step i) f = f') :
    (s.step i).edgesLeft = 2 * (65 - f'.heard.length) - if (s.master.step i).cycle then 0 else 1 := by
  rw [edgesLeft, step_eq hnot, hlast, Option.map_some, hobserve]

/-- One cycle of a command that goes on. -/
theorem inv_serving {f' : MdioFrame} {n' : ℕ} (hs : s.Inv) (hlast : s.last = some f) (hnot : s.master.accepts i = false)
    (hobserve : observe s.master (s.master.step i) f = f') (hserving : (s.master.step i).Serving f' n')
    (hanswers : (s.step i).frames.filterMap MdioFrame.answered = (s.step i).taken ++ (s.step i).master.pending) :
    (s.step i).Inv := by
  refine ⟨?_, Or.inl ⟨f', n', ?_, hserving⟩, hanswers⟩
  · rw [step_eq hnot]
    exact hs.past
  · rw [step_eq hnot, hlast, Option.map_some, hobserve]

/-- Between the edges. -/
theorem step_wait (hs : s.Inv) (hlast : s.last = some f) (h : s.master.Serving f n) (hcount : 0 < s.master.count) :
    (s.step i).Inv ∧ s.Hastens i := by
  have hnot : s.master.accepts i = false := accepts_of_serving h
  have hobserve : observe s.master (s.master.step i) f = f := observe_of_eq (by rw [MdioMaster.step, next_wait hcount])
  have hdata : KeepsData s.master (s.master.step i) i := by
    rw [MdioMaster.step, next_wait hcount]
    exact ⟨rfl, rfl⟩
  refine ⟨inv_serving hs hlast hnot hobserve (h.wait hcount) (answers_of_keeps hs hlast hnot hobserve rfl hdata), fun _ => ?_,
    fun hzero => absurd hcount (by omega)⟩
  rw [edgesLeft_step hlast hnot hobserve, edgesLeft, hlast, step_eq hnot, MdioMaster.step, next_wait hcount]
  exact ⟨Nat.sub_add_cancel hcount, rfl⟩

/-- At a rising edge. -/
theorem step_rise (hs : s.Inv) (hlast : s.last = some f) (h : s.master.Serving f n) (hcount : s.master.count = 0)
    (hcycle : s.master.cycle = true) : (s.step i).Inv ∧ s.Hastens i := by
  have hnot : s.master.accepts i = false := accepts_of_serving h
  have hmdcO := h.mdcO
  rw [hcycle] at hmdcO
  have hobserve : observe s.master (s.master.step i) f = { f with driven := f.driven ++ [s.master.line] } :=
    observe_rise hmdcO (by rw [MdioMaster.step, next_rise hcount hcycle])
  have hdata : KeepsData s.master (s.master.step i) i := by
    rw [MdioMaster.step, next_rise hcount hcycle]
    exact ⟨rfl, rfl⟩
  refine ⟨inv_serving hs hlast hnot hobserve (h.rise hcount hcycle) (answers_of_keeps hs hlast hnot hobserve rfl hdata),
    fun hpos => absurd hcount (by omega), fun _ => ?_⟩
  have hlt := h.lt
  rw [edgesLeft_step hlast hnot hobserve, edgesLeft, hlast, step_eq hnot, MdioMaster.step, next_rise hcount hcycle]
  dsimp only
  rw [hcycle, if_pos rfl, if_neg Bool.false_ne_true, h.heard]
  exact ⟨Nat.le_refl _, by omega⟩

/-- At a falling edge the shift register takes a bit, and the last one gives out the answer. -/
theorem step_fall (hs : s.Inv) (hlast : s.last = some f) (h : s.master.Serving f n) (hcount : s.master.count = 0)
    (hcycle : s.master.cycle = false) (hn : n < 64) : (s.step i).Inv ∧ s.Hastens i := by
  have hnot : s.master.accepts i = false := accepts_of_serving h
  have hmdcO := h.mdcO
  rw [hcycle] at hmdcO
  have hstate : s.master.state ≠ .idle := by
    rw [h.state]
    by_cases hpreamble : n < 32
    · rw [if_pos hpreamble]
      decide
    · rw [if_neg hpreamble, if_pos hn]
      decide
  obtain ⟨hlow, hnext, hprescale⟩ := next_fall (i := i) hcount hcycle hstate
  change (s.master.step i).cycle = true at hnext
  change (s.master.step i).count = i.prescale.toNat at hprescale
  have hobserve : observe s.master (s.master.step i) f = { f with heard := f.heard ++ [s.master.mdioI] } :=
    observe_fall hmdcO hlow
  refine ⟨?_, fun hpos => absurd hcount (by omega), fun _ => ?_⟩
  · by_cases hend : n = 63
    · obtain ⟨hserving, hpending⟩ := h.fall_last (i := i) hcount hcycle hend
      have hanswers := hs.answers
      have hnone : f.answered = none := answered_of_lt (by rw [h.heard]; exact hn)
      have hpending' : s.master.pending = [] := by rw [MdioMaster.pending, h.noData hn]; rfl
      refine inv_serving hs hlast hnot hobserve hserving ?_
      rw [frames, hlast, hpending', List.append_nil] at hanswers
      simp only [Option.toList_some, List.filterMap_append, List.filterMap_cons, List.filterMap_nil, hnone,
        List.append_nil] at hanswers
      rw [step_eq hnot, frames, hlast, Option.map_some, hobserve, hpending, h.noData hn, ← hanswers]
      simp only [Option.toList_some, List.filterMap_append, Bool.false_and, Bool.false_eq_true, if_false, List.append_nil]
      rw [List.filterMap_cons]
      cases ({ f with heard := f.heard ++ [s.master.mdioI] } : MdioFrame).answered <;> rfl
    · obtain ⟨hserving, hdata⟩ := h.fall (i := i) hcount hcycle (by omega)
      have hnone : f.answered = none := answered_of_lt (by rw [h.heard]; exact hn)
      have hnone' : ({ f with heard := f.heard ++ [s.master.mdioI] } : MdioFrame).answered = none :=
        answered_of_lt (by simp [h.heard]; omega)
      exact inv_serving hs hlast hnot hobserve hserving
        (answers_of_keeps hs hlast hnot hobserve (hnone'.trans hnone.symm) hdata)
  · rw [edgesLeft_step hlast hnot hobserve, edgesLeft, hlast, step_eq hnot]
    dsimp only
    rw [hnext, hprescale, hcycle, if_pos rfl, if_neg Bool.false_ne_true, List.length_append, List.length_singleton, h.heard]
    exact ⟨Nat.le_refl _, by omega⟩

/-- At the last falling edge the command is served. -/
theorem step_rest (hs : s.Inv) (hlast : s.last = some f) (h : s.master.Serving f n) (hcount : s.master.count = 0)
    (hcycle : s.master.cycle = false) (hn : n = 64) : (s.step i).Inv ∧ s.Hastens i := by
  have hnot : s.master.accepts i = false := accepts_of_serving h
  have hmdcO := h.mdcO
  rw [hcycle] at hmdcO
  have hstate : s.master.state = .idle := by
    rw [h.state, if_neg (by omega), if_neg (by omega)]
  obtain ⟨hresting, hcomplete⟩ := h.rest (i := i) hcount hcycle hn
  have hobserve : observe s.master (s.master.step i) f = { f with heard := f.heard ++ [s.master.mdioI] } :=
    observe_fall hmdcO hresting.mdcO
  have hdata : KeepsData s.master (s.master.step i) i := by
    rw [MdioMaster.step, next_idle hcount hcycle hstate hnot]
    exact ⟨rfl, rfl⟩
  refine ⟨⟨?_, Or.inr ⟨?_, ?_⟩, ?_⟩, fun hpos => absurd hcount (by omega), fun _ => ?_⟩
  · rw [step_eq hnot]
    exact hs.past
  · rw [step_eq hnot]
    exact hresting
  · rw [step_eq hnot, hlast, Option.map_some, hobserve]
    intro f' hf'
    obtain rfl := Option.some.inj hf'
    exact hcomplete
  · exact answers_of_keeps hs hlast hnot hobserve (answered_append _ (by rw [h.heard, hn])) hdata
  · rw [edgesLeft_step hlast hnot hobserve, edgesLeft, hlast, step_eq hnot]
    dsimp only
    rw [hresting.count, hresting.cycle, hcycle, if_neg Bool.false_ne_true, List.length_append, List.length_singleton, h.heard]
    exact ⟨Nat.zero_le _, by omega⟩

/-- A command under way goes on. -/
theorem step_serving (hs : s.Inv) (hlast : s.last = some f) (h : s.master.Serving f n) : (s.step i).Inv ∧ s.Hastens i := by
  by_cases hcount : s.master.count = 0
  · cases hcycle : s.master.cycle with
    | true => exact step_rise hs hlast h hcount hcycle
    | false =>
      have hlt := h.lt
      by_cases hn : n < 64
      · exact step_fall hs hlast h hcount hcycle hn
      · exact step_rest hs hlast h hcount hcycle (by omega)
  · exact step_wait hs hlast h (Nat.pos_of_ne_zero hcount)

/-- Where there is none, one may be accepted. -/
theorem step_resting (hs : s.Inv) (h : s.master.Resting) (hcomplete : ∀ f, s.last = some f → f.Complete) : (s.step i).Inv := by
  have hanswers := hs.answers
  cases haccepts : s.master.accepts i with
  | true =>
    have hdata : KeepsData s.master (s.master.step i) i := by
      rw [MdioMaster.step, next_accept h.count h.cycle h.state haccepts]
      exact ⟨rfl, rfl⟩
    have hstep : s.step i = ⟨s.master.step i, s.past ++ s.last.toList, some ⟨i.cmd, [], []⟩,
        s.taken ++ if s.master.dataOutValid && i.dataOutReady then [s.master.dataOut] else []⟩ := by
      rw [step, haccepts]
      rfl
    rw [hstep]
    refine ⟨fun f hf => ?_, Or.inl ⟨_, 0, rfl, h.accept haccepts⟩, ?_⟩
    · rcases List.mem_append.mp hf with hf | hf
      · exact hs.past f hf
      · exact hcomplete f (Option.mem_toList.mp hf)
    · have hnone : (⟨i.cmd, [], []⟩ : MdioFrame).answered = none := answered_of_lt (Nat.succ_pos 63)
      rw [List.append_assoc, hdata.pending, ← hanswers, frames, frames, Option.toList_some, List.filterMap_append,
        List.filterMap_cons, hnone]
      exact List.append_nil _
  | false =>
    have hdata : KeepsData s.master (s.master.step i) i := by
      rw [MdioMaster.step, next_idle h.count h.cycle h.state haccepts]
      exact ⟨rfl, rfl⟩
    have hlow : (s.master.step i).mdcO = s.master.mdcO := (h.stay haccepts).mdcO.trans h.mdcO.symm
    have hsame : s.last.map (observe s.master (s.master.step i)) = s.last := by
      cases s.last with
      | none => rfl
      | some f => rw [Option.map_some, observe_of_eq hlow]
    rw [step_eq haccepts, hsame]
    refine ⟨hs.past, Or.inr ⟨h.stay haccepts, hcomplete⟩, ?_⟩
    rw [List.append_assoc, hdata.pending, ← hanswers]
    rfl

/-- The invariant holds in every reachable state. -/
theorem inv_of_reachable (h : machine.Reachable start s) : s.Inv := by
  refine Clocked.Machine.invariant (m := machine) inv_start (fun s i hs _ => ?_) h
  rcases hs.phase with ⟨f, n, hlast, hserving⟩ | ⟨hresting, hcomplete⟩
  · exact (step_serving hs hlast hserving).1
  · exact step_resting hs hresting hcomplete

/-- The line carried the frames of the commands, in their order and one at a time, and every read gave the answer of the PHY
once. -/
structure Serialized (s : MdioRun) : Prop where
  past : ∀ f ∈ s.past, f.driven = f.cmd.edges
  last : ∀ f, s.last = some f → f.driven <+: f.cmd.edges ∧ (s.master.cmdReady = true → f.driven = f.cmd.edges)
  answers : s.frames.filterMap MdioFrame.answered = s.taken ++ s.master.pending

/-- In every run. -/
theorem serialized_of_reachable (h : machine.Reachable start s) : s.Serialized := by
  have hs := inv_of_reachable h
  refine ⟨fun f hf => (hs.past f hf).driven, fun f hf => ?_, hs.answers⟩
  rcases hs.phase with ⟨f', n, hlast, hserving⟩ | ⟨-, hcomplete⟩
  · obtain rfl := Option.some.inj (hlast.symm.trans hf)
    have hlt := hserving.lt
    refine ⟨?_, fun hready => absurd (hready.symm.trans hserving.notReady) (by decide)⟩
    rw [hserving.driven, MdioCommand.edges]
    refine List.IsPrefix.map _ ?_
    rw [List.prefix_iff_eq_take, List.length_range, List.take_range, min_eq_left]
    split <;> omega
  · exact ⟨(hcomplete f hf).driven ▸ List.prefix_rfl, fun _ => (hcomplete f hf).driven⟩

/-- A read of a register, with a prescaler of 1. -/
def reading (n : ℕ) : List MdioInput :=
  (List.range n).map fun k => ⟨⟨3, 13, 0, 0b10⟩, decide (k < 3), true, decide (k % 7 < 3), 1⟩

/-- It is served. -/
theorem serialized_reading : (machine.run start (reading 300)).Serialized :=
  serialized_of_reachable ⟨reading 300, machine.legal_of_forall (fun _ _ => trivial) _ _, rfl⟩

/-- The master while its words are taken at once and the prescaler is at most `p`. -/
def prompt (p : ℕ) : Clocked.Machine MdioRun MdioInput :=
  machine.restrict fun _ i => i.dataOutReady = true ∧ i.prescale.toNat ≤ p

/-- Its counter stays small. -/
structure Timed (p : ℕ) (s : MdioRun) : Prop where
  inv : s.Inv
  count : s.master.count ≤ p

/-- A cycle of a command under way. -/
theorem Timed.step_serving (hs : s.Timed p) (hlast : s.last = some f) (h : s.master.Serving f n)
    (hprescale : i.prescale.toNat ≤ p) : (s.step i).Timed p ∧
      (s.step i).master.count + (p + 1) * (s.step i).edgesLeft < s.master.count + (p + 1) * s.edgesLeft := by
  obtain ⟨hinv, hhastens⟩ := MdioRun.step_serving (i := i) hs.inv hlast h
  have hcount := hs.count
  by_cases hzero : s.master.count = 0
  · obtain ⟨hnext, hedges⟩ := hhastens.edge hzero
    rw [← hedges, Nat.mul_succ]
    exact ⟨⟨hinv, by omega⟩, by omega⟩
  · obtain ⟨hnext, hedges⟩ := hhastens.waiting (Nat.pos_of_ne_zero hzero)
    rw [hedges]
    exact ⟨⟨hinv, by omega⟩, by omega⟩

/-- A cycle of the idle master. -/
theorem Timed.step_resting (hs : s.Timed p) (h : s.master.Resting) (hcomplete : ∀ f, s.last = some f → f.Complete)
    (hprescale : i.prescale.toNat ≤ p) : (s.step i).Timed p := by
  refine ⟨MdioRun.step_resting hs.inv h hcomplete, ?_⟩
  show (s.master.next i).count ≤ p
  cases haccepts : s.master.accepts i with
  | true =>
    rw [next_accept h.count h.cycle h.state haccepts]
    exact hprescale
  | false =>
    rw [next_idle h.count h.cycle h.state haccepts]
    exact hs.count

/-- It stays so in every run. -/
theorem timed_of_reachable (h : (prompt p).Reachable start s) : s.Timed p := by
  refine Clocked.Machine.invariant (m := prompt p) ⟨inv_start, Nat.zero_le p⟩ (fun s i hs hi => ?_) h
  obtain ⟨-, -, hprescale⟩ := hi
  rcases hs.inv.phase with ⟨f, n, hlast, hserving⟩ | ⟨hresting, hcomplete⟩
  · exact (hs.step_serving hlast hserving hprescale).1
  · exact hs.step_resting hresting hcomplete hprescale

/-- A command under way has edges to come. -/
theorem edgesLeft_pos (hlast : s.last = some f) (h : s.master.Serving f n) : 0 < s.edgesLeft := by
  have hlt := h.lt
  rw [edgesLeft, hlast]
  dsimp only
  rw [h.heard]
  split <;> omega

/-- There are at most 130. -/
theorem edgesLeft_le (s : MdioRun) : s.edgesLeft ≤ 130 := by
  rw [edgesLeft]
  split
  · exact Nat.zero_le _
  · omega

/-- The command under way is served. -/
theorem rests_within (p : ℕ) : (prompt p).LeadsTo (131 * (p + 1)) (Timed p) fun s => s.Timed p ∧ s.master.Resting := by
  have hmeasure := Clocked.Machine.LeadsTo.of_measure (m := prompt p) (n := 131 * (p + 1)) (P := Timed p)
    (Q := fun s => s.Timed p ∧ s.master.Resting) (fun s => s.master.count + (p + 1) * s.edgesLeft) ?_ ?_
  · refine hmeasure.mono (Nat.le_refl _) (fun s hs => ⟨hs, ?_⟩) fun _ h => h
    have hcount := hs.count
    calc s.master.count + (p + 1) * s.edgesLeft ≤ p + (p + 1) * 130 :=
          Nat.add_le_add hcount (Nat.mul_le_mul_left _ s.edgesLeft_le)
      _ ≤ 131 * (p + 1) := by omega
  · intro s hs hzero
    rcases hs.inv.phase with ⟨f, n, hlast, hserving⟩ | ⟨hresting, -⟩
    · have hpos : 0 < (p + 1) * s.edgesLeft := Nat.mul_pos (Nat.succ_pos p) (edgesLeft_pos hlast hserving)
      omega
    · exact ⟨hs, hresting⟩
  · rintro s i hs hnot ⟨-, -, hprescale⟩
    rcases hs.inv.phase with ⟨f, n, hlast, hserving⟩ | ⟨hresting, -⟩
    · exact hs.step_serving hlast hserving hprescale
    · exact absurd ⟨hs, hresting⟩ hnot

/-- The cycles in which the idle master gives out its last word. -/
def handover (s : MdioRun) : ℕ := if s.master.cmdReady then 0 else if s.master.dataOutValid then 2 else 1

/-- The idle master is ready for a command. -/
theorem ready_of_resting (p : ℕ) : (prompt p).LeadsTo 2 (fun s => s.master.Resting) fun s => s.master.cmdReady = true := by
  have hmeasure := Clocked.Machine.LeadsTo.of_measure (m := prompt p) (n := 2) (P := fun s => s.master.Resting)
    (Q := fun s => s.master.cmdReady = true) handover ?_ ?_
  · refine hmeasure.mono (Nat.le_refl _) (fun s hs => ⟨hs, ?_⟩) fun _ h => h
    rw [handover]
    split
    · exact Nat.zero_le _
    · split <;> decide
  · intro s _ hzero
    rw [handover] at hzero
    split at hzero
    · assumption
    · split at hzero <;> exact absurd hzero (by decide)
  · rintro s i hs hnot ⟨-, htaken, -⟩
    have hready : s.master.cmdReady = false := Bool.eq_false_iff.mpr hnot
    have haccepts : s.master.accepts i = false := by rw [accepts, hready]; rfl
    refine ⟨hs.stay haccepts, ?_⟩
    have hnext : (s.step i).master.cmdReady = !s.master.dataOutValid ∧ (s.step i).master.dataOutValid = false := by
      show (s.master.next i).cmdReady = _ ∧ (s.master.next i).dataOutValid = _
      rw [next_idle hs.count hs.cycle hs.state haccepts, htaken]
      simp
    show handover (s.step i) < handover s
    rw [handover, handover, hnext.1, hnext.2, hready]
    cases s.master.dataOutValid <;> decide

/-- What is under way is served, and the next command may come. -/
theorem ready_of_timed (p : ℕ) :
    (prompt p).LeadsTo (131 * (p + 1) + 2) (Timed p) fun s => s.master.cmdReady = true :=
  ((rests_within p).mono (Nat.le_refl _) (fun _ h => h) fun _ h => h.2).trans (ready_of_resting p)

/-- Whatever is under way, the master is ready for the next command in time. -/
theorem ready_within (p : ℕ) :
    (prompt p).LeadsTo (131 * (p + 1) + 2) ((prompt p).Reachable start) fun s => s.master.cmdReady = true :=
  (ready_of_timed p).mono (Nat.le_refl _) (fun _ => timed_of_reachable) fun _ h => h

instance (p : ℕ) (s : MdioRun) (i : MdioInput) : Decidable ((prompt p).legal s i) :=
  inferInstanceAs (Decidable (True ∧ _ ∧ _))

/-- After a read was given, with a prescaler of 1. -/
theorem ready_reading : (machine.run start (reading 3)).master.cmdReady = false ∧
    ∃ k ≤ 264, ((prompt 1).run (machine.run start (reading 3)) ((reading 264).take k)).master.cmdReady = true :=
  ⟨by decide +kernel, ready_within 1 _ _ ⟨reading 3, by decide +kernel, rfl⟩ (by decide +kernel) (by simp [reading])⟩

end MdioRun

end UdpIpCore
