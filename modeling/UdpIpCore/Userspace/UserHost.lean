import UdpIpCore.Userspace.Udriver

/-!
# User code on its own

A single thread runs to its end between two steps of the device. What the registers show
to its reads is an input, one value after the other; its writes and stores take effect
at once.
-/

namespace UdpIpCore

open Interaction

/-- The registers and the shared memory under a single thread. -/
structure UserHost where
  regs : ConfigRegs
  memory : ℕ → BitVec 8
  /-- The rising edges of `BUFTX_PUSHED`, each of which pushes a TX slot. -/
  pushes : ℕ
  /-- What the device shows to the register reads to come. -/
  shows : ℕ → StatusInputs

namespace UserHost

/-- The memory after a write of some bytes. -/
def writeBytes (memory : ℕ → BitVec 8) (offset : ℕ) (bytes : List (BitVec 8)) (a : ℕ) : BitVec 8 :=
  if offset ≤ a then (bytes[a - offset]?).getD (memory a) else memory a

/-- Once a register was read. -/
def afterRead (h : UserHost) : UserHost := { h with shows := fun k => h.shows (k + 1) }

/-- Once a register was written. -/
def afterWrite (h : UserHost) (reg : RegAddr) (value : BitVec 32) : UserHost :=
  { h with
    regs := h.regs.write reg value
    pushes := h.pushes + (!h.regs.buftxPushed && (h.regs.write reg value).buftxPushed).toNat }

/-- One access. -/
def execute (h : UserHost) : (c : Access) → c.Response × UserHost
  | .readReg reg => (h.regs.read (h.shows 0) reg, h.afterRead)
  | .writeReg reg value => ((), h.afterWrite reg value)
  | .load offset => (h.memory offset, h)
  | .store offset value => ((), { h with memory := writeBytes h.memory offset [value] })

/-- A whole program. -/
def run {α : Type} (h : UserHost) (p : UserCode α) : α × UserHost := p.eval execute h

variable {α β : Type} (h : UserHost)

@[simp] theorem run_pure (a : α) : h.run (pure a) = (a, h) := rfl

@[simp] theorem run_bind (p : UserCode α) (f : α → UserCode β) :
    h.run (p >>= f) = (h.run p).2.run (f (h.run p).1) := Program.eval_bind execute p f h

@[simp] theorem run_readReg (reg : RegAddr) :
    h.run (Udriver.readReg reg) = (h.regs.read (h.shows 0) reg, h.afterRead) := rfl

@[simp] theorem run_writeReg (reg : RegAddr) (value : BitVec 32) :
    h.run (Udriver.writeReg reg value) = ((), h.afterWrite reg value) := rfl

/-- The register reads of a program, with what the device answers. -/
def reads {α : Type} (h : UserHost) : UserCode α → List (RegAddr × BitVec 32)
  | .done _ => []
  | .perform (.readReg reg) next => (reg, h.regs.read (h.shows 0) reg) :: h.afterRead.reads (next (h.regs.read (h.shows 0) reg))
  | .perform (.writeReg reg value) next => (h.afterWrite reg value).reads (next ())
  | .perform (.load offset) next => h.reads (next (h.memory offset))
  | .perform (.store offset value) next => { h with memory := writeBytes h.memory offset [value] : UserHost }.reads (next ())

@[simp] theorem reads_pure (a : α) : h.reads (pure a : UserCode α) = [] := rfl

@[simp] theorem reads_readReg (reg : RegAddr) :
    h.reads (Udriver.readReg reg) = [(reg, h.regs.read (h.shows 0) reg)] := rfl

/-- The reads of a sequence. -/
@[simp] theorem reads_bind (p : UserCode α) (f : α → UserCode β) :
    h.reads (p >>= f) = h.reads p ++ (h.run p).2.reads (f (h.run p).1) := by
  induction p generalizing h with
  | done a => rfl
  | perform c next ih =>
    cases c with
    | readReg reg => exact congrArg (List.cons _) (ih _ h.afterRead)
    | writeReg reg value => exact ih () (h.afterWrite reg value)
    | load offset => exact ih _ h
    | store offset value => exact ih () _

/-- Nothing is written. -/
theorem writeBytes_nil (memory : ℕ → BitVec 8) (offset : ℕ) : writeBytes memory offset [] = memory := by
  funext a
  simp [writeBytes]

/-- The bytes are written one after the other. -/
theorem writeBytes_cons (memory : ℕ → BitVec 8) (offset : ℕ) (b : BitVec 8) (bytes : List (BitVec 8)) :
    writeBytes memory offset (b :: bytes) = writeBytes (writeBytes memory offset [b]) (offset + 1) bytes := by
  funext a
  rcases Nat.lt_trichotomy a offset with hlt | rfl | hgt
  · have hbefore : ¬ offset ≤ a := by omega
    have hbefore' : ¬ offset + 1 ≤ a := by omega
    simp [writeBytes, hbefore, hbefore']
  · have hbefore : ¬ a + 1 ≤ a := by omega
    simp [writeBytes, hbefore]
  · obtain ⟨k, rfl⟩ := Nat.exists_eq_add_of_lt hgt
    have hlow : offset ≤ offset + k + 1 := by omega
    have hlow' : offset + 1 ≤ offset + k + 1 := by omega
    have hindex : offset + k + 1 - offset = k + 1 := by omega
    have hindex' : offset + k + 1 - (offset + 1) = k := by omega
    simp only [writeBytes, hlow, hlow', hindex, hindex', if_true]
    simp

/-- Writing to the shared memory. -/
@[simp] theorem run_xrtBOWrite (offset : ℕ) (bytes : List (BitVec 8)) :
    h.run (Udriver.xrtBOWrite offset bytes) = ((), { h with memory := writeBytes h.memory offset bytes }) := by
  induction bytes generalizing h offset with
  | nil =>
    rw [writeBytes_nil]
    rfl
  | cons b bytes ih =>
    rw [Udriver.xrtBOWrite, run_bind, ih, writeBytes_cons]
    rfl

/-- The memory once a packet was written to the slot at the head. -/
def slotWritten (h : UserHost) (head : BitVec 5) (p : UdpPacket) : ℕ → BitVec 8 :=
  let offset := Udriver.bufTxOffsetBytes + head.toNat * bufferElemMaxSize
  writeBytes (writeBytes h.memory offset p.header) (offset + Udriver.packetHdrSizeBytes) p.payload

/-- The registers once the push bit was written 0, 1 and 0. -/
def pushedRegs (r : ConfigRegs) : ConfigRegs :=
  ((r.write RegAddr.buftxPushed 0).write RegAddr.buftxPushed 1).write RegAddr.buftxPushed 0

/-- Writing 0, 1 and 0 to the push bit pushes once. -/
theorem pushed_three_writes : ((h.afterWrite RegAddr.buftxPushed 0).afterWrite RegAddr.buftxPushed 1).afterWrite
    RegAddr.buftxPushed 0 = { h with regs := pushedRegs h.regs, pushes := h.pushes + 1 } := by
  have hwrite (r : ConfigRegs) (value : BitVec 32) :
      (r.write RegAddr.buftxPushed value).buftxPushed = value.getLsbD 0 := rfl
  simp [afterWrite, pushedRegs, hwrite]

/-- `udriver_send` gives up when the ring shows full; otherwise it writes the slot and pushes it. -/
theorem run_udriverSend (p : UdpPacket) : h.run (Udriver.udriverSend p) =
    if (h.shows 0).buftxFull then (false, h.afterRead)
    else (true, {
      regs := pushedRegs h.regs
      memory := h.slotWritten (h.shows 1).buftxHead p
      pushes := h.pushes + 1
      shows := fun k => h.shows (k + 2) }) := by
  have hfull : h.regs.read (h.shows 0) RegAddr.buftxFull =
      (BitVec.ofBool (h.shows 0).buftxFull).setWidth 32 := rfl
  have hhead : (h.regs.read (h.shows 1) RegAddr.buftxHead).toNat = (h.shows 1).buftxHead.toNat := by
    change ((h.shows 1).buftxHead.setWidth 32).toNat = _
    exact BitVec.toNat_setWidth_of_le (by decide)
  rw [Udriver.udriverSend, run_bind, run_readReg, hfull]
  cases (h.shows 0).buftxFull with
  | true => rfl
  | false =>
    have hroom : ¬ (BitVec.ofBool false).setWidth 32 ≠ 0 := by decide
    simp only [if_neg hroom, run_bind, run_readReg, run_writeReg, run_xrtBOWrite, pushed_three_writes]
    rw [slotWritten, ← hhead]
    rfl

/-- Before its offset a write leaves the memory as it is. -/
theorem writeBytes_of_lt {memory : ℕ → BitVec 8} {offset a : ℕ} {bytes : List (BitVec 8)} (hlt : a < offset) :
    writeBytes memory offset bytes a = memory a := if_neg (by omega)

/-- Behind its bytes a write leaves the memory as it is. -/
theorem writeBytes_of_le {memory : ℕ → BitVec 8} {offset a : ℕ} {bytes : List (BitVec 8)}
    (hle : offset + bytes.length ≤ a) : writeBytes memory offset bytes a = memory a := by
  rw [writeBytes, if_pos (by omega), List.getElem?_eq_none (by omega)]
  rfl

/-- A byte that was written. -/
theorem writeBytes_of_getElem? (memory : ℕ → BitVec 8) (offset : ℕ) {k : ℕ} {bytes : List (BitVec 8)} {b : BitVec 8}
    (hget : bytes[k]? = some b) : writeBytes memory offset bytes (offset + k) = b := by
  rw [writeBytes, if_pos (Nat.le_add_right _ _), Nat.add_sub_cancel_left, hget]
  rfl

end UserHost

end UdpIpCore
