import UdpIpCore.Rtl.Interrupts

/-!
# The register block behind the AXI-lite port

`config_regs_AXI_Manager` as a whole: the two channel machines, the registers with byte
strobes, the kernel control registers and the interrupt registers, under its reset and under
any master. With all strobes set its registers are the configuration registers of the other
modules, and its interrupt part steps as the interrupt registers do.
-/

namespace UdpIpCore

/-- The registers of `config_regs_AXI_Manager`; the bits of `ext_isr0` above the lowest stay 0. -/
structure ConfigRegsManager where
  axi : AxiLite
  regs : ConfigRegs
  intApStart : Bool
  intApDone : Bool
  intApIdle : Bool
  intApReady : Bool
  intAutoRestart : Bool
  /-- `ext_isr0[0]`. -/
  extIsr0 : Bool
  extIsr0Mutex : Bool
  intGie : Bool

/-- The inputs of `config_regs_AXI_Manager` in one cycle. -/
structure ManagerInput where
  master : AxiLiteMaster
  wstrb : BitVec 4
  apDone : Bool
  apReady : Bool
  apIdle : Bool
  /-- The ring signals of `buffer_rx_vector_io`. -/
  bufrx : BufferIdx → RingStatus
  bufrxPushIrq : Bool
  buftxHead : BitVec 5
  buftxTail : BitVec 5
  buftxEmpty : Bool
  buftxFull : Bool
  buftxPopped : Bool

namespace ConfigRegs

/-- `(WDATA & wmask) | (old & ~wmask)`. -/
def masked (wmask wdata old : BitVec 32) : BitVec 32 := wdata &&& wmask ||| old &&& ~~~wmask

/-- A register write with byte strobes. The written register takes the new bytes over what it held; the others are
what `next` says. -/
def writeStrobed (r next : ConfigRegs) (waddr : RegAddr) (wdata wmask : BitVec 32) : ConfigRegs where
  userRst :=
    if waddr = RegAddr.res then (masked wmask wdata ((BitVec.ofBool r.userRst).setWidth 32)).getLsbD 0
    else next.userRst
  localMac :=
    if waddr = RegAddr.mac0 then next.localMac.extractLsb' 32 16 ++ masked wmask wdata (r.localMac.setWidth 32)
    else if waddr = RegAddr.mac1 then
      (masked wmask wdata ((r.localMac.extractLsb' 32 16).setWidth 32)).setWidth 16 ++ next.localMac.setWidth 32
    else next.localMac
  gatewayIp := if waddr = RegAddr.gw then masked wmask wdata r.gatewayIp else next.gatewayIp
  subnetMask := if waddr = RegAddr.snm then masked wmask wdata r.subnetMask else next.subnetMask
  localIp := if waddr = RegAddr.ipLoc then masked wmask wdata r.localIp else next.localIp
  udpPortRangeL := if waddr = RegAddr.udpRangeL then masked wmask wdata r.udpPortRangeL else next.udpPortRangeL
  udpPortRangeH := if waddr = RegAddr.udpRangeH then masked wmask wdata r.udpPortRangeH else next.udpPortRangeH
  sharedMem := if waddr = RegAddr.shmem then masked wmask wdata r.sharedMem else next.sharedMem
  extIer0 := if waddr = RegAddr.ier0 then masked wmask wdata r.extIer0 else next.extIer0
  bufrxTemp := fun idx =>
    if ringOf waddr = some idx then masked wmask wdata (r.bufrxTemp idx) else next.bufrxTemp idx
  buftxPushed :=
    if waddr = RegAddr.buftxPushed then (masked wmask wdata ((BitVec.ofBool r.buftxPushed).setWidth 32)).getLsbD 0
    else next.buftxPushed

end ConfigRegs

namespace ConfigRegsManager

/-- What a read of `AP_CTRL`, `ISR0` and `GIE` shows. -/
def control (s : ConfigRegsManager) (raddr : RegAddr) : BitVec 32 :=
  if raddr = RegAddr.apCtrl then
    ConfigRegs.field (BitVec.ofBool s.intApStart) 0 ||| ConfigRegs.field (BitVec.ofBool s.intApDone) 1 |||
      ConfigRegs.field (BitVec.ofBool s.intApIdle) 2 ||| ConfigRegs.field (BitVec.ofBool s.intApReady) 3 |||
      ConfigRegs.field (BitVec.ofBool s.intAutoRestart) 7
  else if raddr = RegAddr.isr0 then (BitVec.ofBool s.extIsr0).setWidth 32
  else (BitVec.ofBool s.intGie).setWidth 32

/-- The signals a read can show in this cycle beside the registers. -/
def status (s : ConfigRegsManager) (i : ManagerInput) : StatusInputs where
  bufrx := i.bufrx
  buftxHead := i.buftxHead
  buftxTail := i.buftxTail
  buftxEmpty := i.buftxEmpty
  buftxFull := i.buftxFull
  buftxPopped := i.buftxPopped
  control := s.control

/-- A write to the given register in this cycle. -/
def writesTo (s : ConfigRegsManager) (i : ManagerInput) (reg : RegAddr) : Bool :=
  s.axi.wHs i.master && s.axi.waddr = reg

/-- The AXI-lite slave after one clock edge; its reset leaves the address and the data as they are. -/
def axiNext (resN : Bool) (s : ConfigRegsManager) (i : ManagerInput) : AxiLite :=
  let next := s.axi.step i.master (s.regs.read (s.status i))
  if resN then next else { next with wstate := .wrReset, rstate := .rdReset }

/-- The registers after one clock edge. The write stands behind the reset in one statement, so it wins. -/
def regsNext (resN : Bool) (s : ConfigRegsManager) (i : ManagerInput) : ConfigRegs :=
  let next := if resN then s.regs else .reset
  if s.axi.wHs i.master then
    s.regs.writeStrobed next s.axi.waddr i.master.wdata (Interrupts.wmask i.wstrb)
  else next

/-- One clock edge with the given `res_n`. -/
def clock (resN : Bool) (s : ConfigRegsManager) (i : ManagerInput) : ConfigRegsManager where
  axi := s.axiNext resN i
  regs := s.regsNext resN i
  intApStart := resN &&
    if s.writesTo i RegAddr.apCtrl && i.wstrb.getLsbD 0 && i.master.wdata.getLsbD 0 then true
    else if i.apReady then s.intAutoRestart
    else s.intApStart
  intApDone := resN &&
    if i.apDone then true
    else if s.axi.arHs i.master && i.master.araddr = RegAddr.apCtrl then false
    else s.intApDone
  intApIdle := resN && i.apIdle
  intApReady := resN && i.apReady
  intAutoRestart := resN &&
    if s.writesTo i RegAddr.apCtrl && i.wstrb.getLsbD 0 then i.master.wdata.getLsbD 7 else s.intAutoRestart
  extIsr0 := resN &&
    if s.writesTo i RegAddr.isr0 then xor s.extIsr0 s.extIsr0Mutex
    else s.regs.extIer0.getLsbD 0 && i.bufrxPushIrq || s.extIsr0
  extIsr0Mutex := !resN || !s.writesTo i RegAddr.isr0
  intGie := resN &&
    if s.writesTo i RegAddr.gie && i.wstrb.getLsbD 0 then i.master.wdata.getLsbD 0 else s.intGie

/-- The manager with `res_n` high, under any master and any signals. -/
def machine : Clocked.Machine ConfigRegsManager ManagerInput where
  step := clock true
  legal := fun _ _ => True

/-- With its mask full a write replaces the word. -/
theorem masked_allOnes (wdata old : BitVec 32) : ConfigRegs.masked (Interrupts.wmask 0xF) wdata old = wdata := by
  have hmask : Interrupts.wmask 0xF = BitVec.allOnes 32 := by decide
  rw [ConfigRegs.masked, hmask, BitVec.and_allOnes, BitVec.not_allOnes, BitVec.and_zero, BitVec.or_zero]

/-- With all strobes set the registers follow the write decode without strobes. -/
theorem regs_clock_of_allStrobes {s : ConfigRegsManager} {i : ManagerInput} (hstrobes : i.wstrb = 0xF) :
    (s.clock true i).regs = s.regs.clock s.axi i.master := by
  change s.regsNext true i = _
  rw [regsNext, ConfigRegs.clock, hstrobes]
  split
  · simp only [ConfigRegs.writeStrobed, ConfigRegs.write, masked_allOnes, if_true]
  · rfl

/-- The interrupt part. -/
def interrupts (s : ConfigRegsManager) : Interrupts := ⟨s.axi, s.extIsr0, s.extIsr0Mutex, s.regs.extIer0, s.intGie⟩

/-- What the interrupt part sees of a cycle. -/
def interruptsInput (s : ConfigRegsManager) (i : ManagerInput) : InterruptsInput :=
  ⟨i.master, i.wstrb, i.bufrxPushIrq, s.regs.read (s.status i)⟩

/-- The interrupt registers show in the read decode of the whole block. -/
theorem readValue_interrupts (s : ConfigRegsManager) (i : ManagerInput) :
    s.interrupts.readValue (s.interruptsInput i) = s.regs.read (s.status i) := by
  funext raddr
  rw [Interrupts.readValue]
  by_cases hisr : raddr = RegAddr.isr0
  · subst hisr
    rfl
  · by_cases hier : raddr = RegAddr.ier0
    · subst hier
      rfl
    · by_cases hgie : raddr = RegAddr.gie
      · subst hgie
        rfl
      · rw [if_neg hisr, if_neg hier, if_neg hgie]
        rfl

/-- The interrupt part steps as the interrupt registers alone. -/
theorem interrupts_clock (s : ConfigRegsManager) (i : ManagerInput) :
    (s.clock true i).interrupts = s.interrupts.step (s.interruptsInput i) := by
  have haxi : s.axiNext true i = s.axi.step i.master (s.interrupts.readValue (s.interruptsInput i)) := by
    rw [readValue_interrupts]
    rfl
  have hier : (s.regsNext true i).extIer0 = (s.interrupts.step (s.interruptsInput i)).extIer0 := by
    cases hhs : s.axi.wHs i.master with
    | false => simp [regsNext, Interrupts.step, Interrupts.writesTo, interrupts, interruptsInput, hhs]
    | true =>
      by_cases haddr : s.axi.waddr = RegAddr.ier0
      · simp [regsNext, Interrupts.step, Interrupts.writesTo, interrupts, interruptsInput, hhs, haddr,
          ConfigRegs.writeStrobed, ConfigRegs.masked]
      · simp [regsNext, Interrupts.step, Interrupts.writesTo, interrupts, interruptsInput, hhs, haddr,
          ConfigRegs.writeStrobed]
  simp only [interrupts, clock, Interrupts.step, Bool.true_and, Bool.not_true, Bool.false_or, Interrupts.mk.injEq]
  exact ⟨haxi, rfl, rfl, hier, rfl⟩

end ConfigRegsManager

end UdpIpCore
