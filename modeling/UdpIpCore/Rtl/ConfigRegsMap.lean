import UdpIpCore.RegisterMap
import UdpIpCore.Rtl.ConfigRegsManager

/-!
# The register block as a plain map

What the master sees of `config_regs_AXI_Manager`: a map from registers to words behind one
write and one read channel. Most registers have one address. The control words of the rings
lie eight bytes apart and answer to all eight; two of their bits are stored, the others show
the ring at the time the address of a read is taken.
-/

namespace UdpIpCore

namespace ConfigRegsManager

/-- Data with its strobes. -/
structure WriteData where
  wdata : BitVec 32
  wstrb : BitVec 4

/-- A transfer on the AXI-lite port of the manager. -/
abbrev Transfer := RegisterMap.Event RegAddr WriteData StatusInputs (BitVec 32)

/-- The transfers of one cycle on each channel. -/
def readTransfers (s : ConfigRegsManager) (i : ManagerInput) : List Transfer :=
  (if s.axi.arHs i.master then [.ar i.master.araddr (s.status i)] else []) ++
    (if s.axi.rvalid && i.master.rready then [.r s.axi.rdata] else [])

def writeTransfers (s : ConfigRegsManager) (i : ManagerInput) : List Transfer :=
  (if s.axi.awHs i.master then [.aw i.master.awaddr] else []) ++
    (if s.axi.wHs i.master then [.w ⟨i.master.wdata, i.wstrb⟩] else []) ++
    (if s.axi.bvalid && i.master.bready then [.b] else [])

/-- The transfers of one cycle. The read comes first: its data are taken before the edge that writes. -/
def transfers (s : ConfigRegsManager) (i : ManagerInput) : List Transfer := s.readTransfers i ++ s.writeTransfers i

/-- What the slave offers to complete: the data of a write, its response, or the answer to a read. -/
def writePending (s : ConfigRegsManager) : List RegisterMap.Kind :=
  if s.axi.wready then [.aw] else if s.axi.bvalid then [.aw, .w] else []

def readPending (s : ConfigRegsManager) : List RegisterMap.Kind :=
  if s.axi.rvalid then [.ar] else []

/-- The registers of the map. -/
inductive Reg
  | res
  | mac0
  | mac1
  | gw
  | snm
  | ipLoc
  | udpRangeL
  | udpRangeH
  | shmem
  | ier0
  | buftxPushed
  | bufrx (idx : BufferIdx)
deriving DecidableEq

namespace Reg

/-- The address of a register. -/
def addr : Reg → RegAddr
  | res => RegAddr.res
  | mac0 => RegAddr.mac0
  | mac1 => RegAddr.mac1
  | gw => RegAddr.gw
  | snm => RegAddr.snm
  | ipLoc => RegAddr.ipLoc
  | udpRangeL => RegAddr.udpRangeL
  | udpRangeH => RegAddr.udpRangeH
  | shmem => RegAddr.shmem
  | ier0 => RegAddr.ier0
  | buftxPushed => RegAddr.buftxPushed
  | bufrx idx => ConfigRegs.bufferRxCtrl idx.toNat

/-- The width of a register. -/
def width : Reg → ℕ
  | res => 1
  | mac1 => 16
  | buftxPushed => 1
  | _ => 32

/-- A word cut to the width of a register. -/
def cut (reg : Reg) (word : BitVec 32) : BitVec 32 := (word.setWidth reg.width).setWidth 32

/-- Not a control word of a ring. -/
def named : Reg → Bool
  | bufrx _ => false
  | _ => true

/-- The number of addresses a register answers to: the control word of a ring to all eight it is apart from the
next one, the others to one. -/
def span : Reg → ℕ
  | bufrx _ => 8
  | _ => 1

end Reg

/-- The addresses of each register, in number as `span` says. -/
def reaches (span : Reg → ℕ) (a : RegAddr) (reg : Reg) : Bool :=
  reg.addr.toNat ≤ a.toNat ∧ a.toNat < reg.addr.toNat + span reg

/-- A byte of the new word where its strobe is set, and of the old one elsewhere. -/
def mergeByte (d : WriteData) (old : BitVec 32) (byte : ℕ) : BitVec 8 :=
  if d.wstrb.getLsbD byte then d.wdata.extractLsb' (8 * byte) 8 else old.extractLsb' (8 * byte) 8

def mergeBytes (d : WriteData) (old : BitVec 32) : BitVec 32 :=
  mergeByte d old 3 ++ mergeByte d old 2 ++ mergeByte d old 1 ++ mergeByte d old 0

/-- The control word of a ring: two stored bits, and the ring as `struct RBTC_CTRL_BUFRX` shows it. -/
structure ShowsRing (stored : BitVec 32) (status : RingStatus) (word : BitVec 32) : Prop where
  popped : word.getLsbD 0 = stored.getLsbD 0
  pushed : word.getLsbD 1 = status.pushed
  full : word.getLsbD 2 = status.full
  empty : word.getLsbD 3 = status.empty
  tail : word.extractLsb' 4 5 = status.tail
  head : word.extractLsb' 9 5 = status.head
  socketState : word.getLsbD 14 = stored.getLsbD 14

/-- What the answer to a read owes to the map. -/
structure Shows (span : Reg → ℕ) (map : Reg → BitVec 32) (a : RegAddr) (shown : StatusInputs) (word : BitVec 32) :
    Prop where
  named : ∀ reg, reg.named = true → reaches span a reg = true → word = reg.cut (map reg)
  rings : ∀ idx, reaches span a (.bufrx idx) = true → ShowsRing (map (.bufrx idx)) (shown.bufrx idx) word

/-- The plain map behind the port. -/
def layout (span : Reg → ℕ) : RegisterMap.Layout RegAddr Reg WriteData StatusInputs (BitVec 32) where
  initial := fun _ => 0
  reaches := reaches span
  merge := mergeBytes
  Shows := Shows span

section Words

variable (d : WriteData) (wmask wdata old : BitVec 32) {i : ℕ}

/-- The bits of a word of four bytes. -/
theorem getLsbD_bytes (byte : ℕ → BitVec 8) (hi : i < 32) :
    (byte 3 ++ byte 2 ++ byte 1 ++ byte 0 : BitVec 32).getLsbD i = (byte (i / 8)).getLsbD (i % 8) := by
  obtain ⟨k, j, hj, rfl⟩ : ∃ k j, j < 8 ∧ i = 8 * k + j := ⟨i / 8, i % 8, Nat.mod_lt i (by decide), by omega⟩
  have hbyte : (8 * k + j) / 8 = k := by omega
  have hbit : (8 * k + j) % 8 = j := by omega
  rw [hbyte, hbit]
  simp only [BitVec.getLsbD_append]
  have hcases : k = 0 ∨ k = 1 ∨ k = 2 ∨ k = 3 := by omega
  rcases hcases with rfl | rfl | rfl | rfl
  · rw [if_pos (by omega)]
    congr 1
    omega
  · rw [if_neg (by omega), if_pos (by omega)]
    congr 1
    omega
  · rw [if_neg (by omega), if_neg (by omega), if_pos (by omega)]
    congr 1
    omega
  · rw [if_neg (by omega), if_neg (by omega), if_neg (by omega)]
    congr 1
    omega

/-- Each strobe masks the eight bits of its byte. -/
theorem getLsbD_wmask (strb : BitVec 4) (hi : i < 32) : (Interrupts.wmask strb).getLsbD i = strb.getLsbD (i / 8) := by
  have hbit : i % 8 < 1 * 8 := Nat.mod_lt i (by decide)
  have hbytes := getLsbD_bytes (fun j => BitVec.replicate 8 (strb.extractLsb' j 1)) hi
  refine Eq.trans hbytes ?_
  change (BitVec.replicate 8 (strb.extractLsb' (i / 8) 1)).getLsbD (i % 8) = _
  rw [BitVec.getLsbD_replicate, BitVec.getLsbD_extractLsb', decide_eq_true hbit, Nat.mod_one]
  simp

/-- The bits of a masked write. -/
theorem getLsbD_masked (hi : i < 32) : (ConfigRegs.masked wmask wdata old).getLsbD i =
    if wmask.getLsbD i then wdata.getLsbD i else old.getLsbD i := by
  rw [ConfigRegs.masked, BitVec.getLsbD_or, BitVec.getLsbD_and, BitVec.getLsbD_and, BitVec.getLsbD_not]
  cases wmask.getLsbD i <;> simp [hi]

/-- A masked write takes the bytes whose strobes are set. -/
theorem masked_eq_mergeBytes :
    ConfigRegs.masked (Interrupts.wmask d.wstrb) d.wdata old = mergeBytes d old := by
  apply BitVec.eq_of_getLsbD_eq
  intro i hi
  have hbit : i % 8 < 8 := Nat.mod_lt i (by decide)
  have hbytes := getLsbD_bytes (mergeByte d old) hi
  rw [mergeBytes, hbytes, getLsbD_masked _ _ _ hi, getLsbD_wmask _ hi, mergeByte]
  split
  · rw [BitVec.getLsbD_extractLsb', decide_eq_true hbit, Bool.true_and, Nat.div_add_mod]
  · rw [BitVec.getLsbD_extractLsb', decide_eq_true hbit, Bool.true_and, Nat.div_add_mod]

/-- The low bits of a masked write depend on the low bits alone. -/
theorem setWidth_masked (n : ℕ) {old' : BitVec 32} (h : old.setWidth n = old'.setWidth n) :
    (ConfigRegs.masked wmask wdata old).setWidth n = (ConfigRegs.masked wmask wdata old').setWidth n := by
  apply BitVec.eq_of_getLsbD_eq
  intro i hi
  rw [BitVec.getLsbD_setWidth, BitVec.getLsbD_setWidth]
  by_cases hword : i < 32
  · have hbit : old.getLsbD i = old'.getLsbD i := by
      have := congrArg (·.getLsbD i) h
      simpa [hi] using this
    rw [getLsbD_masked _ _ _ hword, getLsbD_masked _ _ _ hword, hbit]
  · rw [BitVec.getLsbD_of_ge _ i (Nat.le_of_not_lt hword), BitVec.getLsbD_of_ge _ i (Nat.le_of_not_lt hword)]

/-- The registers as a map shows them. -/
def ofMap (map : Reg → BitVec 32) : ConfigRegs where
  userRst := (map .res).getLsbD 0
  localMac := (map .mac1).setWidth 16 ++ map .mac0
  gatewayIp := map .gw
  subnetMask := map .snm
  localIp := map .ipLoc
  udpPortRangeL := map .udpRangeL
  udpPortRangeH := map .udpRangeH
  sharedMem := map .shmem
  extIer0 := map .ier0
  bufrxTemp := fun idx => map (.bufrx idx)
  buftxPushed := (map .buftxPushed).getLsbD 0

variable {a : RegAddr} {reg : Reg} {idx : BufferIdx} {map : Reg → BitVec 32}

/-- A named register is reached at its own address alone. -/
theorem reaches_named (hnamed : reg.named = true) : reaches Reg.span a reg = true ↔ a = reg.addr := by
  have hspan : reg.span = 1 := by
    cases reg with
    | bufrx idx => exact absurd hnamed Bool.false_ne_true
    | _ => rfl
  rw [reaches, decide_eq_true_eq, hspan, ← BitVec.toNat_inj]
  omega

/-- The control word of a ring is reached where the decode finds its ring. -/
theorem reaches_bufrx : reaches Reg.span a (.bufrx idx) = true ↔ ConfigRegs.ringOf a = some idx := by
  have hidx : idx.toNat < 1024 := idx.isLt
  have haddr : (Reg.bufrx idx).addr.toNat = 160 + idx.toNat * 8 := by
    change (BitVec.ofNat 14 (160 + idx.toNat * 8)).toNat = _
    rw [BitVec.toNat_ofNat, Nat.mod_eq_of_lt (by omega)]
  rw [reaches, decide_eq_true_eq, haddr, ConfigRegs.ringOf, RegAddr.bufrxOffset, maxUdpPorts]
  change _ ∧ _ < _ + 8 ↔ _
  split
  · rename_i hin
    rw [Option.some.injEq, ← BitVec.toNat_inj, BitVec.toNat_ofNat]
    omega
  · rename_i hout
    simp only [reduceCtorEq, iff_false]
    omega

/-- A write to the map, at a named register. -/
theorem update_named (reg : Reg) (d : WriteData) (hnamed : reg.named = true) : (layout Reg.span).update map a d reg =
    if a = reg.addr then ConfigRegs.masked (Interrupts.wmask d.wstrb) d.wdata (map reg) else map reg := by
  rw [masked_eq_mergeBytes]
  exact if_congr (reaches_named hnamed) rfl rfl

/-- A write to the map, at the control word of a ring. -/
theorem update_bufrx (d : WriteData) (idx : BufferIdx) : (layout Reg.span).update map a d (.bufrx idx) =
    if ConfigRegs.ringOf a = some idx then
      ConfigRegs.masked (Interrupts.wmask d.wstrb) d.wdata (map (.bufrx idx))
    else map (.bufrx idx) := by
  rw [masked_eq_mergeBytes]
  exact if_congr reaches_bufrx rfl rfl

/-- A write to a register of one bit depends on its bit alone. -/
theorem getLsbD_masked_ofBool (wmask wdata word : BitVec 32) :
    (ConfigRegs.masked wmask wdata ((BitVec.ofBool (word.getLsbD 0)).setWidth 32)).getLsbD 0 =
      (ConfigRegs.masked wmask wdata word).getLsbD 0 := by
  rw [getLsbD_masked _ _ _ (by decide), getLsbD_masked _ _ _ (by decide)]
  cases word.getLsbD 0 <;> rfl

/-- A write to the registers is a write to the map. -/
theorem writeStrobed_ofMap (a : RegAddr) (d : WriteData) :
    (ofMap map).writeStrobed (ofMap map) a d.wdata (Interrupts.wmask d.wstrb) =
      ofMap ((layout Reg.span).update map a d) := by
  have hmac (wmask wdata : BitVec 32) :
      (ConfigRegs.masked wmask wdata (((map .mac1).setWidth 16).setWidth 32)).setWidth 16 =
        (ConfigRegs.masked wmask wdata (map .mac1)).setWidth 16 :=
    setWidth_masked _ _ _ 16 (by rw [BitVec.setWidth_setWidth_of_le _ (by decide), BitVec.setWidth_eq])
  simp only [ConfigRegs.writeStrobed, ofMap, getLsbD_masked_ofBool, BitVec.setWidth_append_eq_right,
    BitVec.extractLsb'_append_eq_left, hmac, ConfigRegs.mk.injEq]
  refine ⟨?_, ?_, (update_named .gw d rfl).symm, (update_named .snm d rfl).symm, (update_named .ipLoc d rfl).symm,
    (update_named .udpRangeL d rfl).symm, (update_named .udpRangeH d rfl).symm, (update_named .shmem d rfl).symm,
    (update_named .ier0 d rfl).symm, funext fun idx => (update_bufrx d idx).symm, ?_⟩
  · rw [update_named .res d rfl]
    exact (apply_ite (BitVec.getLsbD · 0) _ _ _).symm
  · rw [update_named .mac0 d rfl, update_named .mac1 d rfl]
    by_cases hmac0 : a = RegAddr.mac0
    · subst hmac0
      rfl
    · by_cases hmac1 : a = RegAddr.mac1
      · subst hmac1
        rfl
      · rw [if_neg hmac0, if_neg hmac1]
        exact congrArg₂ (BitVec.setWidth 16 · ++ ·) (if_neg hmac1).symm (if_neg hmac0).symm
  · rw [update_named .buftxPushed d rfl]
    exact (apply_ite (BitVec.getLsbD · 0) _ _ _).symm

/-- A read of a control word shows its two stored bits and its ring. -/
theorem showsRing_rxWord (stored : BitVec 32) (status : RingStatus) :
    ShowsRing stored status (ConfigRegs.rxWord stored status) where
  popped := ConfigRegs.getLsbD_rxWord_popped stored status
  pushed := ConfigRegs.getLsbD_rxWord_pushed stored status
  full := ConfigRegs.getLsbD_rxWord_full stored status
  empty := ConfigRegs.getLsbD_rxWord_empty stored status
  tail := ConfigRegs.extractLsb'_rxWord_tail stored status
  head := ConfigRegs.extractLsb'_rxWord_head stored status
  socketState := ConfigRegs.getLsbD_rxWord_opensock stored status

/-- A read of a named register shows its word, cut to its width. -/
theorem read_named (hnamed : reg.named = true) (shown : StatusInputs) :
    (ofMap map).read shown reg.addr = reg.cut (map reg) := by
  cases reg with
  | bufrx idx => exact absurd hnamed Bool.false_ne_true
  | res =>
    change (BitVec.ofBool ((map .res).getLsbD 0)).setWidth 32 = ((map .res).setWidth 1).setWidth 32
    rw [BitVec.setWidth_one]
  | buftxPushed =>
    change (BitVec.ofBool ((map .buftxPushed).getLsbD 0)).setWidth 32 = ((map .buftxPushed).setWidth 1).setWidth 32
    rw [BitVec.setWidth_one]
  | mac0 =>
    change ((map .mac1).setWidth 16 ++ map .mac0).setWidth 32 = ((map .mac0).setWidth 32).setWidth 32
    rw [BitVec.setWidth_append_eq_right, BitVec.setWidth_eq, BitVec.setWidth_eq]
  | mac1 =>
    change (((map .mac1).setWidth 16 ++ map .mac0).extractLsb' 32 16).setWidth 32 =
      ((map .mac1).setWidth 16).setWidth 32
    rw [BitVec.extractLsb'_append_eq_left]
  | _ => exact ((BitVec.setWidth_eq _).trans (BitVec.setWidth_eq _)).symm

/-- A read shows the map. -/
theorem shows_read (shown : StatusInputs) (a : RegAddr) : Shows Reg.span map a shown ((ofMap map).read shown a) where
  named := by
    intro reg hnamed hreaches
    obtain rfl := (reaches_named hnamed).mp hreaches
    exact read_named hnamed shown
  rings := by
    intro idx hreaches
    have hring := reaches_bufrx.mp hreaches
    have hread : (ofMap map).read shown a = ConfigRegs.rxWord (map (.bufrx idx)) (shown.bufrx idx) := by
      rw [ConfigRegs.read, hring]
      rfl
    rw [hread]
    exact showsRing_rxWord _ _

end Words

section Cycle

variable {s : ConfigRegsManager} {i : ManagerInput} {map : Reg → BitVec 32}
  {write : RegisterMap.WriteSide RegAddr} {read : RegisterMap.ReadSide RegAddr Reg StatusInputs (BitVec 32)}

/-- The write machine shows the write under way. -/
def WriteMatches : RegisterMap.WriteSide RegAddr → AxiLite → Prop
  | .idle, a => a.wstate = .wrIdle ∨ a.wstate = .wrReset
  | .addressed addr, a => a.wstate = .wrData ∧ a.waddr = addr
  | .written, a => a.wstate = .wrResp

/-- The read machine shows the read under way, with the answer it holds. -/
def ReadMatches : RegisterMap.ReadSide RegAddr Reg StatusInputs (BitVec 32) → AxiLite → Prop
  | .idle, a => a.rstate = .rdIdle ∨ a.rstate = .rdReset
  | .asked map addr shown, a => a.rstate = .rdData ∧ Shows Reg.span map addr shown a.rdata

/-- The manager shows the map and the transactions under way. -/
structure Matches (t : RegisterMap.State RegAddr Reg StatusInputs (BitVec 32)) (s : ConfigRegsManager) : Prop where
  regs : s.regs = ofMap t.regs
  write : WriteMatches t.write s.axi
  read : ReadMatches t.read s.axi

/-- The transfers each state of a channel machine allows. -/
theorem readTransfers_eq (s : ConfigRegsManager) (i : ManagerInput) : s.readTransfers i = match s.axi.rstate with
    | .rdIdle => if i.master.arvalid then [.ar i.master.araddr (s.status i)] else []
    | .rdData => if i.master.rready then [.r s.axi.rdata] else []
    | .rdReset => [] := by
  cases hstate : s.axi.rstate <;> simp [readTransfers, AxiLite.arHs, AxiLite.arready, AxiLite.rvalid, hstate]

theorem writeTransfers_eq (s : ConfigRegsManager) (i : ManagerInput) : s.writeTransfers i = match s.axi.wstate with
    | .wrIdle => if i.master.awvalid then [.aw i.master.awaddr] else []
    | .wrData => if i.master.wvalid then [.w ⟨i.master.wdata, i.wstrb⟩] else []
    | .wrResp => if i.master.bready then [.b] else []
    | .wrReset => [] := by
  cases hstate : s.axi.wstate <;>
    simp [writeTransfers, AxiLite.awHs, AxiLite.awready, AxiLite.wHs, AxiLite.wready, AxiLite.bvalid, hstate]

/-- The registers change at write data only. -/
theorem regsNext_of_ne (hstate : s.axi.wstate ≠ .wrData) : s.regsNext true i = s.regs := by
  simp [regsNext, AxiLite.wHs, AxiLite.wready, hstate]

/-- A cycle of the read channel. -/
theorem replay_readTransfers (hregs : s.regs = ofMap map) (hread : ReadMatches read s.axi) (i : ManagerInput) :
    ∃ next, (layout Reg.span).Replay ⟨map, write, read⟩ (s.readTransfers i) ⟨map, write, next⟩ ∧
      ReadMatches next (s.axiNext true i) := by
  rw [readTransfers_eq]
  cases read with
  | idle =>
    rcases hread with hidle | hreset
    · rw [hidle]
      cases hvalid : i.master.arvalid with
      | false =>
        refine ⟨.idle, .nil _, Or.inl ?_⟩
        simp [axiNext, AxiLite.step, AxiLite.rnext, hidle, hvalid]
      | true =>
        have hdata : (s.axiNext true i).rdata = s.regs.read (s.status i) i.master.araddr := by
          simp [axiNext, AxiLite.step, AxiLite.arHs, AxiLite.arready, hidle, hvalid]
        refine ⟨.asked map i.master.araddr (s.status i), .cons (.ar _ _) (.nil _), ?_, ?_⟩
        · simp [axiNext, AxiLite.step, AxiLite.rnext, hidle, hvalid]
        · rw [hdata, hregs]
          exact shows_read _ _
    · rw [hreset]
      refine ⟨.idle, .nil _, Or.inl ?_⟩
      simp [axiNext, AxiLite.step, AxiLite.rnext, hreset]
  | asked asked addr shown =>
    obtain ⟨hdata, hshows⟩ := hread
    rw [hdata]
    cases hready : i.master.rready with
    | false =>
      refine ⟨.asked asked addr shown, .nil _, ?_, ?_⟩
      · simp [axiNext, AxiLite.step, AxiLite.rnext, hdata, hready]
      · simpa [axiNext, AxiLite.step, AxiLite.arHs, AxiLite.arready, hdata] using hshows
    | true =>
      refine ⟨.idle, .cons (.r hshows) (.nil _), Or.inl ?_⟩
      simp [axiNext, AxiLite.step, AxiLite.rnext, AxiLite.rvalid, hdata, hready]

/-- A cycle of the write channel. -/
theorem replay_writeTransfers (read : RegisterMap.ReadSide RegAddr Reg StatusInputs (BitVec 32))
    (hregs : s.regs = ofMap map) (hwrite : WriteMatches write s.axi) (i : ManagerInput) :
    ∃ map' next, (layout Reg.span).Replay ⟨map, write, read⟩ (s.writeTransfers i) ⟨map', next, read⟩ ∧
      s.regsNext true i = ofMap map' ∧ WriteMatches next (s.axiNext true i) := by
  rw [writeTransfers_eq]
  cases write with
  | idle =>
    rcases hwrite with hidle | hreset
    · have hkeep : s.regsNext true i = ofMap map := (regsNext_of_ne (by simp [hidle])).trans hregs
      rw [hidle]
      cases hvalid : i.master.awvalid with
      | false =>
        refine ⟨map, .idle, .nil _, hkeep, Or.inl ?_⟩
        simp [axiNext, AxiLite.step, AxiLite.wnext, hidle, hvalid]
      | true =>
        refine ⟨map, .addressed i.master.awaddr, .cons (.aw _) (.nil _), hkeep, ?_, ?_⟩
        · simp [axiNext, AxiLite.step, AxiLite.wnext, hidle, hvalid]
        · simp [axiNext, AxiLite.step, AxiLite.awHs, AxiLite.awready, hidle, hvalid]
    · have hkeep : s.regsNext true i = ofMap map := (regsNext_of_ne (by simp [hreset])).trans hregs
      rw [hreset]
      refine ⟨map, .idle, .nil _, hkeep, Or.inl ?_⟩
      simp [axiNext, AxiLite.step, AxiLite.wnext, hreset]
  | addressed addr =>
    obtain ⟨hdata, rfl⟩ := hwrite
    rw [hdata]
    cases hvalid : i.master.wvalid with
    | false =>
      refine ⟨map, .addressed s.axi.waddr, .nil _, ?_, ?_, ?_⟩
      · simp [regsNext, AxiLite.wHs, hvalid, hregs]
      · simp [axiNext, AxiLite.step, AxiLite.wnext, hdata, hvalid]
      · simp [axiNext, AxiLite.step, AxiLite.awHs, AxiLite.awready, hdata]
    | true =>
      have hnext : (s.axiNext true i).wstate = .wrResp := by
        simp [axiNext, AxiLite.step, AxiLite.wnext, hdata, hvalid]
      refine ⟨(layout Reg.span).update map s.axi.waddr ⟨i.master.wdata, i.wstrb⟩, .written, .cons (.w _ _) (.nil _), ?_,
        hnext⟩
      rw [← writeStrobed_ofMap, ← hregs]
      simp [regsNext, AxiLite.wHs, AxiLite.wready, hdata, hvalid]
  | written =>
    have hresp : s.axi.wstate = .wrResp := hwrite
    have hkeep : s.regsNext true i = ofMap map := (regsNext_of_ne (by simp [hresp])).trans hregs
    rw [hresp]
    cases hready : i.master.bready with
    | false =>
      have hnext : (s.axiNext true i).wstate = .wrResp := by
        simp [axiNext, AxiLite.step, AxiLite.wnext, hresp, hready]
      exact ⟨map, .written, .nil _, hkeep, hnext⟩
    | true =>
      refine ⟨map, .idle, .cons .b (.nil _), hkeep, Or.inl ?_⟩
      simp [axiNext, AxiLite.step, AxiLite.wnext, hresp, hready]

/-- The transfers of a cycle are steps of the map, and the registers follow it. -/
theorem replay_transfers (t : RegisterMap.State RegAddr Reg StatusInputs (BitVec 32)) (s : ConfigRegsManager)
    (i : ManagerInput) (h : Matches t s) :
    ∃ u, (layout Reg.span).Replay t (s.transfers i) u ∧ Matches u (machine.step s i) := by
  obtain ⟨next, hreads, hread⟩ := replay_readTransfers h.regs h.read i
  obtain ⟨map, write, hwrites, hregs, hwrite⟩ := replay_writeTransfers next h.regs h.write i
  exact ⟨⟨map, write, next⟩, RegisterMap.Layout.replay_append.mpr ⟨_, hreads, hwrites⟩, hregs, hwrite, hread⟩

/-- Two cycles under reset, from any registers, leave an empty map: the first one ends a write, the second clears
what it may have written. -/
theorem matches_reset (s : ConfigRegsManager) (first second : ManagerInput) :
    Matches (layout Reg.span).start ((s.clock false first).clock false second) where
  regs := by
    have hquiet : (s.clock false first).axi.wHs second.master = false := by
      simp [clock, axiNext, AxiLite.wHs, AxiLite.wready]
    change (s.clock false first).regsNext false second = _
    rw [regsNext, hquiet]
    rfl
  write := Or.inr rfl
  read := Or.inr rfl

/-- What is under way in the map is what the slave offers to complete. -/
theorem pending_eq {t : RegisterMap.State RegAddr Reg StatusInputs (BitVec 32)} (h : Matches t s) :
    t.write.pending = s.writePending ∧ t.read.pending = s.readPending := by
  obtain ⟨-, hwrite, hread⟩ := h
  constructor
  · cases hside : t.write with
    | idle =>
      rw [hside] at hwrite
      rcases hwrite with hidle | hreset
      · simp [writePending, AxiLite.wready, AxiLite.bvalid, hidle, RegisterMap.WriteSide.pending]
      · simp [writePending, AxiLite.wready, AxiLite.bvalid, hreset, RegisterMap.WriteSide.pending]
    | addressed addr =>
      rw [hside] at hwrite
      simp [writePending, AxiLite.wready, hwrite.1, RegisterMap.WriteSide.pending]
    | written =>
      rw [hside] at hwrite
      have hresp : s.axi.wstate = .wrResp := hwrite
      simp [writePending, AxiLite.wready, AxiLite.bvalid, hresp, RegisterMap.WriteSide.pending]
  · cases hside : t.read with
    | idle =>
      rw [hside] at hread
      rcases hread with hidle | hreset
      · simp [readPending, AxiLite.rvalid, hidle, RegisterMap.ReadSide.pending]
      · simp [readPending, AxiLite.rvalid, hreset, RegisterMap.ReadSide.pending]
    | asked map addr shown =>
      rw [hside] at hread
      simp [readPending, AxiLite.rvalid, hread.1, RegisterMap.ReadSide.pending]

end Cycle

/-- The transfers of a run after two cycles of reset. -/
def logAfterReset (s : ConfigRegsManager) (first second : ManagerInput) (inputs : List ManagerInput) : List Transfer :=
  RegisterMap.log machine transfers ((s.clock false first).clock false second) inputs

/-- The state such a run ends in. -/
def afterReset (s : ConfigRegsManager) (first second : ManagerInput) (inputs : List ManagerInput) : ConfigRegsManager :=
  machine.run ((s.clock false first).clock false second) inputs

/-- In every run the registers hold what the writes so far make of an empty map. -/
theorem regs_run (s : ConfigRegsManager) (first second : ManagerInput) (inputs : List ManagerInput) :
    (s.afterReset first second inputs).regs = ofMap ((layout Reg.span).contents (fun _ => 0)
      (RegisterMap.writes none (s.logAfterReset first second inputs))) := by
  obtain ⟨t, hreplay, hmatches⟩ := RegisterMap.exists_replay_log replay_transfers inputs (matches_reset s first second)
  have hregs := hreplay.regs_eq
  rw [afterReset, hmatches.regs, hregs]
  rfl

/-- In every run after a reset, from any registers, with any master and any signals, the port serves the map. -/
theorem served_run (s : ConfigRegsManager) (first second : ManagerInput) (inputs : List ManagerInput) :
    (layout Reg.span).Served (s.logAfterReset first second inputs)
      (s.afterReset first second inputs).writePending (s.afterReset first second inputs).readPending := by
  obtain ⟨t, hreplay, hmatches⟩ := RegisterMap.exists_replay_log replay_transfers inputs (matches_reset s first second)
  have hserved := hreplay.served
  obtain ⟨hwrite, hread⟩ := pending_eq hmatches
  rw [hwrite, hread] at hserved
  exact hserved

section Counterexample

/-- Registers as they may come up. -/
def anyStart : ConfigRegsManager := ⟨.reset, .reset, false, false, false, false, false, false, true, false⟩

/-- A master that keeps writing a popped bit to the upper half of the first control word and keeps reading the word
itself, with every ring at rest. -/
def upperHalf : ManagerInput where
  master := ⟨true, 0xA4, true, 1, true, true, RegAddr.bufrxOffset, true⟩
  wstrb := 0xF
  apDone := false
  apReady := false
  apIdle := false
  bufrx := fun _ => ⟨false, false, false, 0, 0⟩
  bufrxPushIrq := false
  buftxHead := 0
  buftxTail := 0
  buftxEmpty := false
  buftxFull := false
  buftxPopped := false

/-- The signals a read shows after some of these cycles. -/
def upperHalfStatus (cycles : ℕ) : StatusInputs :=
  (anyStart.afterReset upperHalf upperHalf (List.replicate cycles upperHalf)).status upperHalf

/-- A control word is changed by a write that is not to its address. -/
theorem not_served : ¬ ∀ (s : ConfigRegsManager) (first second : ManagerInput) (inputs : List ManagerInput),
    (layout fun _ => 1).Served (s.logAfterReset first second inputs)
      (s.afterReset first second inputs).writePending (s.afterReset first second inputs).readPending := by
  intro h
  have hserved := h anyStart upperHalf upperHalf (List.replicate 5 upperHalf)
  have hlog : anyStart.logAfterReset upperHalf upperHalf (List.replicate 5 upperHalf) =
      [.ar 0xA0 (upperHalfStatus 1), .aw 0xA4, .r 0, .w ⟨1, 0xF⟩] ++
        .ar 0xA0 (upperHalfStatus 3) :: ([.b] ++ .r 1 :: [.aw 0xA4]) := rfl
  have hshows := hserved.readsBack _ _ _ _ _ _ hlog (by simp)
  have hpopped : (1 : BitVec 32).getLsbD 0 = _ := (hshows.rings 0 (by decide)).popped
  exact absurd hpopped (by decide)

end Counterexample

end ConfigRegsManager

end UdpIpCore
