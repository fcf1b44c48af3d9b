import UdpIpCore.Rtl.DmaWriteControl
import UdpIpCore.Userspace.Bus

/-!
# The userspace driver

`udriver_send` and `udriver_recv` as programs over single register and memory accesses.
-/

namespace UdpIpCore

open Interaction

/-- `struct udp_packet`: the header words as bytes, and the payload. -/
structure UdpPacket where
  header : List (BitVec 8)
  payload : List (BitVec 8)
deriving DecidableEq

/-- The bytes of one slot. -/
abbrev Slot := ℕ → BitVec 8

namespace Udriver

/-- `PACKET_HDR_SIZE_BYTES`. -/
abbrev packetHdrSizeBytes : ℕ := 40

/-- `BUF_SIZE_BYTES`, the memory of one ring. -/
abbrev bufSizeBytes : ℕ := bufferRxLength * bufferElemMaxSize

/-- `BUF_RX_IDX_OFFSET_BYTES`. -/
def bufRxIdxOffsetBytes (bufferId : ℕ) : ℕ := bufferId * bufSizeBytes

/-- `BUF_TX_OFFSET_BYTES`. -/
def bufTxOffsetBytes : ℕ := maxUdpPorts * bufSizeBytes

/-- `payload_size_bytes`, the first word of a header. -/
def payloadSizeBytes (header : List (BitVec 8)) : ℕ :=
  (header.take 8).foldr (fun b n => b.toNat + 256 * n) 0

/-- `mask_set` and `mask_clear` of the popped bit. -/
def maskSet : BitVec 32 := 1 <<< bufferPoppedOffset
def maskClear : BitVec 32 := ~~~maskSet

/-- `read_reg`. -/
def readReg (reg : RegAddr) : UserCode (BitVec 32) := Program.command (Access.readReg reg)

/-- `write_reg`. -/
def writeReg (reg : RegAddr) (value : BitVec 32) : UserCode Unit :=
  Program.command (Access.writeReg reg value)

/-- `xrtBORead`. -/
def xrtBORead (offset : ℕ) : ℕ → UserCode (List (BitVec 8))
  | 0 => pure []
  | size + 1 => do
    let b ← Program.command (Access.load offset)
    let rest ← xrtBORead (offset + 1) size
    return b :: rest

/-- `xrtBOWrite`. -/
def xrtBOWrite (offset : ℕ) : List (BitVec 8) → UserCode Unit
  | [] => pure ()
  | b :: rest => do
    Program.command (Access.store offset b)
    xrtBOWrite (offset + 1) rest

/-- `notify_pop_to_rx_buffer`. -/
def notifyPopToRxBuffer (bufferId : ℕ) : UserCode Unit := do
  let value ← readReg (ConfigRegs.bufferRxCtrl bufferId)
  writeReg (ConfigRegs.bufferRxCtrl bufferId) (value &&& maskClear)
  writeReg (ConfigRegs.bufferRxCtrl bufferId) (value ||| maskSet)
  writeReg (ConfigRegs.bufferRxCtrl bufferId) (value &&& maskClear)

/-- `udriver_recv` without interrupts; nothing is returned from an empty ring. -/
def udriverRecv (bufferId : ℕ) : UserCode (Option UdpPacket) := do
  let reg ← readReg (ConfigRegs.bufferRxCtrl bufferId)
  if reg.getLsbD bufferEmptyOffset then return none
  let bufBaseAddr :=
    bufRxIdxOffsetBytes bufferId + (reg.extractLsb' bufferTailOffset 5).toNat * bufferElemMaxSize
  let header ← xrtBORead bufBaseAddr packetHdrSizeBytes
  let payload ← xrtBORead (bufBaseAddr + packetHdrSizeBytes) (payloadSizeBytes header)
  notifyPopToRxBuffer bufferId
  return some ⟨header, payload⟩

/-- `udriver_send`; it fails when the ring is full. -/
def udriverSend (udpPacket : UdpPacket) : UserCode Bool := do
  let txSlotFull ← readReg RegAddr.buftxFull
  if txSlotFull ≠ 0 then return false
  let head ← readReg RegAddr.buftxHead
  let buftxOffset := bufTxOffsetBytes + head.toNat * bufferElemMaxSize
  xrtBOWrite buftxOffset udpPacket.header
  xrtBOWrite (buftxOffset + packetHdrSizeBytes) udpPacket.payload
  writeReg RegAddr.buftxPushed 0
  writeReg RegAddr.buftxPushed 1
  writeReg RegAddr.buftxPushed 0
  return true

section Memory

variable {D : Type} {quiet : D → D → Prop} {responds : D → (c : Access) → c.Response → D → Prop} {inv : D → Prop}

/-- Reading bytes of which something holds in every state of the assertion. -/
theorem outline_xrtBORead_such (during : D → Prop) (holds : ℕ → BitVec 8 → Prop)
    (hquiet : ∀ d d', during d → quiet d d' → during d') (huse : ∀ d, during d → inv d) :
    ∀ size offset d, during d → (∀ d k b d', during d → k < size → responds d (.load (offset + k)) b d' →
      holds k b ∧ during d') → (xrtBORead offset size).Outline quiet responds inv
        (fun r d => (r.length = size ∧ ∀ k b, r[k]? = some b → holds k b) ∧ during d) d := by
  intro size
  induction size generalizing holds with
  | zero =>
    intro offset d hd _
    exact .done during hd hquiet fun d hd => ⟨huse d hd, ⟨rfl, fun k b hb => by simp at hb⟩, hd⟩
  | succ size ih =>
    intro offset d hd hload
    refine Program.Outline.bind (Program.Outline.command (R := Access.Response) (c := Access.load offset) during
      (fun b d => holds 0 b ∧ during d) hd hquiet huse
      (fun d b d' hd hresponds => hload d 0 b d' hd (Nat.succ_pos size) hresponds)
      (fun b d d' h hq => ⟨h.1, hquiet d d' h.2 hq⟩) ?_)
    rintro b d ⟨hb, hd⟩
    have hrest := ih (fun k => holds (k + 1)) (offset + 1) d hd fun d k b d' hd hk hresponds => by
      rw [Nat.add_right_comm, Nat.add_assoc] at hresponds
      exact hload d (k + 1) b d' hd (Nat.succ_lt_succ hk) hresponds
    refine ⟨huse d hd, Program.Outline.bind (hrest.mono ?_)⟩
    rintro r d ⟨⟨hlength, hr⟩, hd⟩
    refine .done during hd hquiet fun d hd => ⟨huse d hd, ⟨by rw [List.length_cons, hlength], fun k c hc => ?_⟩, hd⟩
    cases k with
    | zero =>
      obtain rfl := Option.some.inj hc
      exact hb
    | succ k => exact hr k c hc

/-- Reading bytes that are the same in every state of the assertion. -/
theorem outline_xrtBORead_of (during : D → Prop) (bytes : ℕ → BitVec 8)
    (hquiet : ∀ d d', during d → quiet d d' → during d') (huse : ∀ d, during d → inv d)
    (size offset : ℕ) (d : D) (hd : during d)
    (hload : ∀ d k b d', during d → k < size → responds d (.load (offset + k)) b d' → b = bytes k ∧ during d') :
    (xrtBORead offset size).Outline quiet responds inv
      (fun r d => r = (List.range size).map bytes ∧ during d) d := by
  refine (outline_xrtBORead_such during (fun k b => b = bytes k) hquiet huse size offset d hd hload).mono ?_
  rintro r d ⟨⟨hlength, hr⟩, hd⟩
  refine ⟨List.ext_getElem (by rw [hlength, List.length_map, List.length_range]) fun k hk _ => ?_, hd⟩
  rw [hr k _ (List.getElem?_eq_getElem hk), List.getElem_map, List.getElem_range]

/-- Reading bytes of which nothing is known. -/
theorem outline_xrtBORead_any (during : D → Prop) (hquiet : ∀ d d', during d → quiet d d' → during d')
    (huse : ∀ d, during d → inv d)
    (hload : ∀ d offset b d', during d → responds d (.load offset) b d' → during d') (size offset : ℕ) (d : D)
    (hd : during d) : (xrtBORead offset size).Outline quiet responds inv (fun _ d => during d) d :=
  (outline_xrtBORead_such during (fun _ _ => True) hquiet huse size offset d hd
    fun d _ b d' hd _ hresponds => ⟨trivial, hload d _ b d' hd hresponds⟩).mono fun _ _ h => h.2

/-- Writing bytes: `during k` holds once `k` bytes were written. -/
theorem outline_xrtBOWrite_of (during : ℕ → D → Prop) (bytes : List (BitVec 8)) (offset : ℕ)
    (hquiet : ∀ k d d', during k d → quiet d d' → during k d') (huse : ∀ k d, during k d → inv d)
    (hstore : ∀ k d b r d', during k d → bytes[k]? = some b → responds d (.store (offset + k) b) r d' →
      during (k + 1) d') :
    ∀ chunk k d, during k d → (∀ i b, chunk[i]? = some b → bytes[k + i]? = some b) →
      (xrtBOWrite (offset + k) chunk).Outline quiet responds inv (fun _ d => during (k + chunk.length) d) d := by
  intro chunk
  induction chunk with
  | nil =>
    intro k d hd _
    exact .done (during k) hd (hquiet k) fun d hd => ⟨huse k d hd, hd⟩
  | cons b chunk ih =>
    intro k d hd hchunk
    refine Program.Outline.bind (Program.Outline.command (R := Access.Response)
      (c := Access.store (offset + k) b) (during k) (fun _ => during (k + 1)) hd (hquiet k) (huse k)
      (fun d r d' hd hresponds => hstore k d b r d' hd (hchunk 0 b rfl) hresponds)
      (fun _ => hquiet (k + 1)) fun _ d hd => ⟨huse (k + 1) d hd, ?_⟩)
    have hrest := ih (k + 1) d hd fun i b' hb => by
      rw [Nat.add_right_comm, Nat.add_assoc]
      exact hchunk (i + 1) b' hb
    rw [List.length_cons, Nat.add_comm chunk.length 1, ← Nat.add_assoc]
    exact hrest

end Memory

section Rules

variable {D J : Type} {v : Device D J} {inv : D → Prop} {d : D}

/-- A register read. -/
theorem outline_readReg {reg : RegAddr} {post : BitVec 32 → D → Prop} (during : D → Prop)
    (after : BitVec 32 → D → Prop) (hd : during d)
    (hquiet : ∀ d d', during d → v.Quiet d d' → during d') (huse : ∀ d, during d → inv d)
    (hread : ∀ d j d', during d → v.Quiet d d' → after (v.readValue d j reg) d')
    (hafter : ∀ r d d', after r d → v.Quiet d d' → after r d')
    (hpost : ∀ r d, after r d → inv d ∧ post r d) :
    (readReg reg).Outline v.Quiet v.Responds inv post d := by
  refine Program.Outline.command (R := Access.Response) (c := Access.readReg reg) during after hd hquiet huse ?_ hafter hpost
  rintro d r d' hduring ⟨g, j, hj, hwHs, hstore, rfl, rfl⟩
  exact hread d j _ hduring ⟨g, j, hj, hwHs, hstore, rfl⟩

/-- A register write. -/
theorem outline_writeReg {reg : RegAddr} {value : BitVec 32} {post : Unit → D → Prop}
    (during after : D → Prop) (hd : during d)
    (hquiet : ∀ d d', during d → v.Quiet d d' → during d') (huse : ∀ d, during d → inv d)
    (hwrite : ∀ d g j, during d → v.legal d j → (v.axi d).wHs g.toAxiLiteMaster = true →
      (v.axi d).waddr = reg → g.wdata = value → g.store = none → after (v.step d g j))
    (hafter : ∀ d d', after d → v.Quiet d d' → after d')
    (hpost : ∀ d, after d → inv d ∧ post () d) :
    (writeReg reg value).Outline v.Quiet v.Responds inv post d := by
  refine Program.Outline.command (R := Access.Response) (c := Access.writeReg reg value) during (fun _ => after) hd hquiet huse ?_
    (fun _ => hafter) fun _ => hpost
  rintro d - d' hduring ⟨g, j, hj, hwHs, haddr, hdata, hstore, rfl⟩
  exact hwrite d g j hduring hj hwHs haddr hdata hstore

/-- Reading bytes that do not change meanwhile. -/
theorem outline_xrtBORead (during : D → Prop) (bytes : ℕ → BitVec 8)
    (hquiet : ∀ d d', during d → v.Quiet d d' → during d') (huse : ∀ d, during d → inv d)
    (size offset : ℕ) (d : D) (hd : during d)
    (hbytes : ∀ d, during d → ∀ k, k < size → v.load d (offset + k) = bytes k) :
    (xrtBORead offset size).Outline v.Quiet v.Responds inv
      (fun r d => r = (List.range size).map bytes ∧ during d) d := by
  refine outline_xrtBORead_of during bytes hquiet huse size offset d hd ?_
  rintro d k b d' hd hk ⟨hq, rfl⟩
  exact ⟨hbytes d hd k hk, hquiet d d' hd hq⟩

/-- Writing bytes while the device may take any quiet step. -/
theorem outline_xrtBOWrite (during : ℕ → D → Prop) (bytes : List (BitVec 8)) (offset : ℕ)
    (hquiet : ∀ k d d', during k d → v.Quiet d d' → during k d') (huse : ∀ k d, during k d → inv d)
    (hstore : ∀ k d g j b, during k d → v.legal d j → (v.axi d).wHs g.toAxiLiteMaster = false →
      bytes[k]? = some b → g.store = some (offset + k, b) → during (k + 1) (v.step d g j))
    (chunk : List (BitVec 8)) (k : ℕ) (d : D) (hd : during k d)
    (hchunk : ∀ i b, chunk[i]? = some b → bytes[k + i]? = some b) :
    (xrtBOWrite (offset + k) chunk).Outline v.Quiet v.Responds inv
      (fun _ d => during (k + chunk.length) d) d := by
  refine outline_xrtBOWrite_of during bytes offset hquiet huse ?_ chunk k d hd hchunk
  rintro k d b r d' hd hb ⟨g, j, hj, hwHs, hwrite, rfl⟩
  exact hstore k d g j b hd hj hwHs hb hwrite

end Rules

end Udriver

end UdpIpCore
