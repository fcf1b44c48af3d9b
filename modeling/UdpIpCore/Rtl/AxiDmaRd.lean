import Mathlib.Data.List.Basic

/-!
# The read DMA

The address side of `axi_dma_rd` and the order of its events. A descriptor asks for one
burst of a whole slot, 256 beats of 8 bytes. The stream ends some cycles after the burst:
its last beat leaves the output FIFO no sooner than two cycles after `rlast`.
-/

namespace UdpIpCore

/-- The registers of `axi_dma_rd` that order its transfers, and the transfers under way. -/
structure AxiDmaRd where
  /-- `s_axis_read_desc_ready_reg`. -/
  readDescReady : Bool
  /-- `axi_state_reg` is `AXI_STATE_START`. -/
  axiStart : Bool
  addr : BitVec 32
  arvalid : Bool
  araddr : BitVec 32
  axisCmdValid : Bool
  /-- `axis_state_reg` is `AXIS_STATE_READ`. -/
  axisRead : Bool
  /-- The beats of the current burst so far. -/
  beats : ℕ
  /-- The addresses of the bursts that were requested and have not ended, in order. -/
  bursts : List (BitVec 32)
  /-- The cycles since the `rlast` of each transfer whose stream has not ended, in order. -/
  streams : List ℕ
deriving DecidableEq

/-- One cycle around the read DMA. -/
structure AxiDmaRdInput where
  arready : Bool
  /-- `m_axi_rvalid` and `m_axi_rready`. -/
  beat : Bool
  /-- The last beat of the stream is taken. -/
  tlastHs : Bool

namespace AxiDmaRd

/-- The beats of a burst. -/
abbrev burstBeats : ℕ := 256

/-- The state after reset. -/
def reset : AxiDmaRd := ⟨false, false, 0, false, 0, false, false, 0, [], []⟩

/-- A descriptor is accepted. -/
def accepts (e : AxiDmaRd) (descValid : Bool) : Bool := !e.axiStart && e.readDescReady && descValid

/-- The last beat of a burst, `m_axi_rlast` with its handshake. -/
def rlastHs (e : AxiDmaRd) (i : AxiDmaRdInput) : Bool := i.beat && decide (e.beats + 1 = burstBeats)

/-- Data arrive only for a requested burst, and a stream ends two cycles after its burst at the
soonest. -/
structure Legal (e : AxiDmaRd) (i : AxiDmaRdInput) : Prop where
  beat : i.beat = true → e.axisRead = true ∧ e.bursts ≠ []
  tlastHs : i.tlastHs = true → ∃ age rest, e.streams = age :: rest ∧ 2 ≤ age

instance (e : AxiDmaRd) (i : AxiDmaRdInput) : Decidable (e.Legal i) :=
  decidable_of_iff ((i.beat = true → e.axisRead = true ∧ e.bursts ≠ []) ∧ (i.tlastHs = true → 2 ≤ e.streams.headD 0))
    ⟨fun h => ⟨h.1, fun htlast => by
      have hage := h.2 htlast
      cases hstreams : e.streams with
      | nil => simp [hstreams] at hage
      | cons age rest => exact ⟨age, rest, rfl, by simpa [hstreams] using hage⟩⟩,
    fun h => ⟨h.beat, fun htlast => by
      obtain ⟨age, rest, hstreams, hage⟩ := h.tlastHs htlast
      simpa [hstreams] using hage⟩⟩

/-- One clock edge. -/
def step (e : AxiDmaRd) (descValid : Bool) (descAddr : BitVec 32) (i : AxiDmaRdInput) : AxiDmaRd where
  readDescReady :=
    if e.axiStart then !e.arvalid && !e.axisCmdValid
    else !e.accepts descValid && !e.axisCmdValid
  axiStart := if e.axiStart then e.arvalid else e.accepts descValid
  addr := if e.accepts descValid then descAddr >>> 3 <<< 3 else e.addr
  arvalid := if e.axiStart && !e.arvalid then true else e.arvalid && !i.arready
  araddr := if e.axiStart && !e.arvalid then e.addr else e.araddr
  axisCmdValid := if e.accepts descValid then true else e.axisCmdValid && e.axisRead
  axisRead := if e.axisRead then !e.rlastHs i else e.axisCmdValid
  beats := if e.rlastHs i then 0 else e.beats + i.beat.toNat
  bursts :=
    (if e.rlastHs i then e.bursts.tail else e.bursts) ++ (if e.arvalid && i.arready then [e.araddr] else [])
  streams :=
    ((if i.tlastHs then e.streams.tail else e.streams) ++ (if e.rlastHs i then [0] else [])).map (· + 1)

/-- The transfers that were accepted and have not ended. -/
def transfers (e : AxiDmaRd) : ℕ := e.streams.length + e.bursts.length + e.arvalid.toNat + e.axiStart.toNat

variable {e : AxiDmaRd} {i : AxiDmaRdInput} {descValid : Bool} {descAddr : BitVec 32}

/-- A stream that ends is one of those under way. -/
theorem Legal.streams_pos (h : e.Legal i) (htlast : i.tlastHs = true) : 0 < e.streams.length := by
  obtain ⟨age, rest, hstreams, -⟩ := h.tlastHs htlast
  rw [hstreams]
  exact Nat.succ_pos _

/-- A burst that ends is one of those under way. -/
theorem Legal.bursts_pos (h : e.Legal i) (hlast : e.rlastHs i = true) : 0 < e.bursts.length :=
  List.length_pos_of_ne_nil (h.beat (Bool.and_eq_true_iff.mp hlast).1).2

/-- The streams under way after a cycle. -/
theorem length_streams_step (h : e.Legal i) (descValid : Bool) (descAddr : BitVec 32) :
    (e.step descValid descAddr i).streams.length + i.tlastHs.toNat = e.streams.length + (e.rlastHs i).toNat := by
  have hstreams : (e.step descValid descAddr i).streams =
      ((if i.tlastHs then e.streams.tail else e.streams) ++ (if e.rlastHs i then [0] else [])).map (· + 1) := rfl
  have hnew : (if e.rlastHs i then [0] else []).length = (e.rlastHs i).toNat := by cases e.rlastHs i <;> rfl
  rw [hstreams, List.length_map, List.length_append, hnew]
  cases htlast : i.tlastHs with
  | false => rfl
  | true =>
    have hpos := h.streams_pos htlast
    rw [if_pos rfl, List.length_tail, Bool.toNat_true]
    omega

/-- The bursts under way after a cycle. -/
theorem length_bursts_step (h : e.Legal i) (descValid : Bool) (descAddr : BitVec 32) :
    (e.step descValid descAddr i).bursts.length + (e.rlastHs i).toNat =
      e.bursts.length + (e.arvalid && i.arready).toNat := by
  have hbursts : (e.step descValid descAddr i).bursts =
      (if e.rlastHs i then e.bursts.tail else e.bursts) ++ (if e.arvalid && i.arready then [e.araddr] else []) := rfl
  have hnew : (if e.arvalid && i.arready then [e.araddr] else []).length = (e.arvalid && i.arready).toNat := by
    cases e.arvalid && i.arready <;> rfl
  rw [hbursts, List.length_append, hnew]
  cases hlast : e.rlastHs i with
  | false => rfl
  | true =>
    have hpos := h.bursts_pos hlast
    rw [if_pos rfl, List.length_tail, Bool.toNat_true]
    omega

/-- A descriptor comes in, its address is asked for and taken. -/
theorem toNat_address_step (e : AxiDmaRd) (i : AxiDmaRdInput) (descValid : Bool) (descAddr : BitVec 32) :
    (e.step descValid descAddr i).arvalid.toNat + (e.step descValid descAddr i).axiStart.toNat +
        (e.arvalid && i.arready).toNat =
      e.arvalid.toNat + e.axiStart.toNat + (e.accepts descValid).toNat := by
  have harvalid : (e.step descValid descAddr i).arvalid =
      if e.axiStart && !e.arvalid then true else e.arvalid && !i.arready := rfl
  have hstart : (e.step descValid descAddr i).axiStart = if e.axiStart then e.arvalid else e.accepts descValid := rfl
  have haccepts : e.axiStart = true → e.accepts descValid = false := by
    intro h
    simp [accepts, h]
  rw [harvalid, hstart]
  cases haxi : e.axiStart <;> cases har : e.arvalid <;> cases hready : i.arready <;> simp [haccepts, haxi, Nat.add_comm]

/-- The transfers under way after a cycle. -/
theorem transfers_step (h : e.Legal i) (descValid : Bool) (descAddr : BitVec 32) :
    (e.step descValid descAddr i).transfers + i.tlastHs.toNat = e.transfers + (e.accepts descValid).toNat := by
  have hstreams := length_streams_step h descValid descAddr
  have hbursts := length_bursts_step h descValid descAddr
  have haddress := toNat_address_step e i descValid descAddr
  simp only [transfers]
  omega

/-- The ready flag is low while a descriptor is being worked on. -/
theorem axiStart_of_ready_step (hready : (e.step descValid descAddr i).readDescReady = true) :
    (e.step descValid descAddr i).axiStart = false := by
  have hnext : (e.step descValid descAddr i).readDescReady =
      if e.axiStart then !e.arvalid && !e.axisCmdValid else !e.accepts descValid && !e.axisCmdValid := rfl
  have hstart : (e.step descValid descAddr i).axiStart = if e.axiStart then e.arvalid else e.accepts descValid := rfl
  rw [hnext] at hready
  rw [hstart]
  cases haxi : e.axiStart <;> simp [haxi] at hready ⊢ <;> exact hready.1

end AxiDmaRd

end UdpIpCore
