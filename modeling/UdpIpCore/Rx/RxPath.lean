import UdpIpCore.Rtl.CircularBuffer
import UdpIpCore.Rtl.DmaWriteControl
import UdpIpCore.Rx.HeaderIntegrity

/-!
# The RX path of the controller

The filter and the header adder, the write DMA control and one ring controller for each
buffer. The write DMA is outside: its stream ready, its descriptor ready and the pushed
pulse of a completed transfer are inputs of each cycle.
-/

namespace UdpIpCore

/-- The registers of the RX path. -/
structure RxPath (R : AxisRegister) where
  front : FrontEnd R
  wrCtrl : DmaWriteControl
  rings : BufferIdx → CircularBuffer bufferRxLength

/-- What surrounds the RX path in one cycle. -/
structure RxCycle where
  front : FrontCycle
  sharedMemBase : BitVec 32
  /-- `dma_wr_ctrl_ready_i`. -/
  wrReady : Bool
  /-- `dma_wr_ctrl_pushed_i`. -/
  pushed : Bool
  /-- The pop pulses of the PS, one per ring. -/
  popped : BufferIdx → Bool

namespace RxPath

variable {R : AxisRegister}

/-- After reset, with an idle source whose header registers hold the fields of `p`. -/
def start (R : AxisRegister) (p : Packet) : RxPath R where
  front := .start R p
  wrCtrl := .reset
  rings := fun _ => .reset _

/-- `buffer_select_idx`. -/
def bufferSelectIdx (t : RxPath R) : BufferIdx := t.front.rx.filter.bufferSelectIdx

/-- `circbuff_rx_data_pushed_arr`: the pulse goes to the ring selected at that moment. -/
def pushedArr (t : RxPath R) (i : RxCycle) (idx : BufferIdx) : Bool :=
  if idx = t.bufferSelectIdx then i.pushed else false

/-- `dma_wr_data_axis_tvalid`. -/
def frameValid (t : RxPath R) : Bool := (R.out t.front.adder.axisRegister).isSome

/-- One clock edge. -/
def step (t : RxPath R) (i : RxCycle) : RxPath R where
  front := t.front.step i.front
  wrCtrl := t.wrCtrl.step i.wrReady t.frameValid i.sharedMemBase t.bufferSelectIdx
    (t.rings t.bufferSelectIdx).headIndex
  rings := fun idx => (t.rings idx).step (t.pushedArr i idx) (i.popped idx)

end RxPath

namespace FrontEnd

variable {R : AxisRegister}

/-- Every finished frame has passed its last beat to the output register. -/
def LastsCounted (t : FrontEnd R) : Prop := (t.out ++ t.held).countP Beat.tlast = t.done.length

/-- The run starts without frames. -/
theorem lastsCounted_start (p : Packet) : (start R p).LastsCounted := by
  simp [LastsCounted, start, held, AxisHeaderAdder.reset, R.contents_reset]

/-- The output register takes a last beat exactly when a frame is finished. -/
theorem lastsCounted_step {t : FrontEnd R} {i : FrontCycle} (h : t.LastsCounted) :
    (t.step i).LastsCounted := by
  have hdone : (t.step i).done.length = t.done.length + if t.finishes then 1 else 0 := by
    cases hfinishes : t.finishes <;> simp [step, hfinishes]
  rw [LastsCounted, out_step, List.countP_append, h, hdone]
  congr 1
  cases hstate : t.adder.state with
  | idle =>
    obtain ⟨-, hfinishes⟩ := taking_of_ne (t := t) (by simp [hstate])
    simp [AxisHeaderAdder.axisForwarded, hstate, AxisRegister.accepted, hfinishes]
  | forwHdr =>
    obtain ⟨-, hfinishes⟩ := taking_of_ne (t := t) (by simp [hstate])
    rw [entering_of_forwHdr hstate, hfinishes]
    split <;> simp [UdpHeader.beat]
  | forwPyl =>
    rw [entering_of_forwPyl hstate, taking, finishes, AxisHeaderAdder.payloadLast,
      AxisRegister.taken]
    change (if t.adder.payloadTready = true then t.filtered.toList else []).countP Beat.tlast = _
    cases t.adder.payloadTready <;> cases t.filtered <;> simp [List.countP_cons]

/-- Between two frames the stream ends with the last beat of one. -/
def EndsFrames (t : FrontEnd R) : Prop :=
  t.adder.state = .idle → ∀ b, (t.out ++ t.held).getLast? = some b → b.tlast = true

/-- The run starts with an empty stream. -/
theorem endsFrames_start (p : Packet) : (start R p).EndsFrames := by
  intro _ b hb
  simp [start, held, AxisHeaderAdder.reset, R.contents_reset] at hb

/-- The adder returns to `STATE_IDLE` with a last beat only. -/
theorem endsFrames_step {t : FrontEnd R} {i : FrontCycle} (h : t.EndsFrames) : (t.step i).EndsFrames := by
  intro hidle b hb
  rw [out_step] at hb
  cases hstate : t.adder.state with
  | idle =>
    rw [AxisHeaderAdder.axisForwarded, hstate, AxisRegister.accepted] at hb
    exact h hstate b (by simpa using hb)
  | forwHdr =>
    rw [step_state_of_forwHdr hstate] at hidle
    split at hidle <;> simp at hidle
  | forwPyl =>
    have hnext : (t.step i).adder.state = if t.finishes then .idle else .forwPyl := by
      rw [step_adder, AxisHeaderAdder.step, AxisHeaderAdder.stateNext, hstate]
      rfl
    have hfinishes : t.finishes = true := by
      by_contra hnot
      simp [hnext, hnot] at hidle
    rw [finishes, AxisHeaderAdder.payloadLast, Bool.and_eq_true] at hfinishes
    obtain ⟨hready, hlast⟩ := hfinishes
    rw [entering_of_forwPyl hstate, taking, AxisRegister.taken, if_pos hready] at hb
    change (_ ++ t.filtered.toList).getLast? = some b at hb
    cases hfiltered : t.filtered with
    | none => simp [hfiltered] at hlast
    | some c =>
      rw [hfiltered, Option.any_some] at hlast
      rw [hfiltered, Option.toList_some, List.getLast?_concat, Option.some.injEq] at hb
      rwa [← hb]

/-- A beat that waits belongs to a frame that was started. -/
theorem lt_length_started {t : FrontEnd R} (hlasts : t.LastsCounted) (hends : t.EndsFrames) (hheld : t.held ≠ []) :
    t.out.countP Beat.tlast < t.started.length := by
  rw [LastsCounted, List.countP_append] at hlasts
  rw [started, List.length_append, List.length_map]
  by_cases hidle : t.adder.state = .idle
  · have hlast := hends hidle (t.held.getLast hheld)
      (by rw [List.getLast?_append, List.getLast?_eq_some_getLast hheld, Option.some_or])
    have hpos : 0 < t.held.countP Beat.tlast := List.countP_pos_iff.mpr ⟨_, List.getLast_mem hheld, hlast⟩
    omega
  · rw [if_neg hidle, List.length_singleton]
    omega

end FrontEnd

end UdpIpCore
