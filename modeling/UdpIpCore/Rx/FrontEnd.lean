import UdpIpCore.Rtl.AxisHeaderAdder
import UdpIpCore.Rx.FilterRun

/-!
# The filter and the header adder in series

The adder consumes the filtered payload and takes the header of the same source. It
decides with the registered test `valid_udp_port_o`, one cycle after the header it
belongs to. The history keeps which packet each output frame was started for and which
payload beats the adder put into it.
-/

namespace UdpIpCore

/-- What surrounds the two modules in one cycle; `hdr` are the `rx_hdr_*` wires. -/
structure FrontCycle where
  config : PortConfig
  hdr : UdpHeader
  drive : Bool
  next : Option Packet
  /-- `dma_wr_data_axis_tready`. -/
  mAxisTready : Bool

/-- The two modules in series, with the history of the output frames. -/
structure FrontEnd (R : AxisRegister) where
  rx : FilterRun R
  adder : AxisHeaderAdder R
  /-- The packet presented in the previous cycle. -/
  prev : Packet
  /-- The packet the adder left `STATE_IDLE` for last. -/
  emitting : Packet
  /-- The payload beats of the frame being emitted. -/
  beats : List Beat
  /-- The finished frames: the packet each was started for and its payload beats. -/
  done : List (Packet × List Beat)
  /-- Beats that left toward the DMA. -/
  out : List Beat

namespace FrontEnd

variable {R : AxisRegister}

/-- After reset, with an idle source whose header registers hold the fields of `p`. -/
def start (R : AxisRegister) (p : Packet) : FrontEnd R where
  rx := .start R p
  adder := .reset R
  prev := p
  emitting := p
  beats := []
  done := []
  out := []

/-- The filter's side of a cycle: the header is taken by `rx_hdr_ready`. -/
def filterCycle (t : FrontEnd R) (i : FrontCycle) : FilterCycle where
  config := i.config
  hdr := i.hdr
  drive := i.drive
  hdrDrop := t.adder.hdrReady
  next := i.next
  mAxisTready := t.adder.payloadTready

/-- The filtered beat presented to the adder. -/
def filtered (t : FrontEnd R) : Option Beat := R.out t.rx.filter.axisRegister

/-- The adder's side of a cycle. -/
def adderIn (t : FrontEnd R) (i : FrontCycle) : AdderIn where
  hdrValidPort := t.rx.filter.validUdpPort
  hdr := i.hdr
  payload := t.filtered
  mAxisTready := i.mAxisTready

/-- The adder leaves `STATE_IDLE` in this cycle. -/
def starts (t : FrontEnd R) : Bool := t.adder.hdrReady && t.rx.filter.validUdpPort

/-- The payload beat the adder takes in this cycle. -/
def taking (t : FrontEnd R) : List Beat := R.taken t.rx.filter.axisRegister t.adder.payloadTready

/-- The adder takes the last beat of a payload. -/
def finishes (t : FrontEnd R) : Bool := t.adder.payloadLast t.filtered

/-- The beats held by the adder's output register. -/
def held (t : FrontEnd R) : List Beat := R.contents t.adder.axisRegister

/-- One clock edge. -/
def step (t : FrontEnd R) (i : FrontCycle) : FrontEnd R where
  rx := t.rx.step (t.filterCycle i)
  adder := t.adder.step (t.adderIn i)
  prev := t.rx.src.pkt
  emitting := if t.starts then t.prev else t.emitting
  beats := if t.finishes then [] else t.beats ++ t.taking
  done := t.done ++ if t.finishes then [(t.emitting, t.beats ++ t.taking)] else []
  out := t.out ++ R.taken t.adder.axisRegister i.mAxisTready

/-- The header fields are stable until the header and the last payload beat were taken. -/
def HeaderStable (t : FrontEnd R) (i : FrontCycle) : Prop :=
  t.rx.src.hdrValid = true ∨ t.rx.src.pos < t.rx.src.pkt.payload.length → i.hdr = t.rx.src.pkt.hdr

instance (t : FrontEnd R) (i : FrontCycle) : Decidable (t.HeaderStable i) :=
  inferInstanceAs (Decidable (_ ∨ _ → _))

/-- The environment of the two modules in one cycle. -/
def EnvLegal (t : FrontEnd R) (i : FrontCycle) : Prop :=
  t.rx.SourceLegal (t.filterCycle i) ∧ t.HeaderStable i

instance (t : FrontEnd R) (i : FrontCycle) : Decidable (t.EnvLegal i) :=
  inferInstanceAs (Decidable (_ ∧ _))

/-- The packets the adder left `STATE_IDLE` for, in order. -/
def started (t : FrontEnd R) : List Packet :=
  t.done.map Prod.fst ++ if t.adder.state = .idle then [] else [t.emitting]

/-- The live test of the presented port, `valid_udp_port`. -/
def liveValid (i : FrontCycle) : Bool := i.config.validUdpPort i.hdr.destPort

/-- The payload beats the adder has taken are whole payloads and the beginning of one more. -/
structure Framed (t : FrontEnd R) : Prop where
  paired : ∀ frame ∈ t.done, frame.2 = frame.1.payload
  left : t.rx.left = t.done.flatMap Prod.snd ++ t.beats
  header : t.adder.state ≠ .forwPyl → t.beats = []
  moving : t.adder.state = .forwPyl → t.beats = t.emitting.payload.take t.beats.length ∧
    t.beats.length < t.emitting.payload.length

/-- The run starts without frames. -/
theorem framed_start (p : Packet) : (start R p).Framed where
  paired := by simp [start]
  left := by simp [start, FilterRun.start]
  header := fun _ => rfl
  moving := by simp [start, AxisHeaderAdder.reset]

section Cycle

variable {t : FrontEnd R} {i : FrontCycle}

theorem step_rx : (t.step i).rx = t.rx.step (t.filterCycle i) := rfl

theorem step_adder : (t.step i).adder = t.adder.step (t.adderIn i) := rfl

theorem step_prev : (t.step i).prev = t.rx.src.pkt := rfl

/-- Without an announcement the header stays up until the adder is ready for it. -/
theorem src_step_of_none (h : i.next = none) : (t.step i).rx.src =
    ⟨t.rx.src.hdrValid && !t.adder.hdrReady, false, t.rx.src.pkt,
      t.rx.src.posNext (t.rx.accepted (t.filterCycle i))⟩ :=
  FilterRun.src_step_of_none (i := t.filterCycle i) h

/-- While the port is checked the packet stays the current one. -/
theorem src_step_of_checkPort (h : t.rx.Stage) (hlegal : t.EnvLegal i)
    (hstate : t.rx.filter.state = .checkPort) : (t.step i).rx.src =
      ⟨t.rx.src.hdrValid && !t.adder.hdrReady, false, t.rx.src.pkt, 0⟩ :=
  FilterRun.src_step_of_checkPort h hlegal.1 hstate

/-- The registered test follows the live one while the header is up. -/
theorem step_validUdpPort :
    (t.step i).rx.filter.validUdpPort = (liveValid i && t.rx.src.hdrValid) := rfl

/-- Payload is left while the port is checked or the payload moves. -/
theorem pos_lt_of_stage (h : t.rx.Stage) (hstate : t.rx.filter.state ≠ .idle) :
    t.rx.src.pos < t.rx.src.pkt.payload.length := by
  cases h with
  | quiet hidle | announced hidle => exact absurd hidle hstate
  | checking _ _ hpos => rw [hpos]; exact t.rx.src.pkt.nonempty
  | moving _ _ hpos => exact hpos

/-- The port that is checked is that of the current packet. -/
theorem destPort_of_checkPort (h : t.rx.Stage) (hstable : t.HeaderStable i)
    (hcheck : t.rx.filter.state = .checkPort) : i.hdr.destPort = t.rx.src.pkt.hdr.destPort := by
  rw [hstable (Or.inr (pos_lt_of_stage h (by simp [hcheck])))]

/-- The adder is ready for a header only in `STATE_IDLE`. -/
theorem idle_of_hdrReady {a : AxisHeaderAdder R} (h : a.hdrReady = true) : a.state = .idle := by
  cases hstate : a.state with
  | idle => rfl
  | forwHdr | forwPyl => simp [AxisHeaderAdder.hdrReady, hstate] at h

/-- The adder finishes only in `STATE_FORW_PYL`. -/
theorem forwPyl_of_finishes (h : t.finishes = true) : t.adder.state = .forwPyl := by
  cases hstate : t.adder.state with
  | forwPyl => rfl
  | idle | forwHdr =>
    simp [finishes, AxisHeaderAdder.payloadLast, AxisHeaderAdder.payloadTready, hstate] at h

/-- The adder leaves `STATE_IDLE` exactly when a header is ready to be taken and its port is valid. -/
theorem step_state_of_idle (h : t.adder.state = .idle) :
    (t.step i).adder.state = if t.starts then .forwHdr else .idle := by
  rw [step_adder, AxisHeaderAdder.step, AxisHeaderAdder.stateNext, h]
  rfl

/-- Started frames are counted once: a start appends the packet presented one cycle before. -/
theorem started_step : (t.step i).started = t.started ++ if t.starts then [t.prev] else [] := by
  cases hstate : t.adder.state with
  | idle =>
    have hnot : t.finishes = false := by
      by_contra h
      simp [forwPyl_of_finishes (by simpa using h)] at hstate
    have hnext := step_state_of_idle (i := i) hstate
    rw [started, hnext, started, hstate]
    cases hstarts : t.starts <;> simp [step, hnot, hstarts]
  | forwHdr =>
    have hnot : t.finishes = false := by
      by_contra h
      simp [forwPyl_of_finishes (by simpa using h)] at hstate
    have hstarts : t.starts = false := by simp [starts, AxisHeaderAdder.hdrReady, hstate]
    have hnext : (t.step i).adder.state ≠ .idle := by
      rw [step_adder, AxisHeaderAdder.step, AxisHeaderAdder.stateNext, hstate]
      dsimp only
      split <;> simp
    rw [started, if_neg hnext, started, hstate]
    simp [step, hnot, hstarts]
  | forwPyl =>
    have hstarts : t.starts = false := by simp [starts, AxisHeaderAdder.hdrReady, hstate]
    have hnext : (t.step i).adder.state = if t.finishes then .idle else .forwPyl := by
      rw [step_adder, AxisHeaderAdder.step, AxisHeaderAdder.stateNext, hstate]
      rfl
    rw [started, hnext, started, hstate]
    cases hfinishes : t.finishes <;> simp [step, hfinishes, hstarts]

/-- An adder that is ready and does not start stays ready. -/
theorem hdrReady_step (h : t.adder.hdrReady = true) (hstarts : t.starts = false) :
    (t.step i).adder.hdrReady = true := by
  have hidle := idle_of_hdrReady h
  have hnext := step_state_of_idle (i := i) hidle
  rw [hstarts, if_neg (by simp)] at hnext
  have hready : R.tready t.adder.axisRegister = true := by
    simpa [AxisHeaderAdder.hdrReady, AxisHeaderAdder.forwardedTready, hidle] using h
  rw [AxisHeaderAdder.hdrReady, hnext]
  simp only [AxisHeaderAdder.forwardedTready, step_adder, AxisHeaderAdder.step,
    AxisHeaderAdder.axisForwarded, hidle]
  exact R.tready_stable _ _ hready

/-- After a start the adder is busy with the header. -/
theorem not_starts_of_starts (h : t.starts = true) : (t.step i).starts = false := by
  have hready : t.adder.hdrReady = true := by
    rw [starts, Bool.and_eq_true] at h
    exact h.1
  have hnext := step_state_of_idle (i := i) (idle_of_hdrReady hready)
  rw [if_pos h] at hnext
  rw [starts, AxisHeaderAdder.hdrReady, hnext, Bool.false_and]

/-- The beat the filter presents is the next one of the payload that belongs to the header. -/
theorem filtered_eq {b : Beat} (h : t.Framed) (hconserved : t.rx.Conserved)
    (hbehind : t.started <+: t.rx.checked) (hstate : t.adder.state = .forwPyl)
    (hfiltered : t.filtered = some b) : t.emitting.payload[t.beats.length]? = some b := by
  have hpayloads : t.done.flatMap Prod.snd = (t.done.map Prod.fst).flatMap Packet.payload := by
    rw [List.flatMap_map]
    exact List.flatMap_congr h.paired
  obtain ⟨more, hmore⟩ := hbehind
  obtain ⟨rest, hrest⟩ := FilterRun.prefix_of_conserved hconserved
  obtain ⟨held, hheld⟩ : ∃ held, t.rx.held = b :: held := by
    have hhead := R.out_head _ b hfiltered
    cases hcontents : R.contents t.rx.filter.axisRegister with
    | nil => simp [hcontents] at hhead
    | cons c held =>
      simp only [hcontents, List.head?_cons, Option.some.injEq] at hhead
      exact ⟨held, by rw [FilterRun.held, hcontents, hhead]⟩
  have hstarted : t.started = t.done.map Prod.fst ++ [t.emitting] := by simp [started, hstate]
  rw [← hmore, hstarted, h.left, hpayloads, hheld] at hrest
  simp only [List.flatMap_append, List.flatMap_cons, List.flatMap_nil,
    List.append_assoc, List.append_cancel_left_eq, List.cons_append] at hrest
  have hnext := congrArg (fun beats => beats[t.beats.length]?) hrest
  simp only [List.getElem?_append_right (Nat.le_refl _), Nat.sub_self, List.getElem?_cons_zero] at hnext
  rw [List.getElem?_append_left (h.moving hstate).2] at hnext
  exact hnext.symm

/-- Nothing is taken outside `STATE_FORW_PYL`. -/
theorem taking_of_ne (h : t.adder.state ≠ .forwPyl) : t.taking = [] ∧ t.finishes = false := by
  have hready : t.adder.payloadTready = false := by
    cases hstate : t.adder.state with
    | forwPyl => exact absurd hstate h
    | idle | forwHdr => simp [AxisHeaderAdder.payloadTready, hstate]
  simp [taking, AxisRegister.taken, finishes, AxisHeaderAdder.payloadLast, hready]

/-- In a cycle without a taken beat the frames stay as they are. -/
theorem framed_step_of_none (h : t.Framed) (htaking : t.taking = []) (hfinishes : t.finishes = false)
    (hheader : (t.step i).adder.state ≠ .forwPyl → t.beats = [])
    (hmoving : (t.step i).adder.state = .forwPyl →
      t.beats = (t.step i).emitting.payload.take t.beats.length ∧
        t.beats.length < (t.step i).emitting.payload.length) : (t.step i).Framed := by
  have hbeats : (t.step i).beats = t.beats := by simp [step, htaking, hfinishes]
  have hdone : (t.step i).done = t.done := by simp [step, hfinishes]
  have hleft : (t.step i).rx.left = t.rx.left := by
    change t.rx.left ++ t.taking = _
    rw [htaking, List.append_nil]
  exact ⟨by rw [hdone]; exact h.paired, by rw [hleft, hdone, hbeats]; exact h.left,
    by rw [hbeats]; exact hheader, by rw [hbeats]; exact hmoving⟩

/-- Each cycle extends the current frame by its own payload. -/
theorem framed_step (h : t.Framed) (hconserved : t.rx.Conserved)
    (hbehind : t.started <+: t.rx.checked) : (t.step i).Framed := by
  cases hstate : t.adder.state with
  | idle =>
    have hbeats := h.header (by simp [hstate])
    obtain ⟨htaking, hfinishes⟩ := taking_of_ne (t := t) (by simp [hstate])
    refine framed_step_of_none h htaking hfinishes (fun _ => hbeats) fun hnext => ?_
    rw [step_state_of_idle hstate] at hnext
    split at hnext <;> simp at hnext
  | forwHdr =>
    have hbeats := h.header (by simp [hstate])
    obtain ⟨htaking, hfinishes⟩ := taking_of_ne (t := t) (by simp [hstate])
    refine framed_step_of_none h htaking hfinishes (fun _ => hbeats) fun _ => ?_
    rw [hbeats]
    exact ⟨rfl, (t.step i).emitting.nonempty⟩
  | forwPyl =>
    have hstarts : t.starts = false := by simp [starts, AxisHeaderAdder.hdrReady, hstate]
    have hemitting : (t.step i).emitting = t.emitting := by simp [step, hstarts]
    have hnext : (t.step i).adder.state = if t.finishes then .idle else .forwPyl := by
      rw [step_adder, AxisHeaderAdder.step, AxisHeaderAdder.stateNext, hstate]
      rfl
    obtain ⟨htake, hlength⟩ := h.moving hstate
    by_cases htaken : t.adder.payloadTready = true ∧ t.filtered.isSome = true
    · obtain ⟨b, hb⟩ := Option.isSome_iff_exists.mp htaken.2
      have hbeat := filtered_eq h hconserved hbehind hstate hb
      have htaking : t.taking = [b] := by
        rw [taking, AxisRegister.taken, if_pos htaken.1]
        change t.filtered.toList = [b]
        rw [hb, Option.toList_some]
      rw [List.getElem?_eq_getElem hlength, Option.some.injEq] at hbeat
      have hextend : t.beats ++ [b] = t.emitting.payload.take (t.beats.length + 1) := by
        conv_lhs => rw [htake]
        rw [← hbeat, List.take_append_getElem hlength]
      have hfinishes : t.finishes = decide (t.beats.length + 1 = t.emitting.payload.length) := by
        rw [finishes, AxisHeaderAdder.payloadLast, htaken.1, hb, Option.any_some, Bool.true_and,
          ← hbeat, t.emitting.framed _ hlength]
      have hleft : (t.step i).rx.left = t.rx.left ++ [b] := by rw [← htaking]; rfl
      by_cases hlast : t.beats.length + 1 = t.emitting.payload.length
      · rw [decide_eq_true hlast] at hfinishes
        have hdone : (t.step i).done = t.done ++ [(t.emitting, t.beats ++ [b])] := by
          simp [step, hfinishes, htaking]
        have hbeats : (t.step i).beats = [] := by simp [step, hfinishes]
        refine ⟨?_, ?_, fun _ => hbeats, by simp [hnext, hfinishes]⟩
        · intro frame hframe
          rw [hdone, List.mem_append, List.mem_singleton] at hframe
          rcases hframe with hframe | rfl
          · exact h.paired frame hframe
          · rw [hextend, hlast, List.take_length]
        · rw [hleft, hdone, hbeats, h.left]
          simp
      · rw [decide_eq_false hlast] at hfinishes
        have hdone : (t.step i).done = t.done := by simp [step, hfinishes]
        have hbeats : (t.step i).beats = t.beats ++ [b] := by simp [step, hfinishes, htaking]
        refine ⟨by rw [hdone]; exact h.paired, ?_, by simp [hnext, hfinishes], fun _ => ?_⟩
        · rw [hleft, hdone, hbeats, h.left, List.append_assoc]
        · rw [hbeats, hemitting, List.length_append, List.length_singleton]
          exact ⟨hextend, by omega⟩
    · have hnone : t.taking = [] ∧ t.finishes = false := by
        rw [taking, AxisRegister.taken, finishes, AxisHeaderAdder.payloadLast]
        change (if t.adder.payloadTready = true then t.filtered.toList else []) = [] ∧ _
        cases hready : t.adder.payloadTready with
        | false => simp
        | true =>
          have hfiltered : t.filtered = none := by simpa [hready] using htaken
          simp [hfiltered]
      refine framed_step_of_none h hnone.1 hnone.2 ?_ fun _ => ?_
      · simp [hnext, hnone.2]
      · rw [hemitting]
        exact ⟨htake, hlength⟩

end Cycle

end FrontEnd

end UdpIpCore
