import UdpIpCore.Framing
import UdpIpCore.Rx.Pairing

/-!
# The header in front of a payload

Under a constant configuration the two samples of the port test always agree. The frames
the adder emits are then the forwarded packets with their own headers, as long as the
header fields it reads word by word are still those of the packet it emits.
-/

namespace UdpIpCore

/-- A packet as it is written to memory: the header words, then the payload. -/
def Packet.frame (p : Packet) : List Beat := p.hdr.beats ++ p.payload

/-- It ends with its only last beat. -/
theorem Packet.frame_framed (p : Packet) : Framing.Frame Beat.tlast p.frame := by
  have hpos := p.nonempty
  have hlast : p.payload.length - 1 < p.payload.length := by omega
  refine ⟨p.hdr.beats ++ p.payload.take (p.payload.length - 1), p.payload[p.payload.length - 1], ?_, ?_, ?_⟩
  · rw [Packet.frame, List.append_assoc, List.take_append_getElem hlast]
    exact congrArg _ (List.take_of_length_le (by omega)).symm
  · rw [p.framed _ hlast]
    simp
    omega
  · intro b hb
    rw [List.mem_append] at hb
    rcases hb with hheader | hpayload
    · obtain ⟨k, -, rfl⟩ := List.mem_map.mp hheader
      rfl
    · obtain ⟨k, hk, rfl⟩ := List.mem_take_iff_getElem.mp hpayload
      rw [p.framed k (by omega)]
      simp
      omega

namespace FrontEnd

variable {R : AxisRegister}

/-- The two modules under a constant configuration. -/
def under (R : AxisRegister) (c : PortConfig) : Clocked.Machine (FrontEnd R) FrontCycle :=
  (machine R).restrict fun _ i => i.config = c

instance (c : PortConfig) (t : FrontEnd R) (i : FrontCycle) : Decidable ((under R c).legal t i) :=
  inferInstanceAs (Decidable (t.EnvLegal i ∧ i.config = c))

/-- The part of the current frame that was passed to the output register. -/
def frameSoFar (t : FrontEnd R) : List Beat :=
  match t.adder.state with
  | .idle => []
  | .forwHdr => t.emitting.hdr.beats.take t.adder.countHeader.toNat
  | .forwPyl => t.emitting.hdr.beats ++ t.beats

/-- Every forwarded payload is preceded by the header of its packet. -/
structure HeadersIntact (t : FrontEnd R) (_ : FrontCycle) : Prop where
  /-- The output is the frames of the packets the adder started for. -/
  frames : t.out ++ t.held = (t.done.map Prod.fst).flatMap Packet.frame ++ t.frameSoFar
  /-- These packets are the forwarded ones, in order, and none is missed. -/
  order : t.started <+: t.rx.checked
  /-- Their payloads are what the filter emitted. -/
  payloads : t.rx.left = (t.done.map Prod.fst).flatMap Packet.payload ++ t.beats

/-- The branch that goes wrong is not taken: no header is checked twice and each word is sent while
the presented field still is that of the packet whose frame is emitted. -/
structure HeaderHeld (t : FrontEnd R) (i : FrontCycle) : Prop where
  seenOnce : t.rx.SeenOnce (t.filterCycle i)
  ownWord : t.adder.state = .forwHdr → t.adder.forwardedTready = true →
    i.hdr.word t.adder.countHeader.toNat = t.emitting.hdr.word t.adder.countHeader.toNat

/-- The registered test is that of the current packet from the check until the header is taken. -/
structure Steady (c : PortConfig) (t : FrontEnd R) : Prop where
  registered : t.rx.filter.state = .checkPort ∨
      (t.rx.src.fresh = false ∧ t.rx.src.hdrValid = true) →
    t.rx.filter.validUdpPort = c.validUdpPort t.rx.src.pkt.hdr.destPort
  forward : t.rx.filter.state = .forward → c.validUdpPort t.rx.src.pkt.hdr.destPort = true
  discard : t.rx.filter.state = .discard → c.validUdpPort t.rx.src.pkt.hdr.destPort = false

/-- What was passed to the output register is the frames so far. -/
structure Emitted (t : FrontEnd R) : Prop where
  out : t.out ++ t.held = t.done.flatMap (fun frame => frame.1.hdr.beats ++ frame.2) ++ t.frameSoFar
  idle : t.adder.state = .idle → t.adder.countHeader = 0
  header : t.adder.state = .forwHdr → t.adder.countHeader.toNat < UdpHeader.numWords

section Cycle

variable {c : PortConfig} {t : FrontEnd R} {i : FrontCycle}

/-- The live test is that of the current packet while its header or payload is still to be taken. -/
theorem liveValid_eq (hlegal : (under R c).legal t i)
    (h : t.rx.src.hdrValid = true ∨ t.rx.src.pos < t.rx.src.pkt.payload.length) :
    liveValid i = c.validUdpPort t.rx.src.pkt.hdr.destPort := by
  rw [liveValid, hlegal.2, hlegal.1.2 h]

/-- Under a constant configuration the samples agree. -/
theorem samplesAgree_of_steady (h : t.Steady c) (hstage : t.rx.Stage)
    (hlegal : (under R c).legal t i) (honce : t.rx.SeenOnce (t.filterCycle i)) :
    t.SamplesAgree i := by
  have hlive (hstate : t.rx.filter.state ≠ .idle) :
      liveValid i = c.validUdpPort t.rx.src.pkt.hdr.destPort :=
    liveValid_eq hlegal (Or.inr (pos_lt_of_stage hstage hstate))
  have hsettled (hstate : t.rx.filter.state = .forward ∨ t.rx.filter.state = .discard) :
      t.rx.src.fresh = false := by
    cases hstage with
    | quiet hidle | announced hidle | checking hidle => simp [hidle] at hstate
    | moving _ hfresh => exact hfresh
  refine ⟨honce, fun hstate _ => ?_, fun hstate _ _ hregistered => ?_, fun hstate hvalid _ => ?_,
    fun hstate hvalid _ => ?_⟩
  · rw [hlive (by simp [hstate]), h.registered (Or.inl hstate)]
  · rw [hlive (by simp [hstate]), ← h.registered (Or.inl hstate), hregistered]
  · rw [h.registered (Or.inr ⟨hsettled (Or.inl hstate), hvalid⟩)]
    exact Or.inl (h.forward hstate)
  · rw [h.registered (Or.inr ⟨hsettled (Or.inr hstate), hvalid⟩), hlive (by simp [hstate])]
    exact ⟨h.discard hstate, h.discard hstate⟩

/-- A packet that moves was found valid or invalid under the constant configuration. -/
theorem decided_step (h : t.Steady c) (hstage : t.rx.Stage) (hlegal : (under R c).legal t i) :
    ((t.step i).rx.filter.state = .forward →
      c.validUdpPort (t.step i).rx.src.pkt.hdr.destPort = true) ∧
    ((t.step i).rx.filter.state = .discard →
      c.validUdpPort (t.step i).rx.src.pkt.hdr.destPort = false) := by
  by_cases hcheck : t.rx.filter.state = .checkPort
  · have hlive := liveValid_eq hlegal (Or.inr (pos_lt_of_stage hstage (by simp [hcheck])))
    have hnext : (t.step i).rx.filter.state = if liveValid i then .forward else .discard :=
      FilterRun.state_step_of_checkPort hcheck
    rw [src_step_of_checkPort hstage hlegal.1 hcheck, hnext, hlive]
    cases c.validUdpPort t.rx.src.pkt.hdr.destPort <;> simp
  · have hsame := FilterRun.moving_of_step hstage hlegal.1.1 hcheck
    refine ⟨fun hforward => ?_, fun hdiscard => ?_⟩
    · obtain ⟨hstate, hpkt⟩ := hsame (Or.inl hforward)
      rw [step_rx, hpkt]
      exact h.forward (hstate.symm.trans hforward)
    · obtain ⟨hstate, hpkt⟩ := hsame (Or.inr hdiscard)
      rw [step_rx, hpkt]
      exact h.discard (hstate.symm.trans hdiscard)

/-- The registered test follows the current packet. -/
theorem steady_step (h : t.Steady c) (hstage : t.rx.Stage) (hlegal : (under R c).legal t i)
    (honce : t.rx.SeenOnce (t.filterCycle i)) : (t.step i).Steady c := by
  obtain ⟨hforward, hdiscard⟩ := decided_step h hstage hlegal
  have hup (hnone : i.next = none) (hvalid : t.rx.src.hdrValid = true) :
      (t.step i).rx.filter.validUdpPort = c.validUdpPort (t.step i).rx.src.pkt.hdr.destPort := by
    rw [step_validUdpPort, hvalid, Bool.and_true, liveValid_eq hlegal (Or.inl hvalid),
      src_step_of_none hnone]
  refine ⟨?_, hforward, hdiscard⟩
  rintro (hcheck | ⟨hfresh, hvalid⟩)
  · have hidle : t.rx.filter.state = .idle := by
      by_contra hidle
      exact state_step_ne_checkPort hidle hcheck
    have hvalid : t.rx.src.hdrValid = true := by
      by_contra hvalid
      rw [Bool.not_eq_true] at hvalid
      rw [step_rx, FilterRun.state_step, AxisUdpPortFilter.stateNext, hidle] at hcheck
      simp [FilterRun.filterIn, hvalid] at hcheck
    refine hup (FilterRun.next_of_left hlegal.1.1 ?_) hvalid
    cases hstage with
    | quiet _ _ hpos =>
      have := honce hidle hvalid
      omega
    | announced _ hfresh _ hpos =>
      rw [FilterRun.accepted_of_none (FilterRun.payload_of_fresh hlegal.1.1 hfresh), Source.posNext, hpos]
      exact t.rx.src.pkt.nonempty
    | checking hstate => simp [hidle] at hstate
    | moving hstate => simp [hidle] at hstate
  · cases hnext : i.next with
    | some p =>
      rw [step_rx, FilterRun.src_step_of_some (i := t.filterCycle i) hnext] at hfresh
      simp at hfresh
    | none =>
      rw [src_step_of_none hnext, Bool.and_eq_true] at hvalid
      exact hup hnext hvalid.1

/-- Outside `STATE_FORW_HDR` the counter is cleared. -/
theorem countHeader_step_of_ne (h : t.adder.state ≠ .forwHdr) : (t.step i).adder.countHeader = 0 := by
  rw [step_adder, AxisHeaderAdder.step, AxisHeaderAdder.countHeaderNext, if_neg h]

/-- In `STATE_FORW_HDR` an accepted beat counts. -/
theorem countHeader_step_of_forwHdr (h : t.adder.state = .forwHdr) : (t.step i).adder.countHeader =
    if t.adder.forwardedTready then t.adder.countHeader + 1 else t.adder.countHeader := by
  rw [step_adder, AxisHeaderAdder.step, AxisHeaderAdder.countHeaderNext, if_pos h]

/-- The adder goes on to the payload with the fifth accepted word. -/
theorem step_state_of_forwHdr (h : t.adder.state = .forwHdr) : (t.step i).adder.state =
    if t.adder.countHeader = 4 ∧ t.adder.forwardedTready = true then .forwPyl else .forwHdr := by
  rw [step_adder, AxisHeaderAdder.step, AxisHeaderAdder.stateNext, h]

/-- In `STATE_FORW_HDR` the output register takes the word of the live fields. -/
theorem entering_of_forwHdr (h : t.adder.state = .forwHdr) :
    R.accepted t.adder.axisRegister (t.adder.axisForwarded (t.adderIn i)) =
      if t.adder.forwardedTready then [i.hdr.beat t.adder.countHeader.toNat] else [] := by
  rw [AxisHeaderAdder.axisForwarded, h]
  rfl

/-- In `STATE_FORW_PYL` the output register takes exactly what is taken from the filter. -/
theorem entering_of_forwPyl (h : t.adder.state = .forwPyl) :
    R.accepted t.adder.axisRegister (t.adder.axisForwarded (t.adderIn i)) = t.taking := by
  rw [AxisHeaderAdder.axisForwarded, h, taking, AxisHeaderAdder.payloadTready, h]
  rfl

/-- In each cycle the output register takes the next part of the frames. -/
theorem out_step : (t.step i).out ++ (t.step i).held = t.out ++ t.held ++
    R.accepted t.adder.axisRegister (t.adder.axisForwarded (t.adderIn i)) := by
  have hregister := R.conservation t.adder.axisRegister (t.adder.axisForwarded (t.adderIn i)) i.mAxisTready
  calc
    (t.step i).out ++ (t.step i).held
      = t.out ++ (R.taken t.adder.axisRegister i.mAxisTready ++
          R.contents (R.step t.adder.axisRegister (t.adder.axisForwarded (t.adderIn i)) i.mAxisTready)) :=
        List.append_assoc _ _ _
    _ = t.out ++ t.held ++
          R.accepted t.adder.axisRegister (t.adder.axisForwarded (t.adderIn i)) := by
        rw [hregister, ← List.append_assoc, held]

/-- The words of the header are sent one by one, each as long as the output stalls. -/
theorem emitted_step (h : t.Emitted) (hframed : t.Framed) (hheld : t.HeaderHeld i) :
    (t.step i).Emitted := by
  have hout := out_step (t := t) (i := i)
  rw [h.out] at hout
  cases hstate : t.adder.state with
  | idle =>
    obtain ⟨-, hfinishes⟩ := taking_of_ne (t := t) (by simp [hstate])
    have hnext := step_state_of_idle (i := i) hstate
    have hcount : (t.step i).adder.countHeader = 0 := countHeader_step_of_ne (by simp [hstate])
    have hsoFar : (t.step i).frameSoFar = [] := by
      rw [frameSoFar, hnext, hcount]
      cases t.starts <;> simp
    refine ⟨?_, fun _ => hcount, fun _ => by rw [hcount]; decide⟩
    rw [hout, hsoFar]
    simp [step, hfinishes, frameSoFar, hstate, AxisHeaderAdder.axisForwarded, AxisRegister.accepted]
  | forwHdr =>
    obtain ⟨htaking, hfinishes⟩ := taking_of_ne (t := t) (by simp [hstate])
    have hbeats : (t.step i).beats = [] := by
      simp [step, htaking, hfinishes, hframed.header (by simp [hstate])]
    have hdone : (t.step i).done = t.done := by simp [step, hfinishes]
    have hemitting : (t.step i).emitting = t.emitting := by
      simp [step, starts, AxisHeaderAdder.hdrReady, hstate]
    have hnext := step_state_of_forwHdr (i := i) hstate
    have hcount := countHeader_step_of_forwHdr (i := i) hstate
    have hlt := h.header hstate
    rw [frameSoFar, hstate, entering_of_forwHdr hstate] at hout
    cases hready : t.adder.forwardedTready with
    | false =>
      rw [hready, if_neg (by simp)] at hcount hout
      rw [hready, if_neg (by simp)] at hnext
      refine ⟨?_, by simp [hnext], fun _ => by rw [hcount]; exact hlt⟩
      rw [hout, hdone, frameSoFar, hnext, hcount, hemitting, List.append_nil]
    | true =>
      have hword : i.hdr.beat t.adder.countHeader.toNat = t.emitting.hdr.beat t.adder.countHeader.toNat := by
        rw [UdpHeader.beat, hheld.ownWord hstate hready, ← UdpHeader.beat]
      rw [hready, if_pos rfl] at hcount hout
      rw [hword, List.append_assoc, UdpHeader.take_beats_succ _ hlt] at hout
      by_cases hlast : t.adder.countHeader = 4
      · rw [if_pos ⟨hlast, hready⟩] at hnext
        refine ⟨?_, by simp [hnext], by simp [hnext]⟩
        have hall : t.emitting.hdr.beats.take (t.adder.countHeader.toNat + 1) = t.emitting.hdr.beats := by
          rw [hlast]
          exact List.take_of_length_le (Nat.le_of_eq (UdpHeader.length_beats _))
        rw [hout, hdone, frameSoFar, hnext, hemitting, hbeats, hall, List.append_nil]
      · rw [if_neg (fun hboth => hlast hboth.1)] at hnext
        have hadd : (t.adder.countHeader + 1).toNat = t.adder.countHeader.toNat + 1 := by
          simp only [UdpHeader.numWords] at hlt
          rw [BitVec.toNat_add]
          simp
          omega
        refine ⟨?_, by simp [hnext], fun _ => ?_⟩
        · rw [hout, hdone, frameSoFar, hnext, hcount, hemitting, hadd]
        · rw [hcount, hadd]
          have hne : t.adder.countHeader.toNat ≠ 4 := fun hfour =>
            hlast (BitVec.eq_of_toNat_eq hfour)
          simp only [UdpHeader.numWords] at hlt ⊢
          omega
  | forwPyl =>
    have hstarts : t.starts = false := by simp [starts, AxisHeaderAdder.hdrReady, hstate]
    have hnext : (t.step i).adder.state = if t.finishes then .idle else .forwPyl := by
      rw [step_adder, AxisHeaderAdder.step, AxisHeaderAdder.stateNext, hstate]
      rfl
    have hcount : (t.step i).adder.countHeader = 0 := countHeader_step_of_ne (by simp [hstate])
    rw [frameSoFar, hstate, entering_of_forwPyl hstate, List.append_assoc, List.append_assoc] at hout
    refine ⟨?_, fun _ => hcount, fun _ => by rw [hcount]; decide⟩
    rw [hout, frameSoFar, hnext]
    cases hfinishes : t.finishes <;> simp [step, hfinishes, hstarts]

end Cycle

/-- What left toward the DMA begins the frames of the packets the adder started for. -/
theorem out_isPrefix {t : FrontEnd R} (h : t.Emitted) (hframed : t.Framed) :
    t.out <+: (t.started.map Packet.frame).flatten := by
  have hdone : t.done.flatMap (fun frame => frame.1.hdr.beats ++ frame.2) =
      ((t.done.map Prod.fst).map Packet.frame).flatten := by
    rw [List.map_map, ← List.flatMap_def]
    exact List.flatMap_congr fun frame hframe => by rw [hframed.paired frame hframe]; rfl
  have hsoFar : t.frameSoFar <+:
      ((if t.adder.state = .idle then [] else [t.emitting]).map Packet.frame).flatten := by
    cases hstate : t.adder.state with
    | idle => simp [frameSoFar, hstate]
    | forwHdr =>
      simp only [frameSoFar, hstate, reduceCtorEq, if_false, List.map_singleton, List.flatten_singleton]
      exact (List.take_prefix _ _).trans (List.prefix_append _ _)
    | forwPyl =>
      simp only [frameSoFar, hstate, reduceCtorEq, if_false, List.map_singleton, List.flatten_singleton]
      refine (List.prefix_append_right_inj _).mpr ?_
      rw [(hframed.moving hstate).1]
      exact List.take_prefix _ _
  rw [started, List.map_append, List.flatten_append, ← hdone]
  refine (List.prefix_append t.out t.held).trans ?_
  rw [h.out]
  exact (List.prefix_append_right_inj _).mpr hsoFar

/-- What holds between any two cycles of a run that keeps its headers. -/
structure Intact (c : PortConfig) (t : FrontEnd R) : Prop where
  aligned : t.Aligned
  steady : t.Steady c
  emitted : t.Emitted

/-- The run starts with no test registered. -/
theorem steady_start (c : PortConfig) (p : Packet) : (start R p).Steady c := by
  refine ⟨?_, ?_, ?_⟩ <;> simp [start, FilterRun.start, AxisUdpPortFilter.reset, Source.quiet]

/-- The run starts with an empty output. -/
theorem emitted_start (p : Packet) : (start R p).Emitted := by
  refine ⟨?_, ?_, ?_⟩ <;>
    simp [start, frameSoFar, held, AxisHeaderAdder.reset, R.contents_reset]

/-- The run starts intact. -/
theorem intact_start (c : PortConfig) (p : Packet) : (start R p).Intact c where
  aligned := aligned_start p
  steady := steady_start c p
  emitted := emitted_start p

/-- Every cycle that keeps the headers keeps the run intact. -/
theorem intact_step {c : PortConfig} {t : FrontEnd R} {i : FrontCycle} (h : t.Intact c)
    (hlegal : (under R c).legal t i) (hheld : t.HeaderHeld i) : (t.step i).Intact c where
  aligned := aligned_step h.aligned hlegal.1
    (samplesAgree_of_steady h.steady h.aligned.paced.stage hlegal hheld.seenOnce)
  steady := steady_step h.steady h.aligned.paced.stage hlegal hheld.seenOnce
  emitted := emitted_step h.emitted h.aligned.framed hheld

/-- In every run that holds the header fields while they are sent, headers are intact. -/
theorem headersIntact_of_headerHeld (R : AxisRegister) (c : PortConfig) (p : Packet) :
    ((under R c).restrict HeaderHeld).Always (start R p) HeadersIntact := by
  refine Clocked.Machine.always_of_invariant (intact_start c p) ?_ ?_
  · rintro t i h ⟨hlegal, hheld⟩
    exact intact_step h hlegal hheld
  · intro t i h _
    have hpaired := h.aligned.framed.paired
    refine ⟨?_, h.aligned.paced.behind, ?_⟩
    · rw [h.emitted.out, List.flatMap_map]
      congr 1
      exact List.flatMap_congr fun frame hframe => by rw [Packet.frame, hpaired frame hframe]
    · rw [h.aligned.framed.left, List.flatMap_map]
      congr 1
      exact List.flatMap_congr hpaired

/-- A one-beat packet for port 7400 from the given address. -/
def fromIp (sourceIp : BitVec 32) : Packet := .single ⟨sourceIp, 0, 0, 7400, 16⟩ 0 0xFF

/-- A cycle in which the header of that packet is presented and the output is free. -/
def presentingIp (sourceIp : BitVec 32) (drive : Bool) (next : Option Packet) : FrontCycle :=
  ⟨firstPort true, ⟨sourceIp, 0, 0, 7400, 16⟩, drive, next, true⟩

instance (t : FrontEnd R) (i : FrontCycle) : Decidable (t.HeaderHeld i) :=
  decidable_of_iff (t.rx.SeenOnce (t.filterCycle i) ∧ (t.adder.state = .forwHdr → t.adder.forwardedTready = true →
      i.hdr.word t.adder.countHeader.toNat = t.emitting.hdr.word t.adder.countHeader.toNat))
    ⟨fun ⟨h₁, h₂⟩ => ⟨h₁, h₂⟩, fun ⟨h₁, h₂⟩ => ⟨h₁, h₂⟩⟩

instance (c : PortConfig) (t : FrontEnd R) (i : FrontCycle) : Decidable (((under R c).restrict HeaderHeld).legal t i) :=
  inferInstanceAs (Decidable (_ ∧ _))

/-- The header of the first packet is sent before the second one is announced. -/
def oneAfterTheOther : List FrontCycle :=
  [presentingIp 1 false (some (fromIp 1)), presentingIp 1 false none, presentingIp 1 false none, presentingIp 1 true none] ++
  List.replicate 6 (presentingIp 1 false none) ++
  [presentingIp 1 false (some (fromIp 2)), presentingIp 2 false none, presentingIp 2 false none, presentingIp 2 true none] ++
  List.replicate 8 (presentingIp 2 false none)

/-- Each packet is sent with its own header. -/
theorem headersIntact_oneAfterTheOther :
    let t := (under .twoDeep (firstPort true)).run (start .twoDeep (fromIp 1)) oneAfterTheOther
    t.out.length = 12 ∧ t.HeadersIntact (presentingIp 2 false none) :=
  ⟨by decide +kernel,
    headersIntact_of_headerHeld .twoDeep (firstPort true) _ _ ⟨oneAfterTheOther, by decide +kernel, rfl⟩ _ (by decide +kernel)⟩

/-- The short payload of the first packet is absorbed while its header is being sent, and the
second packet's address is sent as that of the first. -/
theorem not_headersIntact :
    ¬ (under .twoDeep (firstPort true)).Always (start .twoDeep (fromIp 1)) HeadersIntact := by
  refine Clocked.Machine.not_always_of_run
    [presentingIp 1 false (some (fromIp 1)), presentingIp 1 false none, presentingIp 1 false none,
      presentingIp 1 true (some (fromIp 2)), presentingIp 2 false none] (presentingIp 2 false none)
    (by decide +kernel) (by decide +kernel) fun h => ?_
  exact absurd h.frames (by decide +kernel)

end FrontEnd

end UdpIpCore
