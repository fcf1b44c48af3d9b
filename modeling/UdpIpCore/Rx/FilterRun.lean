import UdpIpCore.Clocked
import UdpIpCore.Rtl.AxisUdpPortFilter
import UdpIpCore.Rx.Source

/-!
# Runs of the port filter behind the packet source

One cycle of the filter with its source, together with the history a statement needs:
the packets taken so far, those whose payload was forwarded, and the beats that left.
Under the single condition that no header is seen again after its payload was taken,
the FSM stays in step with the source.
-/

namespace UdpIpCore

/-- What surrounds the filter in one cycle: configuration, source and downstream ready. -/
structure FilterCycle where
  config : PortConfig
  hdr : UdpHeader
  /-- The source drives `tvalid`. -/
  drive : Bool
  /-- The header was taken, `hdr_valid` falls. -/
  hdrDrop : Bool
  /-- The packet announced in the next cycle. -/
  next : Option Packet
  mAxisTready : Bool

/-- The filter, its source and the history of the run. -/
structure FilterRun (R : AxisRegister) where
  src : Source
  filter : AxisUdpPortFilter R
  /-- Packets whose payload was taken completely. -/
  finished : List Packet
  /-- Those of them that passed through `STATE_FORWARD`. -/
  forwarded : List Packet
  /-- Beats that left on `m_axis`. -/
  left : List Beat

namespace FilterRun

variable {R : AxisRegister}

/-- After reset, with an idle source whose header registers hold the fields of `p`. -/
def start (R : AxisRegister) (p : Packet) : FilterRun R where
  src := .quiet p
  filter := .reset R
  finished := []
  forwarded := []
  left := []

/-- The beats held by the output register. -/
def held (t : FilterRun R) : List Beat := R.contents t.filter.axisRegister

/-- The payload beat offered in a cycle. -/
def payload (t : FilterRun R) (i : FilterCycle) : Option Beat := t.src.offered i.drive

/-- The inputs of the filter in a cycle. -/
def filterIn (t : FilterRun R) (i : FilterCycle) : FilterIn where
  config := i.config
  hdrValid := t.src.hdrValid
  hdrDestPort := i.hdr.destPort
  payload := t.payload i
  mAxisTready := i.mAxisTready

/-- A payload beat is taken from the source. -/
def accepted (t : FilterRun R) (i : FilterCycle) : Bool := t.filter.payloadAccepted (t.payload i)

/-- The last beat of a payload is taken from the source. -/
def ends (t : FilterRun R) (i : FilterCycle) : Bool := t.filter.payloadLast (t.payload i)

/-- The packet whose payload ends in this cycle. -/
def finishing (t : FilterRun R) (i : FilterCycle) : List Packet :=
  if t.ends i then [t.src.pkt] else []

/-- The packet whose forwarding ends in this cycle. -/
def forwarding (t : FilterRun R) (i : FilterCycle) : List Packet :=
  if t.filter.state = .forward then t.finishing i else []

/-- The beat that leaves on `m_axis`. -/
def leaving (t : FilterRun R) (i : FilterCycle) : List Beat :=
  R.taken t.filter.axisRegister i.mAxisTready

/-- One clock edge. -/
def step (t : FilterRun R) (i : FilterCycle) : FilterRun R where
  src := t.src.step (t.accepted i) i.hdrDrop i.next
  filter := t.filter.step (t.filterIn i)
  finished := t.finished ++ t.finishing i
  forwarded := t.forwarded ++ t.forwarding i
  left := t.left ++ t.leaving i

/-- The source protocol in one cycle. -/
def SourceLegal (t : FilterRun R) (i : FilterCycle) : Prop :=
  t.src.MayDrive i.drive ∧ t.src.MayAnnounce (t.accepted i) i.hdrDrop i.next

instance (t : FilterRun R) (i : FilterCycle) : Decidable (t.SourceLegal i) :=
  inferInstanceAs (Decidable (_ ∧ _))

/-- The FSM finds `hdr_valid` high in `STATE_IDLE` only for a packet whose payload is still to come. -/
def SeenOnce (t : FilterRun R) (_ : FilterCycle) : Prop :=
  t.filter.state = .idle → t.src.hdrValid = true → t.src.pos < t.src.pkt.payload.length

/-- The beats of the current packet that were passed to the output register. -/
def passed (t : FilterRun R) : List Beat :=
  if t.filter.state = .forward then t.src.pkt.payload.take t.src.pos else []

/-- The packets the FSM decided to forward, the one on its way included. -/
def checked (t : FilterRun R) : List Packet :=
  t.forwarded ++ if t.filter.state = .forward then [t.src.pkt] else []

/-- How the FSM and the source stand to each other between two cycles. -/
inductive Stage (t : FilterRun R) : Prop
  | quiet (hstate : t.filter.state = .idle) (hfresh : t.src.fresh = false)
      (hpos : t.src.pos = t.src.pkt.payload.length)
  | announced (hstate : t.filter.state = .idle) (hfresh : t.src.fresh = true)
      (hvalid : t.src.hdrValid = true) (hpos : t.src.pos = 0)
  | checking (hstate : t.filter.state = .checkPort) (hfresh : t.src.fresh = false)
      (hpos : t.src.pos = 0)
  | moving (hstate : t.filter.state = .forward ∨ t.filter.state = .discard)
      (hfresh : t.src.fresh = false) (hpos : t.src.pos < t.src.pkt.payload.length)

/-- The run starts quiet. -/
theorem stage_start (p : Packet) : (start R p).Stage := .quiet rfl rfl rfl

section Cycle

variable {t : FilterRun R} {i : FilterCycle}

/-- Nothing is taken while nothing is offered. -/
theorem accepted_of_none (h : t.payload i = none) : t.accepted i = false := by
  simp [accepted, AxisUdpPortFilter.payloadAccepted, h]

/-- No payload ends while nothing is offered. -/
theorem ends_of_none (h : t.payload i = none) : t.ends i = false := by
  simp [ends, AxisUdpPortFilter.payloadLast, h]

/-- Nothing is taken in `STATE_CHECK_PORT`. -/
theorem accepted_of_checkPort (h : t.filter.state = .checkPort) : t.accepted i = false := by
  simp [accepted, AxisUdpPortFilter.payloadAccepted, AxisUdpPortFilter.payloadTready, h]

/-- No payload ends in `STATE_CHECK_PORT`. -/
theorem ends_of_checkPort (h : t.filter.state = .checkPort) : t.ends i = false := by
  simp [ends, AxisUdpPortFilter.payloadLast, AxisUdpPortFilter.payloadTready, h]

/-- The payload ends with the accepted beat that exhausts it. -/
theorem ends_eq : t.ends i = (t.accepted i && decide (t.src.pos + 1 = t.src.pkt.payload.length)) := by
  rw [ends, accepted, AxisUdpPortFilter.payloadLast, AxisUdpPortFilter.payloadAccepted, payload,
    Source.any_tlast_offered, Source.isSome_offered]
  cases t.filter.payloadTready <;> cases i.drive <;> simp
  omega

/-- Once the payload was taken nothing more is offered. -/
theorem payload_of_done (h : t.src.pos = t.src.pkt.payload.length) : t.payload i = none := by
  simp [payload, Source.offered, h]

/-- In the cycle the header rises nothing is offered. -/
theorem payload_of_fresh (hlegal : t.SourceLegal i) (h : t.src.fresh = true) :
    t.payload i = none := by
  have hdrive : i.drive = false := by
    by_contra hdrive
    have hfresh := (hlegal.1 (by simpa using hdrive)).1
    simp [h] at hfresh
  rw [payload, hdrive, Source.offered_false]

/-- No packet is announced while payload is left. -/
theorem next_of_left (hlegal : t.SourceLegal i)
    (h : t.src.posNext (t.accepted i) < t.src.pkt.payload.length) : i.next = none := by
  by_contra hnext
  have hpos := (hlegal.2 (Option.isSome_iff_ne_none.mpr hnext)).1
  omega

/-- Without an announcement the source keeps its packet and counts the accepted beat. -/
theorem src_step_of_none (h : i.next = none) : (t.step i).src =
    ⟨t.src.hdrValidNext i.hdrDrop, false, t.src.pkt, t.src.posNext (t.accepted i)⟩ := by
  rw [step, h]
  rfl

/-- An announcement brings the header of the next packet. -/
theorem src_step_of_some {p : Packet} (h : i.next = some p) :
    (t.step i).src = ⟨true, true, p, 0⟩ := by
  rw [step, h]
  rfl

/-- The next FSM state of the run is that of the filter. -/
theorem state_step : (t.step i).filter.state = t.filter.stateNext (t.filterIn i) := rfl

/-- The FSM returns to `STATE_IDLE` with the last beat and otherwise keeps moving the payload. -/
theorem state_step_of_moving (h : t.filter.state = .forward ∨ t.filter.state = .discard) :
    (t.step i).filter.state = if t.ends i then .idle else t.filter.state := by
  rw [state_step, AxisUdpPortFilter.stateNext]
  rcases h with h | h <;> rw [h] <;> rfl

/-- Outside `STATE_FORWARD` nothing enters the output register. -/
theorem axisForwarded_of_ne {f : AxisUdpPortFilter R} (h : f.state ≠ .forward) (payload : Option Beat) :
    f.axisForwarded payload = none := by
  cases hstate : f.state with
  | forward => exact absurd hstate h
  | idle | checkPort | discard => simp [AxisUdpPortFilter.axisForwarded, hstate]

/-- In `STATE_FORWARD` the output register takes exactly what is taken from the source. -/
theorem entering_of_forward (h : t.filter.state = .forward) :
    R.accepted t.filter.axisRegister (t.filter.axisForwarded (t.payload i)) =
      if t.accepted i then (t.payload i).toList else [] := by
  simp only [AxisRegister.accepted, accepted, AxisUdpPortFilter.axisForwarded,
    AxisUdpPortFilter.payloadAccepted, AxisUdpPortFilter.payloadTready, h]
  cases t.payload i with
  | none => simp
  | some b => simp

/-- An accepted beat extends the part of the payload taken so far. -/
theorem take_posNext : t.src.pkt.payload.take t.src.pos ++
    (if t.accepted i then (t.payload i).toList else []) =
      t.src.pkt.payload.take (t.src.posNext (t.accepted i)) := by
  by_cases haccepted : t.accepted i = true
  · have hsome : (t.payload i).isSome = true := by
      simp only [accepted, AxisUdpPortFilter.payloadAccepted, Bool.and_eq_true] at haccepted
      exact haccepted.2
    rw [payload, Source.isSome_offered, Bool.and_eq_true, decide_eq_true_eq] at hsome
    rw [if_pos haccepted, Source.posNext, if_pos haccepted, payload, hsome.1,
      t.src.take_offered hsome.2]
  · rw [if_neg haccepted, Source.posNext, if_neg haccepted, List.append_nil]

/-- While the payload moves and does not end, the packet stays the current one. -/
theorem src_step_of_moving (hlegal : t.SourceLegal i) (hends : t.ends i = false)
    (hpos : t.src.pos < t.src.pkt.payload.length) :
    t.src.posNext (t.accepted i) < t.src.pkt.payload.length ∧ (t.step i).src =
      ⟨t.src.hdrValidNext i.hdrDrop, false, t.src.pkt, t.src.posNext (t.accepted i)⟩ := by
  have hleft : t.src.posNext (t.accepted i) < t.src.pkt.payload.length := by
    rw [ends_eq] at hends
    rw [Source.posNext]
    split
    · rename_i haccepted
      simp only [haccepted, Bool.true_and, decide_eq_false_iff_not] at hends
      omega
    · exact hpos
  exact ⟨hleft, src_step_of_none (next_of_left hlegal hleft)⟩

/-- With its last beat the whole payload was taken. -/
theorem posNext_of_ends (hends : t.ends i = true) :
    t.src.posNext (t.accepted i) = t.src.pkt.payload.length := by
  rw [ends_eq, Bool.and_eq_true, decide_eq_true_eq] at hends
  rw [Source.posNext, if_pos hends.1, hends.2]

/-- `STATE_CHECK_PORT` decides from the live destination port. -/
theorem state_step_of_checkPort (h : t.filter.state = .checkPort) : (t.step i).filter.state =
    if i.config.validUdpPort i.hdr.destPort then .forward else .discard := by
  rw [state_step, AxisUdpPortFilter.stateNext, h]
  rfl

/-- While the port is checked nothing of the current packet moves. -/
theorem src_step_of_checkPort (h : t.Stage) (hlegal : t.SourceLegal i)
    (hstate : t.filter.state = .checkPort) :
    (t.step i).src = ⟨t.src.hdrValidNext i.hdrDrop, false, t.src.pkt, 0⟩ := by
  cases h with
  | quiet hidle | announced hidle => simp [hstate] at hidle
  | moving hmoving => simp [hstate] at hmoving
  | checking hcheck hfresh hpos =>
    have hkeep : t.src.posNext (t.accepted i) = 0 := by
      rw [accepted_of_checkPort hstate]
      exact hpos
    rw [src_step_of_none (next_of_left hlegal (by rw [hkeep]; exact t.src.pkt.nonempty)), hkeep]

/-- A quiet source and an idle FSM stay so until the next header rises. -/
theorem stage_of_idle (hstate : (t.step i).filter.state = .idle)
    (hpos : t.src.posNext (t.accepted i) = t.src.pkt.payload.length) : (t.step i).Stage := by
  cases hnext : i.next with
  | none =>
    have hsrc := src_step_of_none (t := t) hnext
    exact .quiet hstate (by rw [hsrc]) (by rw [hsrc]; exact hpos)
  | some p =>
    have hsrc := src_step_of_some (t := t) hnext
    exact .announced hstate (by rw [hsrc]) (by rw [hsrc]) (by rw [hsrc])

/-- Each cycle keeps the FSM in step with the source. -/
theorem stage_step (h : t.Stage) (hlegal : t.SourceLegal i) (honce : t.SeenOnce i) :
    (t.step i).Stage := by
  cases h with
  | quiet hstate hfresh hpos =>
    have hvalid : t.src.hdrValid = false := by
      by_contra hvalid
      have := honce hstate (by simpa using hvalid)
      omega
    refine stage_of_idle ?_ ?_
    · simp [state_step, AxisUdpPortFilter.stateNext, hstate, filterIn, hvalid]
    · rw [accepted_of_none (payload_of_done hpos)]
      exact hpos
  | announced hstate hfresh hvalid hpos =>
    have haccepted : t.accepted i = false := accepted_of_none (payload_of_fresh hlegal hfresh)
    have hkeep : t.src.posNext (t.accepted i) = 0 := by rw [haccepted]; exact hpos
    have hsrc := src_step_of_none (t := t) (next_of_left hlegal (by rw [hkeep]; exact t.src.pkt.nonempty))
    refine .checking ?_ (by rw [hsrc]) (by rw [hsrc]; exact hkeep)
    simp [state_step, AxisUdpPortFilter.stateNext, hstate, filterIn, hvalid]
  | checking hstate hfresh hpos =>
    have hsrc := src_step_of_checkPort (.checking hstate hfresh hpos) hlegal hstate
    refine .moving ?_ (by rw [hsrc]) (by rw [hsrc]; exact t.src.pkt.nonempty)
    rw [state_step_of_checkPort hstate]
    split
    · exact Or.inl rfl
    · exact Or.inr rfl
  | moving hstate hfresh hpos =>
    have hnext := state_step_of_moving (i := i) hstate
    by_cases hends : t.ends i = true
    · rw [if_pos hends] at hnext
      exact stage_of_idle hnext (posNext_of_ends hends)
    · rw [if_neg hends] at hnext
      obtain ⟨hleft, hsrc⟩ := src_step_of_moving hlegal (by simpa using hends) hpos
      exact .moving (by rw [hnext]; exact hstate) (by rw [hsrc]) (by rw [hsrc]; exact hleft)

/-- Only `STATE_CHECK_PORT` adds a packet to those that are forwarded. -/
theorem checked_step (h : t.Stage) (hlegal : t.SourceLegal i)
    (hstate : t.filter.state ≠ .checkPort) : (t.step i).checked = t.checked := by
  cases h with
  | quiet hidle | announced hidle =>
    have hnext : (t.step i).filter.state ≠ .forward := by
      simp only [state_step, AxisUdpPortFilter.stateNext, hidle]
      split <;> simp
    rw [checked, if_neg hnext, checked, hidle, step, forwarding, hidle]
    simp
  | checking hcheck => exact absurd hcheck hstate
  | moving hmoving hfresh hpos =>
    have hnext := state_step_of_moving (i := i) hmoving
    by_cases hends : t.ends i = true
    · rw [if_pos hends] at hnext
      rw [checked, hnext, checked, step, forwarding, finishing, if_pos hends]
      simp
    · rw [if_neg hends] at hnext
      obtain ⟨-, hsrc⟩ := src_step_of_moving hlegal (by simpa using hends) hpos
      rw [checked, hnext, hsrc, checked, step, forwarding, finishing, if_neg hends]
      simp

/-- Nothing finishes while the port is checked. -/
theorem finishing_of_checkPort (h : t.filter.state = .checkPort) : t.finishing i = [] := by
  simp [finishing, ends_of_checkPort h]

/-- The packets to forward after the check are the earlier ones and, if its port is open, this one. -/
theorem checked_step_of_checkPort (h : t.Stage) (hlegal : t.SourceLegal i)
    (hstate : t.filter.state = .checkPort) : (t.step i).checked =
      t.forwarded ++ if i.config.validUdpPort i.hdr.destPort then [t.src.pkt] else [] := by
  have hforwarded : (t.step i).forwarded = t.forwarded := by simp [step, forwarding, hstate]
  rw [checked, state_step_of_checkPort hstate, src_step_of_checkPort h hlegal hstate, hforwarded]
  cases i.config.validUdpPort i.hdr.destPort <;> rfl

/-- The FSM moves payload after a cycle in which it moved the same payload or checked a port. -/
theorem moving_of_step (h : t.Stage) (hlegal : t.SourceLegal i) (hstate : t.filter.state ≠ .checkPort)
    (hnext : (t.step i).filter.state = .forward ∨ (t.step i).filter.state = .discard) :
    (t.step i).filter.state = t.filter.state ∧ (t.step i).src.pkt = t.src.pkt := by
  cases h with
  | quiet hidle | announced hidle =>
    simp only [state_step, AxisUdpPortFilter.stateNext, hidle] at hnext
    split at hnext <;> simp at hnext
  | checking hcheck => exact absurd hcheck hstate
  | moving hmoving hfresh hpos =>
    have hkeep := state_step_of_moving (i := i) hmoving
    by_cases hends : t.ends i = true
    · rw [hkeep, if_pos hends] at hnext
      simp at hnext
    · obtain ⟨-, hsrc⟩ := src_step_of_moving hlegal (by simpa using hends) hpos
      exact ⟨by rw [hkeep, if_neg hends], by rw [hsrc]⟩

/-- No payload ends while the FSM is idle. -/
theorem finishing_of_idle (h : t.Stage) (hlegal : t.SourceLegal i) (hstate : t.filter.state = .idle) :
    t.finishing i = [] := by
  have hnone : t.payload i = none := by
    cases h with
    | quiet hidle hfresh hpos => exact payload_of_done hpos
    | announced hidle hfresh => exact payload_of_fresh hlegal hfresh
    | checking hcheck => simp [hstate] at hcheck
    | moving hmoving => simp [hstate] at hmoving
  simp [finishing, ends_of_none hnone]

/-- In each cycle the output register takes the next part of the forwarded payloads. -/
theorem passed_step (h : t.Stage) (hlegal : t.SourceLegal i) (honce : t.SeenOnce i) :
    t.passed ++ R.accepted t.filter.axisRegister (t.filter.axisForwarded (t.payload i)) =
      (t.forwarding i).flatMap Packet.payload ++ (t.step i).passed := by
  by_cases hforward : t.filter.state = .forward
  · have hnext := state_step_of_moving (i := i) (Or.inl hforward)
    rw [passed, if_pos hforward, entering_of_forward hforward, take_posNext, forwarding,
      if_pos hforward, finishing]
    by_cases hends : t.ends i = true
    · rw [if_pos hends] at hnext
      rw [posNext_of_ends hends, if_pos hends, passed, hnext]
      simp
    · cases h with
      | quiet hstate | announced hstate | checking hstate => simp [hforward] at hstate
      | moving hstate hfresh hpos =>
        obtain ⟨-, hsrc⟩ := src_step_of_moving hlegal (by simpa using hends) hpos
        rw [if_neg hends, hforward] at hnext
        rw [if_neg hends, passed, hnext, hsrc]
        simp
  · have hafter : (t.step i).passed = [] := by
      have hstage := stage_step h hlegal honce
      rw [passed]
      split
      · rename_i hnext
        rw [state_step] at hnext
        cases h with
        | quiet hstate | announced hstate =>
          simp only [AxisUdpPortFilter.stateNext, hstate] at hnext
          split at hnext <;> simp at hnext
        | checking hstate hfresh hpos =>
          rw [src_step_of_checkPort (.checking hstate hfresh hpos) hlegal hstate, List.take_zero]
        | moving hstate =>
          have hdiscard := hstate.resolve_left hforward
          simp only [AxisUdpPortFilter.stateNext, hdiscard] at hnext
          split at hnext <;> simp at hnext
      · rfl
    rw [hafter, passed, if_neg hforward, axisForwarded_of_ne hforward, forwarding, if_neg hforward]
    simp [AxisRegister.accepted]

/-- What left and what the register holds are the forwarded payloads, beat for beat. -/
def Conserved (t : FilterRun R) : Prop :=
  t.left ++ t.held = t.forwarded.flatMap Packet.payload ++ t.passed

/-- The run starts with nothing forwarded. -/
theorem conserved_start (p : Packet) : (start R p).Conserved := by
  simp [Conserved, start, held, passed, AxisUdpPortFilter.reset, R.contents_reset]

/-- Each cycle conserves the forwarded payloads. -/
theorem conserved_step (h : t.Stage) (hconserved : t.Conserved) (hlegal : t.SourceLegal i)
    (honce : t.SeenOnce i) : (t.step i).Conserved := by
  have hregister := R.conservation t.filter.axisRegister (t.filter.axisForwarded (t.payload i)) i.mAxisTready
  calc
    (t.step i).left ++ (t.step i).held
      = t.left ++ (R.taken t.filter.axisRegister i.mAxisTready ++
          R.contents (R.step t.filter.axisRegister (t.filter.axisForwarded (t.payload i)) i.mAxisTready)) :=
        List.append_assoc _ _ _
    _ = (t.left ++ t.held) ++
          R.accepted t.filter.axisRegister (t.filter.axisForwarded (t.payload i)) := by
        rw [hregister, ← List.append_assoc, held]
    _ = t.forwarded.flatMap Packet.payload ++
          ((t.forwarding i).flatMap Packet.payload ++ (t.step i).passed) := by
        rw [hconserved, List.append_assoc, passed_step h hlegal honce]
    _ = (t.step i).forwarded.flatMap Packet.payload ++ (t.step i).passed := by
        rw [← List.append_assoc, ← List.flatMap_append, step]

/-- The output register is fed with the payloads of the packets to forward, in order. -/
theorem prefix_of_conserved (h : t.Conserved) :
    t.left ++ t.held <+: t.checked.flatMap Packet.payload := by
  rw [h, checked, List.flatMap_append, passed]
  refine (List.prefix_append_right_inj _).mpr ?_
  by_cases hforward : t.filter.state = .forward
  · simpa [hforward] using List.take_prefix _ _
  · simp [hforward]

end Cycle

/-- What the source keeps to is known of every packet that is presented or was forwarded. -/
structure Announces (promise : Packet → Prop) (t : FilterRun R) : Prop where
  current : t.src.hdrValid = true ∨ t.src.pos < t.src.pkt.payload.length → promise t.src.pkt
  forwarded : ∀ p ∈ t.forwarded, promise p

/-- The run starts without a packet. -/
theorem announces_start (promise : Packet → Prop) (p : Packet) : (start R p).Announces promise where
  current := by simp [start, Source.quiet]
  forwarded := by simp [start]

/-- A source that keeps to its promise goes on doing so. -/
theorem announces_step {promise : Packet → Prop} {t : FilterRun R} {i : FilterCycle} (h : t.Announces promise)
    (hstage : t.Stage) (hnext : ∀ p, i.next = some p → promise p) : (t.step i).Announces promise where
  current := by
    intro hpresented
    cases hcase : i.next with
    | some p =>
      rw [src_step_of_some hcase]
      exact hnext p hcase
    | none =>
      rw [src_step_of_none hcase] at hpresented ⊢
      refine h.current (hpresented.imp (fun hvalid => ?_) fun hpos => ?_)
      · simp only [Source.hdrValidNext, Bool.and_eq_true] at hvalid
        exact hvalid.1
      · simp only [Source.posNext] at hpos
        split at hpos <;> omega
  forwarded := by
    intro p hp
    have hforwarded : (t.step i).forwarded = t.forwarded ++ t.forwarding i := rfl
    rw [hforwarded, List.mem_append, forwarding, finishing] at hp
    rcases hp with hold | hnew
    · exact h.forwarded p hold
    · by_cases hstate : t.filter.state = .forward ∧ t.ends i = true
      · rw [if_pos hstate.1, if_pos hstate.2, List.mem_singleton] at hnew
        rw [hnew]
        cases hstage with
        | quiet hidle | announced hidle | checking hidle => simp [hidle] at hstate
        | moving _ _ hpos => exact h.current (Or.inr hpos)
      · split at hnew
        · split at hnew
          · rename_i hforward hends
            exact absurd ⟨hforward, hends⟩ hstate
          · simp at hnew
        · simp at hnew

/-- Every packet the FSM decided to forward was announced. -/
theorem Announces.checked {promise : Packet → Prop} {t : FilterRun R} (h : t.Announces promise) (hstage : t.Stage)
    {p : Packet} (hp : p ∈ t.checked) : promise p := by
  rw [FilterRun.checked, List.mem_append] at hp
  rcases hp with hold | hnew
  · exact h.forwarded p hold
  · by_cases hstate : t.filter.state = .forward
    · rw [if_pos hstate, List.mem_singleton] at hnew
      rw [hnew]
      cases hstage with
      | quiet hidle | announced hidle | checking hidle => simp [hidle] at hstate
      | moving _ _ hpos => exact h.current (Or.inr hpos)
    · simp [hstate] at hnew

end FilterRun

end UdpIpCore
