import UdpIpCore.Rx.FrontEnd

/-!
# Header and payload of a frame belong to one packet

The filter forwards a payload after testing the port in `STATE_CHECK_PORT`; the adder
emits a header after the registered copy of an earlier test. The two decisions concern
the same packet and agree as long as no socket is opened or closed between the two
samples of one packet, and then every output frame pairs a header with its own payload.
-/

namespace UdpIpCore

namespace FrontEnd

variable {R : AxisRegister}

/-- The two modules under any configuration, changing in any cycle. -/
def machine (R : AxisRegister) : Clocked.Machine (FrontEnd R) FrontCycle where
  step := step
  legal := EnvLegal

instance (t : FrontEnd R) (i : FrontCycle) : Decidable ((machine R).legal t i) :=
  inferInstanceAs (Decidable (t.EnvLegal i))

/-- The two FSMs agree on every packet. -/
structure InStep (t : FrontEnd R) (_ : FrontCycle) : Prop where
  /-- The adder started for the forwarded packets, except one whose header waits or is taken now. -/
  agree : t.rx.checked = t.started ∨
    (t.rx.checked = t.started ++ [t.rx.src.pkt] ∧ t.rx.src.hdrValid = true) ∨
    (t.rx.checked = t.started ++ [t.prev] ∧ t.starts = true)
  /-- Once the header was taken the decisions on all packets are equal. -/
  taken : t.rx.src.hdrValid = false → t.starts = false → t.rx.checked = t.started
  /-- Every finished frame pairs a packet with its own payload. -/
  paired : ∀ frame ∈ t.done, frame.2 = frame.1.payload
  /-- The frames are those of the forwarded packets, in order. -/
  order : t.done.map Prod.fst <+: t.rx.checked

/-- The two samples of the port test of one packet agree. While the header waits, the adder uses
the sample of the cycle before it takes the header, or else the one of that cycle. -/
structure SamplesAgree (t : FrontEnd R) (i : FrontCycle) : Prop where
  seenOnce : t.rx.SeenOnce (t.filterCycle i)
  check_taken : t.rx.filter.state = .checkPort → t.rx.src.hdrValid = false →
    liveValid i = t.rx.filter.validUdpPort
  check_taking : t.rx.filter.state = .checkPort → t.rx.src.hdrValid = true →
    t.adder.hdrReady = true → t.rx.filter.validUdpPort = true → liveValid i = true
  forward_taking : t.rx.filter.state = .forward → t.rx.src.hdrValid = true →
    t.adder.hdrReady = true → t.rx.filter.validUdpPort = true ∨ (liveValid i = true ∧ i.next = none)
  discard_taking : t.rx.filter.state = .discard → t.rx.src.hdrValid = true →
    t.adder.hdrReady = true → t.rx.filter.validUdpPort = false ∧ liveValid i = false

instance (t : FilterRun R) (i : FilterCycle) : Decidable (t.SeenOnce i) := inferInstanceAs (Decidable (_ → _ → _))

set_option synthInstance.maxSize 256 in
instance (t : FrontEnd R) (i : FrontCycle) : Decidable (t.SamplesAgree i) :=
  decidable_of_iff (t.rx.SeenOnce (t.filterCycle i) ∧
    (t.rx.filter.state = .checkPort → t.rx.src.hdrValid = false → liveValid i = t.rx.filter.validUdpPort) ∧
    (t.rx.filter.state = .checkPort → t.rx.src.hdrValid = true → t.adder.hdrReady = true →
      t.rx.filter.validUdpPort = true → liveValid i = true) ∧
    (t.rx.filter.state = .forward → t.rx.src.hdrValid = true → t.adder.hdrReady = true →
      t.rx.filter.validUdpPort = true ∨ (liveValid i = true ∧ i.next = none)) ∧
    (t.rx.filter.state = .discard → t.rx.src.hdrValid = true → t.adder.hdrReady = true →
      t.rx.filter.validUdpPort = false ∧ liveValid i = false))
    ⟨fun ⟨h₁, h₂, h₃, h₄, h₅⟩ => ⟨h₁, h₂, h₃, h₄, h₅⟩, fun ⟨h₁, h₂, h₃, h₄, h₅⟩ => ⟨h₁, h₂, h₃, h₄, h₅⟩⟩

/-- How far the adder is behind the filter, by the state of the header. -/
structure Paced (t : FrontEnd R) : Prop where
  stage : t.rx.Stage
  behind : t.started <+: t.rx.checked
  fresh : t.rx.src.fresh = true → t.rx.checked = t.started ∧ t.starts = false
  check : t.rx.filter.state = .checkPort →
    t.rx.checked = t.started ∧ t.prev = t.rx.src.pkt ∧
      (t.rx.src.hdrValid = false → t.adder.hdrReady = true)
  forward : t.rx.filter.state = .forward → t.rx.src.hdrValid = true →
    t.rx.checked = t.started ++ [t.rx.src.pkt] ∧ t.prev = t.rx.src.pkt
  discard : t.rx.filter.state = .discard → t.rx.src.hdrValid = true → t.rx.checked = t.started
  taken : t.rx.filter.state ≠ .checkPort → t.rx.src.hdrValid = false →
    t.rx.checked = t.started ++ if t.starts then [t.prev] else []

/-- With all packets started and no header waiting, the pace is kept. -/
theorem paced_of_equal {t : FrontEnd R} (hstage : t.rx.Stage)
    (hequal : t.rx.checked = t.started) (hstarts : t.starts = false)
    (hstate : t.rx.filter.state ≠ .checkPort)
    (hheader : t.rx.src.hdrValid = true → t.rx.src.fresh = true) : t.Paced where
  stage := hstage
  behind := hequal ▸ List.prefix_rfl
  fresh := fun _ => ⟨hequal, hstarts⟩
  check := fun h => absurd h hstate
  forward := by
    intro h hvalid
    have hfresh := hheader hvalid
    cases hstage with
    | quiet hidle | announced hidle | checking hidle => simp [h] at hidle
    | moving _ hsettled => simp [hfresh] at hsettled
  discard := fun _ _ => hequal
  taken := fun _ _ => by rw [hequal, hstarts]; simp

/-- After the header was taken the adder may owe the packet it starts for in this cycle. -/
theorem paced_of_taken {t : FrontEnd R} (hstage : t.rx.Stage)
    (howed : t.rx.checked = t.started ++ if t.starts then [t.prev] else [])
    (hstate : t.rx.filter.state ≠ .checkPort) (hvalid : t.rx.src.hdrValid = false)
    (hfresh : t.rx.src.fresh = false) : t.Paced where
  stage := hstage
  behind := ⟨_, howed.symm⟩
  fresh := by simp [hfresh]
  check := fun h => absurd h hstate
  forward := by simp [hvalid]
  discard := by simp [hvalid]
  taken := fun _ _ => howed

/-- While the header waits the adder owes the packet that is being forwarded. -/
theorem paced_of_waiting {t : FrontEnd R} (hstage : t.rx.Stage) (hbehind : t.started <+: t.rx.checked)
    (hstate : t.rx.filter.state ≠ .checkPort) (hvalid : t.rx.src.hdrValid = true)
    (hfresh : t.rx.src.fresh = false)
    (hforward : t.rx.filter.state = .forward →
      t.rx.checked = t.started ++ [t.rx.src.pkt] ∧ t.prev = t.rx.src.pkt)
    (hdiscard : t.rx.filter.state = .discard → t.rx.checked = t.started) : t.Paced where
  stage := hstage
  behind := hbehind
  fresh := by simp [hfresh]
  check := fun h => absurd h hstate
  forward := fun h _ => hforward h
  discard := fun h _ => hdiscard h
  taken := by simp [hvalid]

section Cycle

variable {t : FrontEnd R} {i : FrontCycle}

/-- Without a header the registered test is low in the next cycle. -/
theorem starts_step_of_no_header (h : t.rx.src.hdrValid = false) : (t.step i).starts = false := by
  rw [starts, step_validUdpPort, h, Bool.and_false, Bool.and_false]

/-- An adder that takes no header does not start. -/
theorem starts_of_not_ready (h : t.adder.hdrReady = false) : t.starts = false := by
  rw [starts, h, Bool.false_and]

/-- A header that is up after the cycle was up before it and not taken, or has just risen. -/
theorem fresh_of_hdrValid (h : t.rx.src.hdrValid = false ∨ t.adder.hdrReady = true)
    (hvalid : (t.step i).rx.src.hdrValid = true) : (t.step i).rx.src.fresh = true := by
  cases hnext : i.next with
  | some p =>
    rw [step_rx, FilterRun.src_step_of_some (i := t.filterCycle i) hnext]
  | none =>
    rw [step_rx, FilterRun.src_step_of_none (i := t.filterCycle i) hnext] at hvalid
    rcases h with h | h <;> simp [Source.hdrValidNext, filterCycle, h] at hvalid

/-- While the header waits no packet is announced. -/
theorem next_of_waiting (hlegal : t.EnvLegal i) (hvalid : t.rx.src.hdrValid = true)
    (hready : t.adder.hdrReady = false) : i.next = none := by
  by_contra hnext
  have hdrop := (hlegal.1.2 (Option.isSome_iff_ne_none.mpr hnext)).2
  simp [Source.hdrValidNext, filterCycle, hvalid, hready] at hdrop

/-- The FSM enters `STATE_CHECK_PORT` only from `STATE_IDLE`. -/
theorem state_step_ne_checkPort (h : t.rx.filter.state ≠ .idle) :
    (t.step i).rx.filter.state ≠ .checkPort := by
  rw [step_rx, FilterRun.state_step, AxisUdpPortFilter.stateNext]
  cases hstate : t.rx.filter.state with
  | idle => exact absurd hstate h
  | checkPort | forward | discard => dsimp only; split <;> simp

/-- The pace after a cycle in which the FSM is idle. -/
theorem paced_step_of_idle (h : t.Paced) (hlegal : t.EnvLegal i) (hagree : t.SamplesAgree i)
    (hstate : t.rx.filter.state = .idle) : (t.step i).Paced := by
  have hchecked := FilterRun.checked_step h.stage hlegal.1 (by simp [hstate])
  have hstage := FilterRun.stage_step h.stage hlegal.1 hagree.seenOnce
  cases h.stage with
  | checking hcheck => simp [hstate] at hcheck
  | moving hmoving => simp [hstate] at hmoving
  | quiet _ hfresh hpos =>
    have hvalid : t.rx.src.hdrValid = false := by
      by_contra hvalid
      have := hagree.seenOnce hstate (by simpa using hvalid)
      omega
    have hequal : (t.step i).rx.checked = (t.step i).started := by
      rw [step_rx, hchecked, started_step, h.taken (by simp [hstate]) hvalid]
    refine paced_of_equal hstage hequal (starts_step_of_no_header hvalid) ?_
      (fresh_of_hdrValid (Or.inl hvalid))
    rw [step_rx, FilterRun.state_step, AxisUdpPortFilter.stateNext, hstate]
    simp [FilterRun.filterIn, hvalid]
  | announced _ hfresh hvalid hpos =>
    obtain ⟨hequal, hstarts⟩ := h.fresh hfresh
    have hnone : i.next = none := FilterRun.next_of_left hlegal.1 (by
      rw [FilterRun.accepted_of_none (FilterRun.payload_of_fresh hlegal.1 hfresh), Source.posNext, hpos]
      exact t.rx.src.pkt.nonempty)
    have hsrc := src_step_of_none (t := t) hnone
    have hnext : (t.step i).rx.filter.state = .checkPort := by
      rw [step_rx, FilterRun.state_step, AxisUdpPortFilter.stateNext, hstate]
      simp [FilterRun.filterIn, hvalid]
    have hequal' : (t.step i).rx.checked = (t.step i).started := by
      rw [step_rx, hchecked, started_step, hstarts, hequal]
      simp
    refine ⟨hstage, hequal' ▸ List.prefix_rfl, ?_, fun _ => ⟨hequal', by rw [hsrc]; rfl, ?_⟩,
      ?_, ?_, ?_⟩
    · simp [hsrc]
    · intro hdropped
      have hready : t.adder.hdrReady = true := by simpa [hsrc, hvalid] using hdropped
      exact hdrReady_step hready hstarts
    all_goals simp [hnext]

/-- The pace after the cycle in which the port is checked. -/
theorem paced_step_of_checkPort (h : t.Paced) (hlegal : t.EnvLegal i) (hagree : t.SamplesAgree i)
    (hstate : t.rx.filter.state = .checkPort) : (t.step i).Paced := by
  obtain ⟨hequal, hprev, hready⟩ := h.check hstate
  have hstage : (t.step i).rx.Stage := FilterRun.stage_step h.stage hlegal.1 hagree.seenOnce
  have hsrc := src_step_of_checkPort h.stage hlegal hstate
  have hnext : (t.step i).rx.filter.state = if liveValid i then .forward else .discard :=
    FilterRun.state_step_of_checkPort hstate
  have hforwarded : t.rx.forwarded = t.started := by
    rw [← hequal, FilterRun.checked, hstate]
    simp
  have hchecked : (t.step i).rx.checked = t.started ++ if liveValid i then [t.rx.src.pkt] else [] := by
    rw [← hforwarded]
    exact FilterRun.checked_step_of_checkPort h.stage hlegal.1 hstate
  have hstarted := started_step (t := t) (i := i)
  have hstate' := state_step_ne_checkPort (t := t) (i := i) (by simp [hstate])
  rw [hprev] at hstarted
  by_cases hvalid : t.rx.src.hdrValid = true
  · by_cases htaking : t.adder.hdrReady = true
    · have hstarts : t.starts = t.rx.filter.validUdpPort := by rw [starts, htaking, Bool.true_and]
      by_cases hregistered : t.rx.filter.validUdpPort = true
      · rw [hagree.check_taking hstate hvalid htaking hregistered] at hchecked
        rw [hstarts, hregistered] at hstarted
        exact paced_of_equal hstage (hchecked.trans hstarted.symm)
          (not_starts_of_starts (hstarts.trans hregistered)) hstate' (fresh_of_hdrValid (Or.inr htaking))
      · rw [Bool.not_eq_true] at hregistered
        rw [hstarts, hregistered, if_neg (by simp), List.append_nil] at hstarted
        have hlate : (t.step i).starts = liveValid i := by
          rw [starts, hdrReady_step htaking (hstarts.trans hregistered), step_validUdpPort, hvalid]
          simp
        refine paced_of_taken hstage ?_ hstate' (by simp [hsrc, htaking]) (by rw [hsrc])
        rw [hchecked, hstarted, hlate, step_prev]
    · rw [Bool.not_eq_true] at htaking
      rw [starts_of_not_ready htaking, if_neg (by simp), List.append_nil] at hstarted
      refine paced_of_waiting hstage ?_ hstate' (by simp [hsrc, hvalid, htaking]) (by rw [hsrc])
        (fun hforward => ?_) (fun hdiscard => ?_)
      · rw [hchecked, hstarted]
        exact List.prefix_append _ _
      · have hlive : liveValid i = true := by
          by_contra hlive
          rw [hforward, if_neg hlive] at hnext
          simp at hnext
        rw [hchecked, hstarted, hlive, hsrc, step_prev]
        exact ⟨rfl, rfl⟩
      · have hlive : ¬ liveValid i = true := by
          intro hlive
          rw [hdiscard, if_pos hlive] at hnext
          simp at hnext
        rw [hchecked, hstarted, if_neg hlive, List.append_nil]
  · rw [Bool.not_eq_true] at hvalid
    have hstarts : t.starts = liveValid i := by
      rw [starts, hready hvalid, Bool.true_and, hagree.check_taken hstate hvalid]
    rw [hstarts] at hstarted
    exact paced_of_equal hstage (hchecked.trans hstarted.symm) (starts_step_of_no_header hvalid) hstate'
      (fresh_of_hdrValid (Or.inl hvalid))

/-- The pace after a cycle in which payload moves. -/
theorem paced_step_of_moving (h : t.Paced) (hlegal : t.EnvLegal i) (hagree : t.SamplesAgree i)
    (hmoving : t.rx.filter.state = .forward ∨ t.rx.filter.state = .discard) : (t.step i).Paced := by
  have hstage : (t.step i).rx.Stage := FilterRun.stage_step h.stage hlegal.1 hagree.seenOnce
  have hcheck : t.rx.filter.state ≠ .checkPort := by rcases hmoving with h | h <;> simp [h]
  have hchecked : (t.step i).rx.checked = t.rx.checked := FilterRun.checked_step h.stage hlegal.1 hcheck
  have hstarted := started_step (t := t) (i := i)
  have hstate' := state_step_ne_checkPort (t := t) (i := i) (by rcases hmoving with h | h <;> simp [h])
  by_cases hvalid : t.rx.src.hdrValid = true
  · by_cases htaking : t.adder.hdrReady = true
    · have hstarts : t.starts = t.rx.filter.validUdpPort := by rw [starts, htaking, Bool.true_and]
      rcases hmoving with hforward | hdiscard
      · obtain ⟨howed, hprev⟩ := h.forward hforward hvalid
        by_cases hregistered : t.rx.filter.validUdpPort = true
        · rw [hstarts, hregistered, if_pos rfl, hprev, ← howed] at hstarted
          exact paced_of_equal hstage (hchecked.trans hstarted.symm)
            (not_starts_of_starts (hstarts.trans hregistered)) hstate' (fresh_of_hdrValid (Or.inr htaking))
        · obtain ⟨hlive, hnone⟩ :=
            (hagree.forward_taking hforward hvalid htaking).resolve_left hregistered
          rw [Bool.not_eq_true] at hregistered
          rw [hstarts, hregistered, if_neg (by simp), List.append_nil] at hstarted
          have hsrc := src_step_of_none (t := t) hnone
          have hlate : (t.step i).starts = true := by
            rw [starts, hdrReady_step htaking (hstarts.trans hregistered), step_validUdpPort, hlive, hvalid]
            rfl
          refine paced_of_taken hstage ?_ hstate' (by simp [hsrc, htaking]) (by rw [hsrc])
          rw [hchecked, hstarted, hlate, step_prev, howed, if_pos rfl]
      · obtain ⟨hregistered, hlive⟩ := hagree.discard_taking hdiscard hvalid htaking
        rw [hstarts, hregistered, if_neg (by simp), List.append_nil,
          ← h.discard hdiscard hvalid] at hstarted
        have hlate : (t.step i).starts = false := by
          rw [starts, step_validUdpPort, hlive, Bool.false_and, Bool.and_false]
        exact paced_of_equal hstage (hchecked.trans hstarted.symm) hlate hstate'
          (fresh_of_hdrValid (Or.inr htaking))
    · rw [Bool.not_eq_true] at htaking
      have hsrc := src_step_of_none (t := t) (next_of_waiting hlegal hvalid htaking)
      have hsame := FilterRun.moving_of_step h.stage hlegal.1 hcheck
      rw [starts_of_not_ready htaking, if_neg (by simp), List.append_nil] at hstarted
      refine paced_of_waiting hstage ?_ hstate' (by simp [hsrc, hvalid, htaking]) (by rw [hsrc])
        (fun hforward => ?_) (fun hdiscard => ?_)
      · rw [hchecked, hstarted]
        exact h.behind
      · have hstate := (hsame (Or.inl hforward)).1.symm.trans hforward
        rw [hchecked, hstarted, hsrc, step_prev]
        exact ⟨(h.forward hstate hvalid).1, rfl⟩
      · have hstate := (hsame (Or.inr hdiscard)).1.symm.trans hdiscard
        rw [hchecked, hstarted]
        exact h.discard hstate hvalid
  · rw [Bool.not_eq_true] at hvalid
    rw [← h.taken hcheck hvalid] at hstarted
    exact paced_of_equal hstage (hchecked.trans hstarted.symm) (starts_step_of_no_header hvalid) hstate'
      (fresh_of_hdrValid (Or.inl hvalid))

/-- Every cycle in which the samples agree keeps the pace. -/
theorem paced_step (h : t.Paced) (hlegal : t.EnvLegal i) (hagree : t.SamplesAgree i) :
    (t.step i).Paced := by
  cases hstate : t.rx.filter.state with
  | idle => exact paced_step_of_idle h hlegal hagree hstate
  | checkPort => exact paced_step_of_checkPort h hlegal hagree hstate
  | forward => exact paced_step_of_moving h hlegal hagree (Or.inl hstate)
  | discard => exact paced_step_of_moving h hlegal hagree (Or.inr hstate)

end Cycle

/-- The frames of a paced run are those of the forwarded packets. -/
theorem inStep_of_paced {t : FrontEnd R} {i : FrontCycle} (h : t.Paced) (hframed : t.Framed)
    (honce : t.rx.SeenOnce (t.filterCycle i)) : t.InStep i where
  agree := by
    cases hstate : t.rx.filter.state with
    | checkPort => exact Or.inl (h.check hstate).1
    | idle | forward | discard =>
      cases hvalid : t.rx.src.hdrValid with
      | false =>
        have howed := h.taken (by simp [hstate]) hvalid
        cases hstarts : t.starts <;> simp [howed, hstarts]
      | true =>
        cases h.stage with
        | quiet hidle hsettled hpos =>
          have := honce hidle hvalid
          omega
        | announced hidle hfresh => exact Or.inl (h.fresh hfresh).1
        | checking hcheck => simp [hstate] at hcheck
        | moving hmoving =>
          rcases hmoving with hforward | hdiscard
          · exact Or.inr (Or.inl ⟨(h.forward hforward hvalid).1, rfl⟩)
          · exact Or.inl (h.discard hdiscard hvalid)
  taken := by
    intro hvalid hstarts
    by_cases hcheck : t.rx.filter.state = .checkPort
    · exact (h.check hcheck).1
    · simpa [hstarts] using h.taken hcheck hvalid
  paired := hframed.paired
  order := (List.prefix_append _ _).trans h.behind

/-- What holds between any two cycles of a run in which the samples agree. -/
structure Aligned (t : FrontEnd R) : Prop where
  paced : t.Paced
  framed : t.Framed
  conserved : t.rx.Conserved

/-- The run starts aligned. -/
theorem aligned_start (p : Packet) : (start R p).Aligned where
  paced := paced_of_equal (FilterRun.stage_start p)
    (by simp [start, FilterRun.start, FilterRun.checked, started, AxisUdpPortFilter.reset,
      AxisHeaderAdder.reset])
    (by simp [start, starts, FilterRun.start, AxisUdpPortFilter.reset])
    (by simp [start, FilterRun.start, AxisUdpPortFilter.reset])
    (by simp [start, FilterRun.start, Source.quiet])
  framed := framed_start p
  conserved := FilterRun.conserved_start p

/-- Every cycle in which the samples agree keeps the run aligned. -/
theorem aligned_step {t : FrontEnd R} {i : FrontCycle} (h : t.Aligned) (hlegal : t.EnvLegal i)
    (hagree : t.SamplesAgree i) : (t.step i).Aligned where
  paced := paced_step h.paced hlegal hagree
  framed := framed_step h.framed h.conserved h.paced.behind
  conserved := FilterRun.conserved_step h.paced.stage h.conserved hlegal.1 hagree.seenOnce

/-- In every run in which the two samples of each packet agree the FSMs stay in step. -/
theorem inStep_of_samplesAgree (R : AxisRegister) (p : Packet) :
    ((machine R).restrict SamplesAgree).Always (start R p) InStep := by
  refine Clocked.Machine.always_of_invariant (aligned_start p) ?_ ?_
  · rintro t i h ⟨hlegal, hagree⟩
    exact aligned_step h hlegal hagree
  · rintro t i h ⟨hlegal, hagree⟩
    exact inStep_of_paced h.paced h.framed hagree.seenOnce

/-- Ports 7400 to 7500 with the socket of the first one open or closed. -/
def firstPort (isOpen : Bool) : PortConfig := ⟨7400, 7500, if isOpen then 1 else 0⟩

/-- A cycle in which the header for port 7400 is presented and the output is free. -/
def presenting (isOpen : Bool) (drive : Bool) (next : Option Packet) : FrontCycle :=
  ⟨firstPort isOpen, ⟨0, 0, 0, 7400, 16⟩, drive, next, true⟩

instance (t : FrontEnd R) (i : FrontCycle) : Decidable (((machine R).restrict SamplesAgree).legal t i) :=
  inferInstanceAs (Decidable (_ ∧ _))

/-- A packet for port 7400 is forwarded; then the socket is closed, and another one is discarded. -/
def closedBetween : List FrontCycle :=
  [presenting true false (some (.single ⟨0, 0, 0, 7400, 16⟩ 1 0xFF)), presenting true false none,
    presenting true false none, presenting true true none] ++
  List.replicate 6 (presenting true false none) ++
  [presenting false false (some (.single ⟨0, 0, 0, 7400, 16⟩ 2 0xFF)), presenting false false none,
    presenting false false none, presenting false true none]

/-- The FSMs stay in step when the socket is closed between two packets. -/
theorem inStep_closedBetween :
    let t := (machine .twoDeep).run (start .twoDeep (.single ⟨0, 0, 0, 7400, 16⟩ 0 0xFF)) closedBetween
    t.rx.finished.length = 2 ∧ t.started.length = 1 ∧ t.InStep (presenting false false none) :=
  ⟨by decide +kernel, by decide +kernel,
    inStep_of_samplesAgree .twoDeep _ _ ⟨closedBetween, by decide +kernel, rfl⟩ _ (by decide +kernel)⟩

/-- The socket is closed between the two samples: the adder starts for a discarded payload. -/
theorem not_inStep :
    ¬ (machine .twoDeep).Always (start .twoDeep (.single ⟨0, 0, 0, 7400, 16⟩ 0 0xFF)) InStep := by
  refine Clocked.Machine.not_always_of_run
    [presenting true false (some (.single ⟨0, 0, 0, 7400, 16⟩ 0 0xFF)), presenting true false none,
      presenting false false none] (presenting false false none)
    (by decide +kernel) (by decide +kernel) fun h => ?_
  exact absurd (h.taken (by decide +kernel) (by decide +kernel)) (by decide +kernel)

end FrontEnd

end UdpIpCore
