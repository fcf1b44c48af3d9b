import UdpIpCore.Rx.BufferSelect

/-!
# Port isolation of the filter

With constant configuration the filter is meant to emit exactly the payloads of the
packets for open ports. It does so in every run in which each header is checked once,
while its port is still presented, and in which the buffer index is not overwritten
before the frame it belongs to has started to leave.
-/

namespace UdpIpCore

namespace FilterRun

variable {R : AxisRegister}

/-- The filter alone under a constant configuration, behind a source that presents the port of
its packet while `hdr_valid` is high. -/
def isolation (R : AxisRegister) (c : PortConfig) : Clocked.Machine (FilterRun R) FilterCycle where
  step := step
  legal := fun t i => t.SourceLegal i ∧ i.config = c ∧
    (t.src.hdrValid = true → i.hdr.destPort = t.src.pkt.hdr.destPort)

instance (c : PortConfig) (t : FilterRun R) (i : FilterCycle) :
    Decidable ((isolation R c).legal t i) := inferInstanceAs (Decidable (_ ∧ _ ∧ (_ → _)))

/-- The destination port of `p` is open. -/
def openFor (c : PortConfig) (p : Packet) : Bool := c.openPort p.hdr.destPort

/-- The packets of which at least one beat was taken, in order of arrival. -/
def begun (t : FilterRun R) : List Packet :=
  t.finished ++
    if 0 < t.src.pos ∧ t.src.pos < t.src.pkt.payload.length then [t.src.pkt] else []

/-- The beats taken of the packet that is not finished. -/
def arriving (t : FilterRun R) : List Beat :=
  if t.src.pos < t.src.pkt.payload.length then t.src.pkt.payload.take t.src.pos else []

/-- `p` is one of the packets and no beat of it is among the first `n` beats of their payloads. -/
def Waiting (packets : List Packet) (n : ℕ) (p : Packet) : Prop :=
  ∃ before after, packets = before ++ p :: after ∧ n ≤ (before.flatMap Packet.payload).length

/-- What the filter owes its users in each cycle. -/
structure Isolated (c : PortConfig) (t : FilterRun R) (i : FilterCycle) : Prop where
  /-- The output is the payloads of the packets for open ports and nothing else. -/
  frames : t.left ++ t.held =
    (t.finished.filter (openFor c)).flatMap Packet.payload ++
      if openFor c t.src.pkt then t.arriving else []
  /-- The payload for a closed port is taken, each beat at the latest in the next cycle. -/
  consumed : openFor c t.src.pkt = false → t.src.fresh = false →
    t.src.pos < t.src.pkt.payload.length →
      t.filter.payloadTready = true ∨ (t.step i).filter.payloadTready = true
  /-- When the first beat of a payload leaves, the index is that of the packet's own port. -/
  selected : ∀ before p after, t.begun.filter (openFor c) = before ++ p :: after →
    t.left.length = (before.flatMap Packet.payload).length → t.leaving i ≠ [] →
      t.filter.bufferSelectIdx.toNat = p.hdr.destPort.toNat - c.udpPortRangeLower.toNat

/-- The branch that goes wrong is not taken: no header is checked twice, the checked port is the
packet's own and has a buffer of its own, and the index of no waiting frame is overwritten. -/
structure Undisturbed (t : FilterRun R) (i : FilterCycle) : Prop where
  seenOnce : t.SeenOnce i
  ownPort : t.filter.state = .checkPort → i.hdr.destPort = t.src.pkt.hdr.destPort
  inWindow : t.filter.state = .checkPort → i.config.InWindow i.hdr.destPort
  indexFree : t.filter.state = .checkPort → ∀ p,
    Waiting t.forwarded (t.left ++ t.leaving i).length p →
      i.config.bufferOffset p.hdr.destPort = i.config.bufferOffset i.hdr.destPort

/-- The FSM state reflects the port of the packet whose payload moves. -/
structure Judged (c : PortConfig) (t : FilterRun R) : Prop where
  forwarded : t.forwarded = t.finished.filter (openFor c)
  forward : t.filter.state = .forward → openFor c t.src.pkt = true
  discard : t.filter.state = .discard → openFor c t.src.pkt = false

/-- A packet that waits behind more beats waits behind fewer. -/
theorem Waiting.mono {packets : List Packet} {n m : ℕ} {p : Packet} (hnm : n ≤ m)
    (h : Waiting packets m p) : Waiting packets n p := by
  obtain ⟨before, after, hsplit, hlength⟩ := h
  exact ⟨before, after, hsplit, Nat.le_trans hnm hlength⟩

/-- A packet waiting in an extended list is the new one or waits in the old list. -/
theorem Waiting.of_append_singleton {packets : List Packet} {n : ℕ} {p q : Packet}
    (h : Waiting (packets ++ [q]) n p) : p = q ∨ Waiting packets n p := by
  obtain ⟨before, after, hsplit, hlength⟩ := h
  cases after using List.reverseRecOn with
  | nil =>
    exact Or.inl (List.append_inj_right' hsplit rfl |> List.singleton_inj.mp).symm
  | append_singleton after r _ =>
    rw [← List.cons_append, ← List.append_assoc] at hsplit
    exact Or.inr ⟨before, after, List.append_inj_left' hsplit rfl, hlength⟩

section Cycle

variable {c : PortConfig} {t : FilterRun R} {i : FilterCycle}

/-- Every packet is judged by its own port. -/
theorem judged_step (h : t.Stage) (hjudged : t.Judged c)
    (hlegal : (isolation R c).legal t i) (hquiet : t.Undisturbed i) : (t.step i).Judged c := by
  obtain ⟨hsource, rfl, -⟩ := hlegal
  by_cases hcheck : t.filter.state = .checkPort
  · have hopen : i.config.validUdpPort i.hdr.destPort = openFor i.config t.src.pkt := by
      rw [PortConfig.validUdpPort_eq_openPort (hquiet.inWindow hcheck), hquiet.ownPort hcheck, openFor]
    have hfinished : (t.step i).finished = t.finished := by
      simp [step, finishing_of_checkPort hcheck]
    have hforwarded : (t.step i).forwarded = t.forwarded := by simp [step, forwarding, hcheck]
    refine ⟨by rw [hforwarded, hfinished, hjudged.forwarded], ?_, ?_⟩
    all_goals
      rw [state_step_of_checkPort hcheck, src_step_of_checkPort h hsource hcheck, hopen]
      cases openFor i.config t.src.pkt <;> simp
  · refine ⟨?_, fun hnext => ?_, fun hnext => ?_⟩
    · have hsame : t.forwarding i = (t.finishing i).filter (openFor i.config) := by
        cases hstate : t.filter.state with
        | idle => simp [forwarding, hstate, finishing_of_idle h hsource hstate]
        | checkPort => exact absurd hstate hcheck
        | forward =>
          rw [forwarding, if_pos hstate, finishing]
          cases t.ends i <;> simp [hjudged.forward hstate]
        | discard =>
          rw [forwarding, hstate, finishing]
          cases t.ends i <;> simp [hjudged.discard hstate]
      rw [step, hjudged.forwarded, hsame, List.filter_append]
    · obtain ⟨hsame, hpkt⟩ := moving_of_step h hsource hcheck (Or.inl hnext)
      rw [hpkt, hjudged.forward (hsame ▸ hnext)]
    · obtain ⟨hsame, hpkt⟩ := moving_of_step h hsource hcheck (Or.inr hnext)
      rw [hpkt, hjudged.discard (hsame ▸ hnext)]

/-- The index register stays with the frames that have not started to leave. -/
theorem selects_waiting_step (h : t.Stage) (hselects : t.Selects c (Waiting t.checked t.left.length))
    (hlegal : (isolation R c).legal t i) (hquiet : t.Undisturbed i) :
    (t.step i).Selects c (Waiting (t.step i).checked (t.step i).left.length) := by
  have hleft : (t.step i).left = t.left ++ t.leaving i := rfl
  refine selects_step hselects (congrArg PortConfig.bufferOffset hlegal.2.1) hquiet.ownPort (fun hcheck p hp => ?_) fun hcheck p hp => ?_
  · rw [checked_step h hlegal.1 hcheck, hleft, List.length_append] at hp
    exact hp.mono (Nat.le_add_right _ _)
  · rw [checked_step_of_checkPort h hlegal.1 hcheck, hleft] at hp
    by_cases hvalid : i.config.validUdpPort i.hdr.destPort = true
    · rw [if_pos hvalid] at hp
      exact hp.of_append_singleton.imp_right (hquiet.indexFree hcheck p)
    · rw [if_neg hvalid, List.append_nil] at hp
      exact Or.inr (hquiet.indexFree hcheck p hp)

/-- Between two cycles the packet is either moving or has not begun. -/
theorem arriving_eq_passed (h : t.Stage) (hjudged : t.Judged c) :
    (if openFor c t.src.pkt then t.arriving else []) = t.passed := by
  cases h with
  | quiet hstate hfresh hpos => simp [arriving, passed, hstate, hpos]
  | announced hstate hfresh hvalid hpos => simp [arriving, passed, hstate, hpos]
  | checking hstate hfresh hpos => simp [arriving, passed, hstate, hpos]
  | moving hstate hfresh hpos =>
    rcases hstate with hstate | hstate
    · rw [hjudged.forward hstate, if_pos rfl, arriving, if_pos hpos, passed, if_pos hstate]
    · simp [hjudged.discard hstate, passed, hstate]

/-- The packets for open ports that have begun are among those the FSM decided to forward. -/
theorem begun_filter_isPrefix (h : t.Stage) (hjudged : t.Judged c) :
    t.begun.filter (openFor c) <+: t.checked := by
  rw [begun, checked, List.filter_append, hjudged.forwarded]
  by_cases hmoved : 0 < t.src.pos ∧ t.src.pos < t.src.pkt.payload.length
  · rw [if_pos hmoved]
    cases h with
    | quiet hstate hfresh hpos => omega
    | announced hstate hfresh hvalid hpos => omega
    | checking hstate hfresh hpos => omega
    | moving hstate =>
      rcases hstate with hstate | hstate
      · simp [hjudged.forward hstate, hstate]
      · simp [hjudged.discard hstate, hstate]
  · simp [if_neg hmoved]

/-- The payload for a closed port is taken as soon as its port was checked. -/
theorem consumed_of_judged (h : t.Stage) (hjudged : t.Judged c) (hnext : (t.step i).Judged c)
    (hlegal : (isolation R c).legal t i) (hclosed : openFor c t.src.pkt = false)
    (hfresh : t.src.fresh = false) (hpos : t.src.pos < t.src.pkt.payload.length) :
    t.filter.payloadTready = true ∨ (t.step i).filter.payloadTready = true := by
  cases h with
  | quiet hstate hquiet hdone => omega
  | announced hstate hannounced => simp [hfresh] at hannounced
  | checking hstate hsettled hstart =>
    have hafter := state_step_of_checkPort (i := i) hstate
    have hsrc := src_step_of_checkPort (.checking hstate hsettled hstart) hlegal.1 hstate
    right
    split at hafter
    · have hopen := hnext.forward hafter
      rw [hsrc, hclosed] at hopen
      exact absurd hopen (by simp)
    · simp [AxisUdpPortFilter.payloadTready, hafter]
  | moving hstate =>
    left
    rcases hstate with hstate | hstate
    · simp [hjudged.forward hstate] at hclosed
    · simp [AxisUdpPortFilter.payloadTready, hstate]

/-- A cycle between two states that satisfy the invariants is isolated. -/
theorem isolated_of_invariants (h : t.Stage) (hconserved : t.Conserved) (hjudged : t.Judged c)
    (hown : t.OwnBuffers c) (hselects : t.Selects c (Waiting t.checked t.left.length))
    (hnext : (t.step i).Judged c) (hlegal : (isolation R c).legal t i) : t.Isolated c i where
  frames := by rw [arriving_eq_passed h hjudged, ← hjudged.forwarded]; exact hconserved
  consumed := consumed_of_judged h hjudged hnext hlegal
  selected := by
    intro before p after hsplit hlength _
    obtain ⟨rest, hrest⟩ := begun_filter_isPrefix h hjudged
    have hsplit' : t.checked = before ++ p :: (after ++ rest) := by
      rw [← hrest, hsplit, List.append_assoc, List.cons_append]
    rw [hselects p ⟨before, after ++ rest, hsplit', Nat.le_of_eq hlength⟩]
    exact hown p (by rw [hsplit']; simp)

end Cycle

/-- What holds between any two cycles of an undisturbed run. -/
structure Settled (c : PortConfig) (t : FilterRun R) : Prop where
  stage : t.Stage
  conserved : t.Conserved
  judged : t.Judged c
  own : t.OwnBuffers c
  selects : t.Selects c (Waiting t.checked t.left.length)

/-- The run starts settled. -/
theorem settled_start (c : PortConfig) (p : Packet) : (start R p).Settled c where
  stage := stage_start p
  conserved := conserved_start p
  judged := ⟨rfl, by simp [start, AxisUdpPortFilter.reset], by simp [start, AxisUdpPortFilter.reset]⟩
  own := by simp [OwnBuffers, checked_start]
  selects := by
    rintro q ⟨before, after, hsplit, -⟩
    simp [checked_start] at hsplit

/-- Every undisturbed cycle keeps the run settled. -/
theorem settled_step {c : PortConfig} {t : FilterRun R} {i : FilterCycle} (h : t.Settled c)
    (hlegal : (isolation R c).legal t i) (hquiet : t.Undisturbed i) : (t.step i).Settled c where
  stage := stage_step h.stage hlegal.1 hquiet.seenOnce
  conserved := conserved_step h.stage h.conserved hlegal.1 hquiet.seenOnce
  judged := judged_step h.stage h.judged hlegal hquiet
  own := ownBuffers_step h.stage h.own hlegal.1 hlegal.2.1 hquiet.ownPort hquiet.inWindow
  selects := selects_waiting_step h.stage h.selects hlegal hquiet

/-- In every run whose cycles are undisturbed the filter isolates the open ports. -/
theorem isolated_of_undisturbed (R : AxisRegister) (c : PortConfig) (p : Packet) :
    ((isolation R c).restrict Undisturbed).Always (start R p) (Isolated c) := by
  refine Clocked.Machine.always_of_invariant (settled_start c p) ?_ ?_
  · rintro t i h ⟨hlegal, hquiet⟩
    exact settled_step h hlegal hquiet
  · rintro t i h ⟨hlegal, hquiet⟩
    exact isolated_of_invariants h.stage h.conserved h.judged h.own h.selects
      (judged_step h.stage h.judged hlegal hquiet) hlegal

/-- Ports 7400 to 7500 with only the first one open. -/
def firstPortOpen : PortConfig := ⟨7400, 7500, 1⟩

/-- A one-beat packet for the given port. -/
def oneBeat (destPort : BitVec 16) : Packet := .single ⟨0, 0, 0, destPort, 16⟩ 0 0xFF

/-- A cycle with a free downstream in which the header for `destPort` is presented. -/
def cycle (destPort : BitVec 16) (drive hdrDrop : Bool) (next : Option Packet) : FilterCycle :=
  ⟨firstPortOpen, ⟨0, 0, 0, destPort, 16⟩, drive, hdrDrop, next, true⟩

/-- The header of a one-beat packet outlives its payload, and the next packet is for a closed port. -/
def outlivingHeader : List FilterCycle :=
  [cycle 7400 false false (some (oneBeat 7400)), cycle 7400 false false none,
    cycle 7400 false false none, cycle 7400 true false none, cycle 7400 false false none,
    cycle 7400 false true (some (oneBeat 7401)), cycle 7401 false false none,
    cycle 7401 true false none]

/-- Something holds of the packets that wait, by their places. -/
theorem forall_waiting_iff {packets : List Packet} {n : ℕ} {P : Packet → Prop} : (∀ p, Waiting packets n p → P p) ↔
    ∀ k (h : k < packets.length), n ≤ ((packets.take k).flatMap Packet.payload).length → P packets[k] := by
  constructor
  · intro hall k hk hn
    refine hall _ ⟨packets.take k, packets.drop (k + 1), ?_, hn⟩
    rw [← List.drop_eq_getElem_cons hk, List.take_append_drop]
  · rintro hall p ⟨before, after, rfl, hn⟩
    simpa using hall before.length (by simp) (by simpa using hn)

instance (t : FilterRun R) (i : FilterCycle) : Decidable (t.Undisturbed i) :=
  decidable_of_iff ((t.filter.state = .idle → t.src.hdrValid = true → t.src.pos < t.src.pkt.payload.length) ∧
      (t.filter.state = .checkPort → i.hdr.destPort = t.src.pkt.hdr.destPort ∧ i.config.InWindow i.hdr.destPort ∧
        ∀ k (h : k < t.forwarded.length),
          (t.left ++ t.leaving i).length ≤ ((t.forwarded.take k).flatMap Packet.payload).length →
            i.config.bufferOffset t.forwarded[k].hdr.destPort = i.config.bufferOffset i.hdr.destPort))
    ⟨fun h => ⟨h.1, fun hcheck => (h.2 hcheck).1, fun hcheck => (h.2 hcheck).2.1,
        fun hcheck => forall_waiting_iff.mpr (h.2 hcheck).2.2⟩,
      fun h => ⟨h.seenOnce, fun hcheck => ⟨h.ownPort hcheck, h.inWindow hcheck, forall_waiting_iff.mp (h.indexFree hcheck)⟩⟩⟩

instance (c : PortConfig) (t : FilterRun R) (i : FilterCycle) :
    Decidable (((isolation R c).restrict Undisturbed).legal t i) := inferInstanceAs (Decidable (_ ∧ _))

/-- A packet for the open port, whose header is dropped with its payload, and one for a closed port. -/
def openThenClosed : List FilterCycle :=
  [cycle 7400 false false (some (oneBeat 7400)), cycle 7400 false false none,
    cycle 7400 false true none, cycle 7400 true false none, cycle 7400 false false none, cycle 7400 false false none,
    cycle 7400 false false (some (oneBeat 7401)), cycle 7401 false false none, cycle 7401 false true none,
    cycle 7401 true false none]

/-- The first payload is forwarded and the second one is not. -/
theorem isolated_openThenClosed :
    let t := (isolation .twoDeep firstPortOpen).run (start .twoDeep (oneBeat 7400)) openThenClosed
    t.finished.length = 2 ∧ t.left.length = 1 ∧ t.Isolated firstPortOpen (cycle 7401 false false none) :=
  ⟨by decide +kernel, by decide +kernel,
    isolated_of_undisturbed .twoDeep firstPortOpen _ _ ⟨openThenClosed, by decide +kernel, rfl⟩ _ (by decide +kernel)⟩

/-- The payload for the closed port is forwarded: isolation does not hold in every run. -/
theorem not_isolated :
    ¬ (isolation .twoDeep firstPortOpen).Always (start .twoDeep (oneBeat 7400))
      (Isolated firstPortOpen) := by
  refine Clocked.Machine.not_always_of_run outlivingHeader (cycle 7401 false false none)
    (by decide +kernel) (by decide +kernel) fun h => ?_
  exact absurd h.frames (by decide +kernel)

end FilterRun

end UdpIpCore
