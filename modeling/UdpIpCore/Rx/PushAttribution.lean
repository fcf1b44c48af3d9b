import UdpIpCore.Rx.BufferSelect
import UdpIpCore.Rx.RxPath

/-!
# The ring a completed packet is pushed to

The write DMA accepts whole frames in order and completes them at any later cycle. The
push pulse of a completion goes to the ring selected at that moment, which is the ring of
the completed packet as long as no packet for another ring is checked before.
-/

namespace UdpIpCore

/-- The RX path with an abstract write DMA, which counts the frames it has completed. -/
structure PushRun (R : AxisRegister) where
  path : RxPath R
  completed : ℕ

namespace PushRun

variable {R : AxisRegister}

/-- After reset, with an idle source whose header registers hold the fields of `p`. -/
def start (R : AxisRegister) (p : Packet) : PushRun R := ⟨.start R p, 0⟩

/-- One clock edge; a pushed pulse is the completion of the next frame. -/
def step (t : PushRun R) (i : RxCycle) : PushRun R where
  path := t.path.step i
  completed := t.completed + i.pushed.toNat

/-- A frame is completed only after its last beat was accepted. -/
def MayComplete (t : PushRun R) (i : RxCycle) : Prop :=
  i.pushed = true → t.completed < t.path.front.out.countP Beat.tlast

instance (t : PushRun R) (i : RxCycle) : Decidable (t.MayComplete i) :=
  inferInstanceAs (Decidable (_ → _))

/-- The RX path under a constant configuration, in front of the abstract write DMA. -/
def machine (R : AxisRegister) (c : PortConfig) : Clocked.Machine (PushRun R) RxCycle where
  step := step
  legal := fun t i => (FrontEnd.under R c).legal t.path.front i.front ∧ t.MayComplete i

instance (c : PortConfig) (t : PushRun R) (i : RxCycle) : Decidable ((machine R c).legal t i) :=
  inferInstanceAs (Decidable ((FrontEnd.under R c).legal t.path.front i.front ∧ t.MayComplete i))

/-- The push pulse of a completion moves the ring of the completed packet's own port and no other. -/
structure Attributed (c : PortConfig) (t : PushRun R) (i : RxCycle) : Prop where
  own : i.pushed = true → ∃ frame, t.path.front.done[t.completed]? = some frame ∧
    frame.2 = frame.1.payload ∧ ∀ idx,
      ((t.step i).path.rings idx).headIndex =
        if idx.toNat = frame.1.hdr.destPort.toNat - c.udpPortRangeLower.toNat
        then CircularBuffer.indexNext bufferRxLength (t.path.rings idx).headIndex
        else (t.path.rings idx).headIndex
  quiet : i.pushed = false → ∀ idx,
    ((t.step i).path.rings idx).headIndex = (t.path.rings idx).headIndex

/-- The branch that goes wrong is not taken: no header is checked twice, a checked port has a buffer
of its own, and it is not checked while a packet for another buffer waits for its completion. -/
structure IndexHeld (t : PushRun R) (i : RxCycle) : Prop where
  seenOnce : t.path.front.rx.SeenOnce (t.path.front.filterCycle i.front)
  inWindow : t.path.front.rx.filter.state = .checkPort →
    i.front.config.InWindow i.front.hdr.destPort
  indexFree : t.path.front.rx.filter.state = .checkPort →
    ∀ p ∈ t.path.front.rx.forwarded.drop (t.completed + i.pushed.toNat),
      i.front.config.bufferOffset p.hdr.destPort = i.front.config.bufferOffset i.front.hdr.destPort

/-- What holds between any two cycles of a run that holds the index. -/
structure Tracked (c : PortConfig) (t : PushRun R) : Prop where
  aligned : t.path.front.Aligned
  steady : t.path.front.Steady c
  lasts : t.path.front.LastsCounted
  own : t.path.front.rx.OwnBuffers c
  selects : t.path.front.rx.Selects c (· ∈ t.path.front.rx.checked.drop t.completed)

/-- The run starts tracked. -/
theorem tracked_start (c : PortConfig) (p : Packet) : (start R p).Tracked c where
  aligned := FrontEnd.aligned_start p
  steady := FrontEnd.steady_start c p
  lasts := FrontEnd.lastsCounted_start p
  own := by simp [start, RxPath.start, FrontEnd.start, FilterRun.OwnBuffers, FilterRun.checked_start]
  selects := by
    intro q hq
    simp [start, RxPath.start, FrontEnd.start, FilterRun.checked_start] at hq

section Cycle

variable {c : PortConfig} {t : PushRun R} {i : RxCycle}

/-- The index stays with the packets that wait for their completion. -/
theorem selects_step (h : t.Tracked c) (hlegal : (machine R c).legal t i) (hheld : t.IndexHeld i) :
    (t.step i).path.front.rx.Selects c
      (· ∈ (t.step i).path.front.rx.checked.drop (t.step i).completed) := by
  have hstage := h.aligned.paced.stage
  refine FilterRun.selects_step h.selects (congrArg PortConfig.bufferOffset hlegal.1.2)
    (FrontEnd.destPort_of_checkPort hstage hlegal.1.1.2) (fun hcheck p hp => ?_) fun hcheck p hp => ?_
  · have hchecked : (t.step i).path.front.rx.checked = t.path.front.rx.checked :=
      FilterRun.checked_step hstage hlegal.1.1.1 hcheck
    rw [hchecked] at hp
    exact List.drop_subset_drop_left _ (Nat.le_add_right _ _) hp
  · have hchecked : (t.step i).path.front.rx.checked = t.path.front.rx.forwarded ++ _ :=
      FilterRun.checked_step_of_checkPort hstage hlegal.1.1.1 hcheck
    rw [hchecked, List.drop_append, List.mem_append] at hp
    rcases hp with hp | hp
    · exact Or.inr (hheld.indexFree hcheck p hp)
    · have hmem := List.mem_of_mem_drop hp
      split at hmem
      · exact Or.inl (List.mem_singleton.mp hmem)
      · simp at hmem

/-- Every cycle that holds the index keeps the run tracked. -/
theorem tracked_step (h : t.Tracked c) (hlegal : (machine R c).legal t i) (hheld : t.IndexHeld i) :
    (t.step i).Tracked c where
  aligned := FrontEnd.aligned_step h.aligned hlegal.1.1
    (FrontEnd.samplesAgree_of_steady h.steady h.aligned.paced.stage hlegal.1 hheld.seenOnce)
  steady := FrontEnd.steady_step h.steady h.aligned.paced.stage hlegal.1 hheld.seenOnce
  lasts := FrontEnd.lastsCounted_step h.lasts
  own := FilterRun.ownBuffers_step h.aligned.paced.stage h.own hlegal.1.1.1 hlegal.1.2
    (FrontEnd.destPort_of_checkPort h.aligned.paced.stage hlegal.1.1.2) hheld.inWindow
  selects := selects_step h hlegal hheld

/-- The frame that is completed is the next one of the finished frames. -/
theorem completed_lt_done (h : t.Tracked c) (hlegal : (machine R c).legal t i)
    (hpushed : i.pushed = true) : t.completed < t.path.front.done.length := by
  have hcomplete := hlegal.2 hpushed
  have hlasts := h.lasts
  rw [FrontEnd.LastsCounted, List.countP_append] at hlasts
  omega

/-- The completed packet waits for its completion. -/
theorem completed_mem (h : t.Tracked c) (hlt : t.completed < t.path.front.done.length) :
    t.path.front.done[t.completed].1 ∈ t.path.front.rx.checked.drop t.completed := by
  obtain ⟨rest, hrest⟩ := (List.prefix_append _ _).trans h.aligned.paced.behind
  have hmap : t.completed < (t.path.front.done.map Prod.fst).length := by simpa using hlt
  rw [← hrest, List.drop_append, List.mem_append, List.drop_eq_getElem_cons hmap]
  simp

/-- A tracked cycle attributes the push to the ring of the completed packet. -/
theorem attributed_of_tracked (h : t.Tracked c) (hlegal : (machine R c).legal t i) :
    t.Attributed c i where
  own := by
    intro hpushed
    have hlt := completed_lt_done h hlegal hpushed
    have hmem := completed_mem h hlt
    refine ⟨_, List.getElem?_eq_getElem hlt, h.aligned.framed.paired _ (List.getElem_mem hlt),
      fun idx => ?_⟩
    rw [← h.own _ (List.mem_of_mem_drop hmem), ← h.selects _ hmem]
    change (if t.path.pushedArr i idx = true then _ else _) = _
    rw [RxPath.pushedArr, hpushed]
    by_cases hidx : idx = t.path.bufferSelectIdx
    · rw [if_pos hidx, if_pos rfl, if_pos (by rw [hidx]; rfl)]
    · rw [if_neg hidx, if_neg (by simp)]
      exact (if_neg fun hnat => hidx (BitVec.eq_of_toNat_eq hnat)).symm
  quiet := by
    intro hpushed idx
    change (if t.path.pushedArr i idx = true then _ else _) = _
    rw [RxPath.pushedArr, hpushed, ite_self, if_neg (by simp)]

end Cycle

/-- In every run that holds the index each push is attributed to the packet's own ring. -/
theorem attributed_of_indexHeld (R : AxisRegister) (c : PortConfig) (p : Packet) :
    ((machine R c).restrict IndexHeld).Always (start R p) (Attributed c) := by
  refine Clocked.Machine.always_of_invariant (tracked_start c p) ?_ ?_
  · rintro t i h ⟨hlegal, hheld⟩
    exact tracked_step h hlegal hheld
  · rintro t i h ⟨hlegal, -⟩
    exact attributed_of_tracked h hlegal

/-- Ports 7400 to 7500 with the first two open. -/
def twoPortsOpen : PortConfig := ⟨7400, 7500, 3⟩

/-- A one-beat packet for the given port. -/
def oneBeat (destPort : BitVec 16) : Packet := .single ⟨0, 0, 0, destPort, 16⟩ 0 0xFF

/-- A cycle with free streams in which the header for `destPort` is presented. -/
def cycle (destPort : BitVec 16) (drive : Bool) (next : Option Packet) (pushed : Bool) : RxCycle where
  front := ⟨twoPortsOpen, ⟨0, 0, 0, destPort, 16⟩, drive, next, true⟩
  sharedMemBase := 0
  wrReady := true
  pushed := pushed
  popped := fun _ => false

instance (t : PushRun R) (i : RxCycle) : Decidable (t.IndexHeld i) :=
  decidable_of_iff (t.path.front.rx.SeenOnce (t.path.front.filterCycle i.front) ∧
      (t.path.front.rx.filter.state = .checkPort → i.front.config.InWindow i.front.hdr.destPort) ∧
      (t.path.front.rx.filter.state = .checkPort → ∀ p ∈ t.path.front.rx.forwarded.drop (t.completed + i.pushed.toNat),
        i.front.config.bufferOffset p.hdr.destPort = i.front.config.bufferOffset i.front.hdr.destPort))
    ⟨fun ⟨h₁, h₂, h₃⟩ => ⟨h₁, h₂, h₃⟩, fun ⟨h₁, h₂, h₃⟩ => ⟨h₁, h₂, h₃⟩⟩

instance (c : PortConfig) (t : PushRun R) (i : RxCycle) : Decidable (((machine R c).restrict IndexHeld).legal t i) :=
  inferInstanceAs (Decidable (_ ∧ _))

/-- Frames for ports 7400 and 7401, of which the first one is completed before the second port is checked. -/
def completedBetween : List RxCycle :=
  [cycle 7400 false (some (oneBeat 7400)) false, cycle 7400 false none false,
    cycle 7400 false none false, cycle 7400 true none false] ++
  List.replicate 6 (cycle 7400 false none false) ++ [cycle 7400 false none true] ++
  [cycle 7400 false (some (oneBeat 7401)) false, cycle 7401 false none false,
    cycle 7401 false none false, cycle 7401 true none false] ++
  List.replicate 6 (cycle 7401 false none false)

/-- Each of them is pushed into its own ring. -/
theorem attributed_completedBetween :
    let t := (machine .twoDeep twoPortsOpen).run (start .twoDeep (oneBeat 7400)) completedBetween
    (t.path.rings 0).headIndex = 1 ∧ (t.path.rings 1).headIndex = 0 ∧ t.Attributed twoPortsOpen (cycle 7401 false none true) :=
  ⟨by decide +kernel, by decide +kernel,
    attributed_of_indexHeld .twoDeep twoPortsOpen _ _ ⟨completedBetween, by decide +kernel, rfl⟩ _ (by decide +kernel)⟩

/-- A frame for port 7400 is accepted by the DMA, then a packet for port 7401 is checked. -/
def checkedBeforeCompletion : List RxCycle :=
  [cycle 7400 false (some (oneBeat 7400)) false, cycle 7400 false none false,
    cycle 7400 false none false, cycle 7400 true none false] ++
  List.replicate 5 (cycle 7400 false none false) ++
  [cycle 7400 false (some (oneBeat 7401)) false, cycle 7401 false none false,
    cycle 7401 false none false]

/-- The completion of the first packet is pushed to the ring of the second one. -/
theorem not_attributed :
    ¬ (machine .twoDeep twoPortsOpen).Always (start .twoDeep (oneBeat 7400))
      (Attributed twoPortsOpen) := by
  refine Clocked.Machine.not_always_of_run checkedBeforeCompletion (cycle 7401 false none true)
    (by decide +kernel) (by decide +kernel) fun h => ?_
  obtain ⟨frame, hframe, -, hheads⟩ := h.own rfl
  have hfirst : ((machine .twoDeep twoPortsOpen).run (start .twoDeep (oneBeat 7400))
      checkedBeforeCompletion).path.front.done[0]? = some (oneBeat 7400, (oneBeat 7400).payload) := by
    decide +kernel
  have hpacket := Option.some.inj (hframe.symm.trans hfirst)
  have hhead := hheads 0
  rw [hpacket] at hhead
  exact absurd hhead (by decide +kernel)

end PushRun

end UdpIpCore
