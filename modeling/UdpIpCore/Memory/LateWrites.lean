import UdpIpCore.Kernel.RxPoll
import UdpIpCore.Rtl.AxiDmaWrRun

/-!
# Packet data that reaches the memory late

The write DMA pushes a slot with the last beat on the W channel. The bytes of a burst reach
the memory at any time between their own handshake and the write response, so a consumer
that has seen the push may still load what the slot held before.

As long as no byte is loaded that is still on its way, the consumer cannot tell the memory
from one that is written at once.
-/

namespace UdpIpCore

open Interaction

/-- One RX ring, the write DMA that fills it and the memory behind both. -/
structure LateRing where
  /-- The ring; its memory is the one in which all writes have landed. -/
  ring : RxRing
  dma : DmaWrRun
  /-- The write responses so far. -/
  answered : ℕ
  /-- The last burst that wrote a byte, while the byte is on its way. -/
  onWay : ℕ → Option ℕ
  /-- What the PS loads. -/
  visible : ℕ → BitVec 8

/-- One cycle of what surrounds them. -/
structure LateInput where
  desc : WriteDesc
  axis : Option Beat
  slave : AxiWriteSlave
  bufferSelectIdx : BufferIdx
  /-- The bytes that reach the memory. -/
  lands : ℕ → Bool
  status : StatusInputs

namespace LateRing

variable (idx : BufferIdx) (page : BitVec 21)

/-- After the power-on reset. -/
def start (opened : Bool) : LateRing := ⟨.start opened, .start, 0, fun _ => none, fun _ => 0⟩

/-- The address of the shared memory, which is page-aligned. -/
def sharedMemBase : ℕ := page.toNat * bufferElemMaxSize

/-- The descriptors that were accepted, in order. -/
def descs (s : LateRing) : List WriteDesc := s.dma.jobs.map WriteJob.desc

/-- The address of the burst that is handed over. -/
def burstAddr (s : LateRing) : ℕ :=
  ((s.dma.jobs.flatMap WriteJob.bursts)[s.dma.completed]?).elim 0 fun burst => burst.1.toNat

/-- The beats of that burst which were handed over. -/
def beats (s : LateRing) : ℕ := (Framing.sinceEnd WBeat.wlast s.dma.handed).length

/-- The byte that is handed over for an offset of the shared memory. -/
def writes (s : LateRing) (j : LateInput) (a : ℕ) : Option (BitVec 8) :=
  (s.dma.engine.wHs j.slave).bind fun b =>
    let first := s.burstAddr + 8 * s.beats
    let lane := sharedMemBase page + a - first
    if first ≤ sharedMemBase page + a ∧ lane < 8 ∧ b.wstrb.getLsbD lane then some (b.wdata.extractLsb' (8 * lane) 8)
    else none

/-- `dma_wr_ctrl_pushed` at the ring that is selected. -/
def pushed (s : LateRing) (j : LateInput) : Bool :=
  if idx = j.bufferSelectIdx then s.dma.engine.wlastHs j.slave else false

/-- The handshake of a write response. -/
def bHs (s : LateRing) (j : LateInput) : Bool := s.dma.engine.bready && j.slave.bvalid

/-- The ring's side of a cycle. -/
def ringInput (s : LateRing) (j : LateInput) : RxRingInput := ⟨s.writes page j, s.pushed idx j, j.status⟩

/-- The write responses after a cycle. -/
def answeredNext (s : LateRing) (j : LateInput) : ℕ := s.answered + (s.bHs j).toNat

/-- The bytes on their way after a cycle: a response leaves none of its burst. -/
def onWayNext (s : LateRing) (j : LateInput) (a : ℕ) : Option ℕ :=
  if j.lands a then none
  else (if (s.writes page j a).isSome then some s.dma.completed else s.onWay a).filter fun burst =>
    decide (s.answeredNext j ≤ burst)

/-- One clock edge. -/
def step (s : LateRing) (g : PsSignals) (j : LateInput) : LateRing :=
  let next := s.ring.step idx g (s.ringInput idx page j)
  { ring := next
    dma := s.dma.step ⟨j.desc, j.axis, j.slave⟩
    answered := s.answeredNext j
    onWay := s.onWayNext page j
    visible := fun a => if s.onWayNext page j a = none then next.memory a else s.visible a }

/-- A descriptor for a slot of the ring. -/
def Own (desc : WriteDesc) : Prop :=
  sharedMemBase page + RxRing.slotOffset idx 0 ≤ desc.addr.toNat ∧
    desc.addr.toNat < sharedMemBase page + RxRing.slotOffset idx bufferRxLength

instance (desc : WriteDesc) : Decidable (Own idx page desc) := inferInstanceAs (Decidable (_ ∧ _))

/-- The descriptors of the ring among the first ones. -/
def ownCount (s : LateRing) (n : ℕ) : ℕ := (s.descs.take n).countP fun desc => decide (Own idx page desc)

/-- The PL write path: a descriptor of the ring is for its next slot, in a ring with room for it; the index
register still selects a packet's ring when its last beat is handed over; a write response comes after the last
beat. -/
structure Legal (s : LateRing) (j : LateInput) : Prop where
  slot : s.dma.engine.accepts j.desc = true → DmaWrRun.SlotDesc j.desc
  next : s.dma.engine.accepts j.desc = true → Own idx page j.desc →
    j.desc.addr.toNat =
        sharedMemBase page + RxRing.slotOffset idx (s.ownCount idx page s.descs.length % bufferRxLength) ∧
      s.ownCount idx page s.descs.length < s.ring.pops + bufferRxLength
  selects : s.dma.engine.wlastHs j.slave = true →
    ∀ desc, s.descs[s.dma.completed]? = some desc → (idx = j.bufferSelectIdx ↔ Own idx page desc)
  responds : j.slave.bvalid = true → s.answered < s.dma.completed

instance (s : LateRing) (j : LateInput) : Decidable (s.Legal idx page j) :=
  decidable_of_iff ((s.dma.engine.accepts j.desc = true → DmaWrRun.SlotDesc j.desc) ∧
      (s.dma.engine.accepts j.desc = true → Own idx page j.desc → j.desc.addr.toNat = sharedMemBase page +
          RxRing.slotOffset idx (s.ownCount idx page s.descs.length % bufferRxLength) ∧
        s.ownCount idx page s.descs.length < s.ring.pops + bufferRxLength) ∧
      (s.dma.engine.wlastHs j.slave = true →
        ∀ desc ∈ s.descs[s.dma.completed]?, (idx = j.bufferSelectIdx ↔ Own idx page desc)) ∧
      (j.slave.bvalid = true → s.answered < s.dma.completed))
    ⟨fun ⟨hslot, hnext, hselects, hresponds⟩ => ⟨hslot, hnext, hselects, hresponds⟩,
      fun h => ⟨h.slot, h.next, h.selects, h.responds⟩⟩

/-- What the PS sees of them. -/
def device : Device LateRing LateInput where
  step := step idx page
  legal := Legal idx page
  axi := fun s => s.ring.axi
  readValue := fun s j => s.ring.regs.read (s.ring.status idx (s.ringInput idx page j))
  load := visible
  axi_step := fun _ _ _ => rfl

/-- What holds between any two cycles. -/
structure Tracked (s : LateRing) : Prop where
  dma : s.dma.Tracked
  /-- The pushes are the bursts of the ring that were handed over. -/
  counted : s.ring.pushed.length = s.ownCount idx page s.dma.completed
  placed : ∀ k desc, s.descs[k]? = some desc → Own idx page desc → desc.addr.toNat =
    sharedMemBase page + RxRing.slotOffset idx (s.ownCount idx page k % bufferRxLength)
  room : ∀ k desc, s.descs[k]? = some desc → Own idx page desc → s.dma.completed ≤ k →
    s.ownCount idx page k < s.ring.pops + bufferRxLength
  landed : ∀ a, s.onWay a = none → s.visible a = s.ring.memory a

variable {idx page} {opened : Bool} {s : LateRing} {g : PsSignals} {j : LateInput}

/-- The run starts with nothing on its way. -/
theorem tracked_start : (start opened).Tracked idx page where
  dma := DmaWrRun.tracked_start
  counted := rfl
  placed := fun k desc hdesc => by simp [descs, start, DmaWrRun.start, DmaWrRun.jobs] at hdesc
  room := fun k desc hdesc => by simp [descs, start, DmaWrRun.start, DmaWrRun.jobs] at hdesc
  landed := fun _ _ => rfl

/-- A cycle adds the descriptor it accepts. -/
theorem Tracked.descs_step (h : s.Tracked idx page) : (s.step idx page g j).descs =
    s.descs ++ if s.dma.engine.accepts j.desc then [j.desc] else [] :=
  DmaWrRun.descs_step (i := ⟨j.desc, j.axis, j.slave⟩) h.dma.serves

/-- The first descriptors stay, and so do their counts. -/
theorem Tracked.ownCount_step (h : s.Tracked idx page) {n : ℕ} (hn : n ≤ s.descs.length) :
    (s.step idx page g j).ownCount idx page n = s.ownCount idx page n := by
  rw [ownCount, h.descs_step, List.take_append_of_le_length hn, ownCount]

/-- One more burst is handed over with its last beat. -/
theorem completed_step : (s.step idx page g j).dma.completed =
    s.dma.completed + (s.dma.engine.wlastHs j.slave).toNat :=
  DmaWrRun.completed_step (i := ⟨j.desc, j.axis, j.slave⟩)

/-- Every burst that is handed over was asked for. -/
theorem Tracked.completed_le (h : s.Tracked idx page) (j : LateInput) :
    s.dma.completed + (s.dma.engine.wlastHs j.slave).toNat ≤ s.descs.length := by
  rw [descs, List.length_map]
  exact DmaWrRun.completed_add_le h.dma j.slave

/-- The beat that is handed over lies in the slot of its descriptor. -/
theorem Tracked.next_beat (h : s.Tracked idx page) {b : WBeat} (hb : s.dma.engine.wHs j.slave = some b) :
    ∃ desc, s.descs[s.dma.completed]? = some desc ∧ DmaWrRun.SlotDesc desc ∧
      s.burstAddr = desc.addr.toNat ∧ s.beats < 256 := by
  obtain ⟨job, hjob, hslot, hburst, hbeat⟩ := DmaWrRun.next_beat h.dma hb
  refine ⟨job.desc, ?_, hslot, ?_, ?_⟩
  · rw [descs, List.getElem?_map, hjob, Option.map_some]
  · rw [burstAddr, hburst, Option.elim_some]
  · have hlength := hbeat.length_le
    have hlen := hslot.2.2
    rw [List.length_append, List.length_singleton, WriteJob.burst, List.length_map, List.length_range,
      WriteJob.burstLength, WriteJob.len] at hlength
    rw [beats]
    omega

/-- The descriptor of a last beat. -/
theorem Tracked.desc_of_wlastHs (h : s.Tracked idx page) (hlast : s.dma.engine.wlastHs j.slave = true) :
    ∃ desc, s.descs[s.dma.completed]? = some desc := by
  rw [AxiDmaWr.wlastHs, Option.any_eq_true] at hlast
  obtain ⟨b, hb, -⟩ := hlast
  obtain ⟨desc, hdesc, -⟩ := h.next_beat hb
  exact ⟨desc, hdesc⟩

/-- The ring is pushed with the last beat of a burst of its own. -/
theorem Legal.pushed_eq (hj : s.Legal idx page j) {desc : WriteDesc} (hdesc : s.descs[s.dma.completed]? = some desc) :
    s.pushed idx j = (s.dma.engine.wlastHs j.slave && decide (Own idx page desc)) := by
  rw [pushed]
  cases hlast : s.dma.engine.wlastHs j.slave with
  | false => rw [ite_self, Bool.false_and]
  | true =>
    by_cases hidx : idx = j.bufferSelectIdx
    · rw [if_pos hidx, decide_eq_true ((hj.selects hlast desc hdesc).mp hidx), Bool.and_self]
    · rw [if_neg hidx, decide_eq_false fun hown => hidx ((hj.selects hlast desc hdesc).mpr hown), Bool.and_false]

/-- One more descriptor is counted if it is one of the ring. -/
theorem ownCount_succ {n : ℕ} {desc : WriteDesc} (hdesc : s.descs[n]? = some desc) :
    s.ownCount idx page (n + 1) = s.ownCount idx page n + (decide (Own idx page desc)).toNat := by
  rw [ownCount, List.take_add_one, hdesc, Option.toList_some, List.countP_append, List.countP_singleton, ownCount]
  cases decide (Own idx page desc) <;> rfl

/-- The pushes after a cycle. -/
theorem length_pushed_step : (s.step idx page g j).ring.pushed.length =
    s.ring.pushed.length + (s.pushed idx j).toNat := by
  have hpushed : (s.step idx page g j).ring.pushed = if s.pushed idx j then
      s.ring.pushed ++ [s.ring.headSlot idx (s.ringInput idx page j)] else s.ring.pushed := rfl
  rw [hpushed]
  cases s.pushed idx j <;> simp

/-- The pushes go on counting the bursts of the ring. -/
theorem Tracked.counted_step (h : s.Tracked idx page) (hj : s.Legal idx page j) :
    (s.step idx page g j).ring.pushed.length =
      (s.step idx page g j).ownCount idx page (s.step idx page g j).dma.completed := by
  have hle := h.completed_le j
  rw [length_pushed_step, completed_step, h.ownCount_step hle, h.counted]
  cases hlast : s.dma.engine.wlastHs j.slave with
  | false =>
    have hpushed : s.pushed idx j = false := by rw [pushed, hlast, ite_self]
    rw [hpushed, Bool.toNat_false, Nat.add_zero, Nat.add_zero]
  | true =>
    obtain ⟨desc, hdesc⟩ := h.desc_of_wlastHs hlast
    rw [Bool.toNat_true, ownCount_succ hdesc, hj.pushed_eq hdesc, hlast, Bool.true_and]

/-- The descriptor a cycle adds, or one that was there before. -/
theorem Tracked.getElem?_descs_step (h : s.Tracked idx page) {k : ℕ} {desc : WriteDesc}
    (hdesc : (s.step idx page g j).descs[k]? = some desc) :
    s.descs[k]? = some desc ∧ k < s.descs.length ∨
      s.dma.engine.accepts j.desc = true ∧ desc = j.desc ∧ k = s.descs.length := by
  rw [h.descs_step, List.getElem?_append] at hdesc
  by_cases hk : k < s.descs.length
  · rw [if_pos hk] at hdesc
    exact Or.inl ⟨hdesc, hk⟩
  · rw [if_neg hk] at hdesc
    cases haccepts : s.dma.engine.accepts j.desc with
    | false => simp [haccepts] at hdesc
    | true =>
      rw [haccepts, if_pos rfl, List.getElem?_singleton] at hdesc
      split at hdesc
      · exact Or.inr ⟨rfl, (Option.some.inj hdesc).symm, by omega⟩
      · simp at hdesc

/-- Every cycle of the write path keeps what is known of it. -/
theorem Tracked.step (h : s.Tracked idx page) (hj : s.Legal idx page j) :
    (s.step idx page g j).Tracked idx page where
  dma := h.dma.step hj.slot
  counted := h.counted_step hj
  placed := by
    intro k desc hdesc hown
    rcases h.getElem?_descs_step hdesc with ⟨hold, hk⟩ | ⟨haccepts, rfl, rfl⟩
    · rw [h.ownCount_step (Nat.le_of_lt hk)]
      exact h.placed k desc hold hown
    · rw [h.ownCount_step (Nat.le_refl _)]
      exact (hj.next haccepts hown).1
  room := by
    intro k desc hdesc hown hk
    have hpops : s.ring.pops ≤ (s.step idx page g j).ring.pops := Nat.le_add_right _ _
    rw [completed_step] at hk
    rcases h.getElem?_descs_step hdesc with ⟨hold, hlt⟩ | ⟨haccepts, rfl, rfl⟩
    · have hroom := h.room k desc hold hown (by omega)
      rw [h.ownCount_step (Nat.le_of_lt hlt)]
      omega
    · have hroom := (hj.next haccepts hown).2
      rw [h.ownCount_step (Nat.le_refl _)]
      omega
  landed := fun a ha => if_pos ha

/-- Slots do not share bytes with the ring unless they are its own. -/
theorem outside_of_not_own {desc : WriteDesc} (hslot : DmaWrRun.SlotDesc desc) (hown : ¬ Own idx page desc) {a : ℕ}
    (hlow : desc.addr.toNat ≤ sharedMemBase page + a) (hhigh : sharedMemBase page + a < desc.addr.toNat + 2048) :
    a < RxRing.slotOffset idx 0 ∨ RxRing.slotOffset idx bufferRxLength ≤ a := by
  have hmod := hslot.1
  simp only [Own, sharedMemBase, RxRing.slotOffset, Udriver.bufRxIdxOffsetBytes, Udriver.bufSizeBytes, bufferRxLength,
    bufferElemMaxSize] at hown hlow hhigh ⊢
  omega

/-- The write path is a producer that writes only the slot at the head of a ring with room, and pushes it. -/
theorem Tracked.producer (h : s.Tracked idx page) (hj : s.Legal idx page j)
    (htracks : s.ring.ring.Tracks s.ring.pushed.length s.ring.pops) :
    RxRing.Producer idx s.ring (s.ringInput idx page j) := by
  have hfull (desc : WriteDesc) (hdesc : s.descs[s.dma.completed]? = some desc) (hown : Own idx page desc) :
      s.ring.ring.full = false := by
    have hroom := h.room _ desc hdesc hown (Nat.le_refl _)
    rw [htracks.full, decide_eq_false_iff_not, h.counted]
    omega
  refine ⟨fun a ha => ?_, fun hpush => ?_⟩
  · obtain ⟨b, hb⟩ : ∃ b, s.dma.engine.wHs j.slave = some b := by
      rw [← Option.isSome_iff_exists, ← Option.ne_none_iff_isSome]
      intro hnone
      exact ha (show s.writes page j a = none by rw [LateRing.writes, hnone]; rfl)
    obtain ⟨desc, hdesc, hslot, haddr, hbeats⟩ := h.next_beat hb
    have hrange : s.burstAddr + 8 * s.beats ≤ sharedMemBase page + a ∧
        sharedMemBase page + a < s.burstAddr + 8 * s.beats + 8 := by
      have hwrites : s.writes page j a ≠ none := ha
      rw [LateRing.writes, hb, Option.bind_some] at hwrites
      by_contra hnot
      exact hwrites (if_neg fun hlane => hnot ⟨hlane.1, by omega⟩)
    rw [haddr] at hrange
    by_cases hown : Own idx page desc
    · refine Or.inr (Or.inr ⟨hfull desc hdesc hown, ?_⟩)
      have hplaced := h.placed _ desc hdesc hown
      rw [← h.counted, ← htracks.head] at hplaced
      simp only [RxRing.slotOffset, bufferElemMaxSize] at hplaced ⊢
      omega
    · rcases outside_of_not_own (a := a) hslot hown (by omega) (by omega) with hbefore | hafter
      · exact Or.inl hbefore
      · exact Or.inr (Or.inl hafter)
  · have hpushed : s.pushed idx j = true := hpush
    have hlast : s.dma.engine.wlastHs j.slave = true := by
      rw [pushed] at hpushed
      split at hpushed
      · exact hpushed
      · simp at hpushed
    obtain ⟨desc, hdesc⟩ := h.desc_of_wlastHs hlast
    rw [hj.pushed_eq hdesc, Bool.and_eq_true, decide_eq_true_eq] at hpushed
    exact hfull desc hdesc hpushed.2

/-- A call of the consumer: `udriver_recv`, or a poll of any rings. -/
inductive ConsumerCall
  | recv
  | poll (budget : ℕ) (alloc : ℕ → Bool) (ports : List BufferIdx) (passes : ℕ)

/-- The call as a program; it returns what it read from the ring. -/
def ConsumerCall.code (idx : BufferIdx) : ConsumerCall → UserCode (List (Option UdpPacket))
  | recv => do return [← Udriver.udriverRecv idx.toNat]
  | poll budget alloc ports passes => do return Kernel.ofRing idx (← Kernel.rxPoll budget alloc ports passes)

variable (idx page) in
/-- The PL write path and a consumer on the ring. -/
def machine : Clocked.Machine (System LateRing (List (Option UdpPacket))) (PsInput ConsumerCall × LateInput) :=
  System.machine (device idx page) (ConsumerCall.code idx)

instance (t : System LateRing (List (Option UdpPacket))) (i : PsInput ConsumerCall × LateInput) :
    Decidable ((machine idx page).legal t i) := inferInstanceAs (Decidable (t.device.Legal idx page i.2))

/-- The packets that were read are those that were pushed, in order. -/
def ReadAsPushed (t : System LateRing (List (Option UdpPacket))) (_ : PsInput ConsumerCall × LateInput) : Prop :=
  RxRing.packetsOf t.ps.results.flatten <+: t.device.ring.pushed.map Slot.packet

/-- No byte is loaded while it is on its way to the memory. -/
def LoadsLanded (t : System LateRing (List (Option UdpPacket))) (i : PsInput ConsumerCall × LateInput) : Prop :=
  ∀ offset, t.ps.loads i.1 = some offset → t.device.onWay offset = none

/-- Only packets that end within their slot are pushed. -/
def PushesFit (idx : BufferIdx) (page : BitVec 21) (t : System LateRing (List (Option UdpPacket)))
    (i : PsInput ConsumerCall × LateInput) : Prop :=
  t.device.pushed idx i.2 = true → (t.device.ring.headSlot idx (t.device.ringInput idx page i.2)).Fits

/-- A cycle that loads nothing on its way and pushes no packet that is longer than a slot. -/
structure LandedFits (idx : BufferIdx) (page : BitVec 21) (t : System LateRing (List (Option UdpPacket)))
    (i : PsInput ConsumerCall × LateInput) : Prop where
  landed : LoadsLanded t i
  fits : PushesFit idx page t i

/-- Each call returns the next packets of a ring whose memory is written at once. -/
theorem outline_code (call : ConsumerCall) {results : List (List (Option UdpPacket))} {r : RxRing}
    (h : RxRing.Settled idx opened results.flatten r) :
    (call.code idx).Outline (RxRing.device idx).Quiet (RxRing.device idx).Responds
      (RxRing.Polling idx opened results.flatten)
      (fun result => RxRing.Settled idx opened (results ++ [result]).flatten) r := by
  have hdone (more : List (Option UdpPacket)) (r : RxRing) (hr : RxRing.Settled idx opened (results.flatten ++ more) r) :
      (Program.done more : UserCode (List (Option UdpPacket))).Outline (RxRing.device idx).Quiet
        (RxRing.device idx).Responds (RxRing.Polling idx opened results.flatten)
        (fun result => RxRing.Settled idx opened (results ++ [result]).flatten) r := by
    refine .done _ hr (fun _ _ hr hq => (hr.quiet hq).1) fun r hr => ⟨hr.polling, ?_⟩
    rw [List.flatten_append, List.flatten_singleton]
    exact hr
  have hsettled (r : RxRing) (hr : RxRing.Settled idx opened results.flatten r) :
      RxRing.Polling idx opened results.flatten r := by
    rw [← List.append_nil results.flatten] at hr
    exact hr.polling
  cases call with
  | recv =>
    refine Program.Outline.bind ((RxRing.outline_udriverRecv hsettled (fun r slot n pulsed hr => ?_)
      (fun r result hr => hr.polling) h).mono fun result r hr => hdone [result] r hr)
    rw [← List.append_nil results.flatten] at hr
    exact hr.polling
  | poll budget alloc ports passes =>
    exact Program.Outline.bind ((RxRing.outline_rxPoll budget alloc ports passes h).mono fun received r hr =>
      hdone _ r hr)

/-- The PS and the ring go on as they would on a memory that is written at once. -/
structure AsAtOnce (idx : BufferIdx) (page : BitVec 21) (opened : Bool)
    (t : System LateRing (List (Option UdpPacket))) : Prop where
  ring : System.Inv (RxRing.device idx) (fun results => RxRing.Settled idx opened results.flatten)
    (fun results => RxRing.Polling idx opened results.flatten) (t.view LateRing.ring)
  path : t.device.Tracked idx page

/-- At any time some packets were read, those of the call in progress included. -/
theorem AsAtOnce.returned {t : System LateRing (List (Option UdpPacket))} (h : AsAtOnce idx page opened t) :
    ∃ more n, RxRing.Returned idx opened (t.ps.results.flatten ++ more) n t.device.ring :=
  h.ring.always fun results r hr => by
    rw [← List.append_nil results.flatten] at hr
    exact hr.polling

/-- A cycle that loads nothing on its way. -/
theorem AsAtOnce.step {t : System LateRing (List (Option UdpPacket))} {i : PsInput ConsumerCall × LateInput}
    (h : AsAtOnce idx page opened t) (hlegal : (machine idx page).legal t i) (hloads : LoadsLanded t i) :
    AsAtOnce idx page opened ((machine idx page).step t i) := by
  obtain ⟨i, j⟩ := i
  have hview : ((machine idx page).step t (i, j)).view LateRing.ring =
      System.step (RxRing.device idx) (ConsumerCall.code idx) (t.view LateRing.ring)
        (i, t.device.ringInput idx page j) :=
    System.view_step rfl rfl fun offset hoffset => h.path.landed offset (hloads offset hoffset)
  obtain ⟨more, n, hreturned⟩ := h.returned
  refine ⟨?_, h.path.step hlegal⟩
  rw [hview]
  exact System.inv_step (fun _ _ _ hr hq => (hr.quiet hq).1) (fun results r call hr => outline_code call hr) _ _ h.ring
    (h.path.producer hlegal hreturned.stored.tracks)

/-- And all packets that were pushed end within their slots. -/
structure AtOnceFits (idx : BufferIdx) (page : BitVec 21) (opened : Bool)
    (t : System LateRing (List (Option UdpPacket))) : Prop where
  atOnce : AsAtOnce idx page opened t
  fits : ∀ slot ∈ t.device.ring.pushed, slot.Fits

/-- Then the packets that were read are the first ones of these. -/
theorem AtOnceFits.readAsPushed {t : System LateRing (List (Option UdpPacket))} (h : AtOnceFits idx page opened t)
    (i : PsInput ConsumerCall × LateInput) : ReadAsPushed t i := by
  obtain ⟨more, n, hreturned⟩ := h.atOnce.returned
  have hbegin : RxRing.packetsOf t.ps.results.flatten <+: RxRing.packetsOf (t.ps.results.flatten ++ more) := by
    rw [RxRing.packetsOf, RxRing.packetsOf, List.filterMap_append]
    exact List.prefix_append _ _
  rw [Slot.map_packet_eq hreturned.returned fun slot hslot => h.fits slot (List.mem_of_mem_take hslot)] at hbegin
  exact hbegin.trans ((List.take_prefix _ _).map _)

/-- A cycle keeps it so, if it loads nothing on its way and pushes no longer packet. -/
theorem AtOnceFits.step {t : System LateRing (List (Option UdpPacket))} {i : PsInput ConsumerCall × LateInput}
    (h : AtOnceFits idx page opened t) (hlegal : (machine idx page).legal t i) (hlanded : LandedFits idx page t i) :
    AtOnceFits idx page opened ((machine idx page).step t i) where
  atOnce := h.atOnce.step hlegal hlanded.landed
  fits := fun _ hslot => Slot.fits_of_push h.fits hlanded.fits hslot

/-- Whatever the memory and the bus do, a consumer that loads only what has landed reads the pushed packets, if they end
within their slots. -/
theorem readAsPushed_of_landedFits (idx : BufferIdx) (page : BitVec 21) (opened : Bool) :
    ((machine idx page).restrict (LandedFits idx page)).Always ⟨Ps.start, start opened⟩ ReadAsPushed := by
  have hstart : AtOnceFits idx page opened ⟨Ps.start, start opened⟩ :=
    ⟨⟨System.inv_start (Or.inr rfl) (Or.inr rfl) (RxRing.settled_start idx opened), tracked_start⟩,
      fun _ hslot => absurd hslot List.not_mem_nil⟩
  exact Clocked.Machine.always_of_invariant hstart (fun t i h hi => h.step hi.1 hi.2) fun t i h _ => h.readAsPushed i

/-- A frame with 8 bytes of payload. -/
def frame : List Beat :=
  ⟨8, 0xFF, false, false⟩ :: List.replicate 4 ⟨0, 0xFF, false, false⟩ ++ [⟨0x1122334455667788, 0xFF, true, false⟩]

/-- The write path stores the frame in the first slot; no response has come yet, and the bytes land at once or not at all. -/
def storing (lands : Bool) (n : ℕ) : LateInput where
  desc := ⟨decide (n = 1), 0, 56⟩
  axis := frame[n - 3]?
  slave := ⟨true, true, false⟩
  bufferSelectIdx := 0
  lands := fun _ => lands
  status := ⟨fun _ => ⟨false, false, false, 0, 0⟩, 0, 0, false, false, false, fun _ => 0⟩

/-- The consumer reads the ring once the slot is pushed. -/
def receiving (n : ℕ) : PsInput ConsumerCall := ⟨true, true, true, true, true, true, if n = 14 then some .recv else none⟩

instance (t : System LateRing (List (Option UdpPacket))) (i : PsInput ConsumerCall × LateInput) :
    Decidable (LoadsLanded t i) :=
  inferInstanceAs (Decidable (∀ offset ∈ t.ps.loads i.1, t.device.onWay offset = none))

instance (t : System LateRing (List (Option UdpPacket))) (i : PsInput ConsumerCall × LateInput) :
    Decidable (PushesFit idx page t i) := inferInstanceAs (Decidable (_ → _))

instance (t : System LateRing (List (Option UdpPacket))) (i : PsInput ConsumerCall × LateInput) :
    Decidable (((machine idx page).restrict (LandedFits idx page)).legal t i) :=
  decidable_of_iff ((machine idx page).legal t i ∧ LoadsLanded t i ∧ PushesFit idx page t i)
    ⟨fun h => ⟨h.1, h.2.1, h.2.2⟩, fun h => ⟨h.1, h.2.landed, h.2.fits⟩⟩

/-- The frame is read when it has landed. -/
theorem readAsPushed_frame :
    let t := (machine 0 0).run ⟨Ps.start, start true⟩ ((List.range 76).map fun n => (receiving n, storing true n))
    (RxRing.packetsOf t.ps.results.flatten).length = 1 ∧ ReadAsPushed t (receiving 76, storing true 76) :=
  ⟨by decide +kernel, readAsPushed_of_landedFits 0 0 true _ ⟨(List.range 76).map fun n => (receiving n, storing true n),
    by decide +kernel, rfl⟩ _ (by decide +kernel)⟩

/-- It reads what the slot held before: an empty packet. -/
theorem not_readAsPushed : ¬ (machine 0 0).Always ⟨Ps.start, start true⟩ ReadAsPushed := by
  refine Clocked.Machine.not_always_of_run ((List.range 70).map fun n => (receiving n, storing false n))
    (receiving 70, storing false 70) (by decide +kernel) (by decide +kernel) fun h => ?_
  rw [ReadAsPushed] at h
  exact absurd h (by decide +kernel)

end LateRing

end UdpIpCore
