import UdpIpCore.Rtl.AxiDmaRdProgress
import UdpIpCore.Tx.TxPipeline

/-!
# The progress of the TX pipeline

With a memory that answers at once and a header remover that takes what it is offered, every slot
that was pushed leaves in time: the lock of the read DMA control opens with the end of each stream,
and the next slot is asked for. So a ring that is full does not stay so.
-/

namespace UdpIpCore

namespace TxPipeline

variable {R : AxisRegister}

/-- The memory answers at once, and the header remover takes what it is offered. -/
structure Prompt (s : System (TxPipeline R) (TxPacket × Bool)) (i : PsInput TxPacket × TxPipelineInput) : Prop where
  arready : i.2.arready = true
  rvalid : i.2.rvalid = decide (s.device.path.stream.run.due ≠ [])
  taken : s.device.path.remover.tready = true

/-- The PS and the pipeline in such surroundings. -/
def prompt (R : AxisRegister) : Clocked.Machine (System (TxPipeline R) (TxPacket × Bool)) (PsInput TxPacket × TxPipelineInput) :=
  (fittingSender R).restrict Prompt

/-- What is known in every state: the ring it is simulated by, and the limit of the FIFO. -/
structure Runs (page : BitVec 21) (s : System (TxPipeline R) (TxPacket × Bool)) : Prop where
  reachable : (fittingSender R).Reachable ⟨Ps.start, start R page⟩ s
  lagging : s.device.path.stream.Lagging

variable {page : BitVec 21} {s : System (TxPipeline R) (TxPacket × Bool)} {i : PsInput TxPacket × TxPipelineInput}
  {p : TxPipeline R} {t : TxRing} {g : PsSignals} {c : TxPipelineInput} {k n : ℕ}

/-- The ring. -/
theorem Runs.exists_ring (h : Runs page s) : ∃ t, s.device.Follows t ∧ t.Stored := by
  obtain ⟨t, ht, -, hfollows⟩ := (simulates R TxRing.send TxRing.Fitting).reachable
    (t := ⟨Ps.start, .start page⟩) ⟨rfl, follows_start R page⟩ h.reachable
  obtain ⟨inflight, -, -, hqueue⟩ := queueing_of_reachable ht
  exact ⟨t.device, hfollows, hqueue.stored⟩

/-- Every cycle keeps what is known. -/
theorem Runs.step (h : Runs page s) (hi : (prompt R).legal s i) : Runs page ((prompt R).step s i) where
  reachable := h.reachable.next hi.1
  lagging := DmaRdStream.lagging_step _ _

/-- What was pushed stays so. -/
theorem length_pushed_le (p : TxPipeline R) (g : PsSignals) (c : TxPipelineInput) :
    p.pushed.length ≤ (p.step g c).pushed.length := by
  show _ ≤ (if p.pushPulse.pulse then p.pushed ++ [p.headSlot] else p.pushed).length
  split
  · rw [List.length_append]
    exact Nat.le_add_right _ _
  · exact Nat.le_refl _

/-- The descriptors stay. -/
theorem length_slots_step (p : TxPipeline R) (g : PsSignals) (c : TxPipelineInput) :
    (p.step g c).path.slots.length = p.path.slots.length + (p.path.accepts (p.cycle c)).toNat := by
  show (p.path.slots ++ _).length = _
  cases p.path.accepts (p.cycle c) <;> simp

/-- The cycles until the slot `k` is asked for, once the earlier ones were read. -/
def askLeft (k : ℕ) (p : TxPipeline R) : ℕ :=
  if k < p.path.slots.length then 0
  else if p.ctrl.locked then p.path.stream.sendLeft k + 4
  else (!p.ctrl.valid).toNat + (!p.path.stream.run.engine.readDescReady).toNat + 1

/-- The lock is open: the descriptor is about to be valid and to be accepted. -/
theorem askLeft_of_idle (hf : p.Follows t) (hs : t.Stored) (hlt : k < p.pushed.length) (hk : k ≤ p.path.stream.run.popped)
    (hnot : p.path.slots.length ≤ k) (hlocked : t.ctrl.locked = false) (hdma : t.NoTransfer)
    (hquiet : p.path.stream.tlastHs (p.rdCycle c) = false) : askLeft k (p.step g c) < askLeft k p := by
  have hslots := length_slots_step p g c
  have haccepts := hf.accepts_eq c
  have hempty : p.ring.empty = false := by
    have htracks := hs.tracks
    rw [hf.ring, hf.pushed, hf.fetched] at htracks
    rw [htracks.empty, decide_eq_false_iff_not]
    have hle := hs.accepted_le
    rw [hf.fetched, hf.accepted] at hle
    omega
  have hstart : p.path.stream.run.engine.axiStart = false := hf.dma.axiStart.symm.trans hdma.axiStart
  have hcmd : p.path.stream.run.engine.axisCmdValid = false := hf.dma.axisCmdValid.symm.trans hdma.axisCmdValid
  rw [hf.ctrl] at hlocked
  have hnow : askLeft k p = (!p.ctrl.valid).toNat + (!p.path.stream.run.engine.readDescReady).toNat + 1 := by
    rw [askLeft, if_neg (Nat.not_lt.mpr hnot), if_neg (by rw [hlocked]; decide)]
  rw [AxiDmaRd.accepts, hf.dma.axiStart, hf.dma.readDescReady, hstart, hf.ctrl, Bool.not_false, Bool.true_and] at haccepts
  cases hready : p.path.accepts (p.cycle c) with
  | true =>
    rw [hready, Bool.toNat_true] at hslots
    have hle := hs.accepted_le
    rw [hf.fetched, hf.accepted] at hle
    rw [hnow, askLeft, if_pos (by omega)]
    exact Nat.succ_pos _
  | false =>
    rw [hready, Bool.toNat_false, Nat.add_zero] at hslots
    rw [hready] at haccepts
    have hvalid' : (p.step g c).ctrl.valid = true := by
      show (if p.ctrl.locked then false else if !p.ring.empty then true else p.ctrl.valid) = true
      rw [hlocked, hempty]
      rfl
    have hlocked' : (p.step g c).ctrl.locked = false := by
      show (if p.path.stream.tlastHs (p.rdCycle c) then false
        else if p.ctrl.valid && p.path.stream.run.engine.readDescReady then true else p.ctrl.locked) = false
      rw [hquiet, Bool.and_comm, haccepts, hlocked]
      rfl
    have hready' : (p.step g c).path.stream.run.engine.readDescReady = true := by
      have hnone : (p.path.stream.run.engine.accepts (p.path.stream.cycle (p.rdCycle c))).isNone = true := by
        rw [← Option.not_isSome, Bool.not_eq_true']
        exact hready
      show (if p.path.stream.run.engine.axiStart then _ else (p.path.stream.run.engine.accepts _).isNone && _) = true
      rw [hstart, hcmd]
      exact (Bool.and_true _).trans hnone
    rw [hnow, askLeft, if_neg (by omega), if_neg (by rw [hlocked']; decide), hvalid', hready']
    cases hvalid : p.ctrl.valid with
    | false =>
      rw [Bool.not_false, Bool.toNat_true, Bool.not_true, Bool.toNat_false]
      omega
    | true =>
      rw [hvalid, Bool.and_true] at haccepts
      rw [haccepts]
      decide

/-- The lock is closed: the stream of the last slot comes to its end. -/
theorem askLeft_of_draining (hf : p.Follows t) (hcount : t.accepted.length = t.fetched.length)
    (hk : p.path.stream.run.popped = k) (hlocked : t.ctrl.locked = true) (hvalid : t.ctrl.valid = false)
    (hread : t.dma.axisRead = false) (hstreams : ∃ age, t.dma.streams = [age]) (htaken : p.path.remover.tready = true) :
    askLeft k (p.step g c) < askLeft k p := by
  have hcount' : p.path.slots.length = k := by rw [← hf.accepted, hcount, hf.fetched, hk]
  rw [hf.ctrl] at hlocked hvalid
  have hnone : p.path.accepts (p.cycle c) = false := by
    have haccepts := hf.accepts_eq c
    rw [hf.ctrl, hvalid, AxiDmaRd.accepts, Bool.and_false] at haccepts
    exact haccepts.symm
  have hslots := length_slots_step p g c
  rw [hnone, Bool.toNat_false, Nat.add_zero] at hslots
  have hnow : askLeft k p = p.path.stream.sendLeft k + 4 := by
    rw [askLeft, if_neg (by omega), if_pos hlocked]
  have hlocked' : (p.step g c).ctrl.locked = !p.path.stream.tlastHs (p.rdCycle c) := by
    show (if p.path.stream.tlastHs (p.rdCycle c) then false
      else if p.ctrl.valid && p.path.stream.run.engine.readDescReady then true else p.ctrl.locked) = _
    rw [hvalid, hlocked]
    cases p.path.stream.tlastHs (p.rdCycle c) <;> rfl
  rw [hnow, askLeft, if_neg (by omega), hlocked']
  cases htlast : p.path.stream.tlastHs (p.rdCycle c) with
  | true =>
    have hvalid' := Bool.toNat_le (!(p.step g c).ctrl.valid)
    have hready' := Bool.toNat_le (!(p.step g c).path.stream.run.engine.readDescReady)
    rw [Bool.not_true, if_neg Bool.false_ne_true]
    omega
  | false =>
    obtain ⟨kk, hp, hrdata⟩ := hf.inv.count
    have hidle := hp.idle (hf.dma.axisRead.symm.trans hread)
    rw [← hf.inv.tracked.finished, hk, hidle, Nat.add_zero] at hrdata
    have hpending : p.path.stream.delivered.length < p.path.stream.rdata.length := by
      have hlength := DmaRdStream.length_rdata hf.inv
      have hending : 0 < p.path.stream.ending.length := by
        obtain ⟨age, hage⟩ := hstreams
        rw [← hf.dma.streams, hage]
        exact Nat.succ_pos 0
      have hle : p.path.stream.ending.length ≤ (p.path.stream.axisReg.toList ++ p.path.stream.outFifo).length :=
        List.length_filter_le _ _
      rw [List.length_append] at hle
      omega
    have hsend := DmaRdStream.sendLeft_step (i := p.rdCycle c) (n := k) hf.inv htaken (Nat.le_of_eq hrdata.symm)
      (by rw [← hrdata]; exact Nat.not_le.mpr hpending)
    rw [Bool.not_false, if_pos rfl]
    exact Nat.add_lt_add_right hsend 4

/-- While a slot that was pushed is not asked for, it comes nearer. -/
theorem askLeft_step (hf : p.Follows t) (hs : t.Stored) (hlt : k < p.pushed.length) (hk : k ≤ p.path.stream.run.popped)
    (hnot : p.path.slots.length ≤ k) (hlegal : (device R).legal p c) (htaken : p.path.remover.tready = true) :
    askLeft k (p.step g c) < askLeft k p := by
  have hle := hs.accepted_le
  rw [hf.fetched, hf.accepted] at hle
  cases hs.transfer with
  | idle _ hlocked _ hdma hstreams =>
    exact askLeft_of_idle hf hs hlt hk hnot hlocked hdma (TxRing.noTlast (j := p.ringInput c)
      (hf.dma.legal hf.inv (hf.legal hlegal)) hstreams)
  | accepted hcount =>
    rw [hf.accepted, hf.fetched] at hcount
    omega
  | requested hcount =>
    rw [hf.accepted, hf.fetched] at hcount
    omega
  | draining hcount hlocked hvalid hdma hstreams =>
    exact askLeft_of_draining hf hcount (by omega) hlocked hvalid hdma.axisRead hstreams htaken

/-- It is a few cycles away at most. -/
theorem askLeft_le (hf : p.Follows t) (hk : k ≤ p.path.stream.run.popped) : askLeft k p ≤ 23 := by
  have hvalid := Bool.toNat_le (!p.ctrl.valid)
  have hready := Bool.toNat_le (!p.path.stream.run.engine.readDescReady)
  have hsend : p.path.stream.sendLeft k ≤ 19 := by
    refine DmaRdStream.sendLeft_le hf.inv ?_
    obtain ⟨kk, -, hrdata⟩ := hf.inv.count
    rw [← hf.inv.tracked.finished] at hrdata
    rw [hrdata]
    exact Nat.le_add_right_of_le (Nat.mul_le_mul_left _ hk)
  rw [askLeft]
  split
  · exact Nat.zero_le _
  · split <;> omega

/-- The slots up to `n` were pushed, and those up to `k` were read. -/
structure Waits (page : BitVec 21) (n k : ℕ) (s : System (TxPipeline R) (TxPacket × Bool)) : Prop where
  runs : Runs page s
  pushed : n ≤ s.device.pushed.length
  read : k ≤ s.device.path.stream.run.popped

/-- Nothing is taken back. -/
theorem Waits.step (h : Waits page n k s) (hi : (prompt R).legal s i) : Waits page n k ((prompt R).step s i) where
  runs := h.runs.step hi
  pushed := Nat.le_trans h.pushed (length_pushed_le _ _ _)
  read := Nat.le_trans h.read (Nat.le_add_right _ _)

/-- The next slot is asked for. -/
theorem asks_within (R : AxisRegister) (page : BitVec 21) (hk : k < n) : (prompt R).LeadsTo 23 (Waits page n k) fun s =>
    Waits page n k s ∧ k < s.device.path.slots.length := by
  have hmeasure := Clocked.Machine.LeadsTo.of_measure (m := prompt R) (n := 23) (P := Waits page n k)
    (Q := fun s => Waits page n k s ∧ k < s.device.path.slots.length) (fun s => askLeft k s.device) ?_ ?_
  · refine hmeasure.mono (Nat.le_refl _) (fun s hs => ⟨hs, ?_⟩) fun _ h => h
    obtain ⟨t, hf, -⟩ := hs.runs.exists_ring
    exact askLeft_le hf hs.read
  · intro s hs hzero
    refine ⟨hs, ?_⟩
    rw [askLeft] at hzero
    split at hzero
    · assumption
    · split at hzero <;> exact absurd hzero (Nat.succ_ne_zero _)
  · intro s i hs hnot hi
    obtain ⟨t, hf, hstored⟩ := hs.runs.exists_ring
    have hle : s.device.path.slots.length ≤ k := Nat.le_of_not_lt fun hlt => hnot ⟨hs, hlt⟩
    exact ⟨hs.step hi, askLeft_step hf hstored (Nat.lt_of_lt_of_le hk hs.pushed) hs.read hle hi.1.1 hi.2.taken⟩

/-- The descriptors of the slots that were asked for. -/
theorem Runs.length_descs (h : Runs page s) : s.device.path.slots.length = s.device.path.stream.run.descs.length :=
  (kept_of_reachable (K := fun _ => True) (fun _ => trivial) (fun _ _ _ _ _ _ _ _ _ => trivial)
    (reachable_restrict h.reachable)).2.reads.slots

/-- The slots whose words were read were popped. -/
theorem popped_of_rdata {t : DmaRdStream} (h : t.Inv) (hread : TxSlot.beats * n ≤ t.rdata.length) : n ≤ t.run.popped := by
  obtain ⟨k, hp, hrdata⟩ := h.count
  rw [← h.tracked.finished] at hrdata
  have hk : k < 256 := by
    cases hbusy : t.run.engine.axisRead with
    | true => exact (hp.busy hbusy).fits
    | false =>
      rw [hp.idle hbusy]
      decide
  simp only [TxSlot.beats] at hread hrdata
  omega

/-- The read DMA is in prompt surroundings. -/
theorem eager_legal (s : System (TxPipeline R) (TxPacket × Bool)) (i : PsInput TxPacket × TxPipelineInput)
    (h : Runs page s) (hi : (prompt R).legal s i) :
    DmaRdStream.eager.legal s.device.path.stream (s.device.rdCycle i.2) := by
  obtain ⟨t, hf, -⟩ := h.exists_ring
  exact ⟨hf.legal hi.1.1, hi.2.arready, hi.2.rvalid, hi.2.taken⟩

/-- A progress of the read DMA is one of the pipeline. -/
theorem leadsTo_of_eager {bound : ℕ} {P Q : DmaRdStream → Prop} (h : DmaRdStream.eager.LeadsTo bound P Q) (page : BitVec 21) :
    (prompt R).LeadsTo bound (fun s => P s.device.path.stream ∧ Runs page s) fun s => Q s.device.path.stream ∧ Runs page s :=
  h.project_of_kept (m := prompt R) (J := Runs page) (fun s => s.device.path.stream) (fun s i => s.device.rdCycle i.2)
    (fun _ _ hs hi => hs.step hi) (fun _ _ => rfl) eager_legal

/-- The slot that was asked for last is read. -/
theorem reads_of_asked (R : AxisRegister) (page : BitVec 21) (n k : ℕ) : (prompt R).LeadsTo 525
    (fun s => Waits page n k s ∧ k < s.device.path.slots.length) (Waits page n (k + 1)) := by
  have hread := (leadsTo_of_eager (R := R) (DmaRdStream.reads_within (k + 1)) page).until (J := Waits page n k)
    fun s i hs _ hi => hs.step hi
  have hlast : (prompt R).LeadsTo 525 (fun s => Waits page n k s ∧ s.device.path.slots.length = k + 1) (Waits page n (k + 1)) := by
    refine hread.mono (Nat.le_refl _) (fun s hs => ?_) fun s hs => ?_
    · obtain ⟨hwaits, hasked⟩ := hs
      obtain ⟨t, hf, -⟩ := hwaits.runs.exists_ring
      rw [hwaits.runs.length_descs] at hasked
      exact ⟨⟨⟨⟨hf.inv, hwaits.runs.lagging, Nat.le_of_eq hasked.symm⟩, hasked.symm⟩, hwaits.runs⟩, hwaits⟩
    · obtain ⟨⟨⟨hreads, hrdata⟩, -⟩, hwaits⟩ := hs
      exact ⟨hwaits.runs, hwaits.pushed, popped_of_rdata hreads.inv hrdata⟩
  have hdone : (prompt R).LeadsTo 525 (Waits page n (k + 1)) (Waits page n (k + 1)) :=
    (Clocked.Machine.LeadsTo.of_imp fun _ h => h).mono (Nat.zero_le _) (fun _ h => h) fun _ h => h
  refine (hlast.or hdone).mono (Nat.le_refl _) (fun s hs => ?_) fun _ h => h
  obtain ⟨hwaits, hasked⟩ := hs
  obtain ⟨t, hf, hstored⟩ := hwaits.runs.exists_ring
  -- one descriptor at most is ahead of the slots that were read
  have hle := hstored.accepted_le
  rw [hf.fetched, hf.accepted] at hle
  have hread := hwaits.read
  by_cases hpopped : k < s.device.path.stream.run.popped
  · exact Or.inr ⟨hwaits.runs, hwaits.pushed, hpopped⟩
  · exact Or.inl ⟨hwaits, by omega⟩

/-- The next slot is read. -/
theorem reads_within (R : AxisRegister) (page : BitVec 21) (hk : k < n) :
    (prompt R).LeadsTo 548 (Waits page n k) (Waits page n (k + 1)) :=
  ((asks_within R page hk).trans (reads_of_asked R page n k)).mono (Nat.le_refl _) (fun _ h => h) fun _ h => h

/-- The next ones are read, one after the other. -/
theorem reads_all_within (R : AxisRegister) (page : BitVec 21) (n m : ℕ) :
    (prompt R).LeadsTo (548 * m) (Waits page n (n - m)) (Waits page n n) := by
  induction m with
  | zero => exact .of_imp fun _ h => h
  | succ m ih =>
    by_cases hm : m < n
    · have hnext : n - (m + 1) + 1 = n - m := by omega
      have hread := reads_within R page (n := n) (k := n - (m + 1)) (by omega)
      rw [hnext] at hread
      exact (hread.trans ih).mono (by omega) (fun _ h => h) fun _ h => h
    · have hsame : n - (m + 1) = n - m := by omega
      rw [hsame]
      exact ih.mono (by omega) (fun _ h => h) fun _ h => h

/-- The FIFO keeps to its limit in every run. -/
theorem runs_of_reachable (h : (fittingSender R).Reachable ⟨Ps.start, start R page⟩ s) : Runs page s where
  reachable := h
  lagging := by
    refine Clocked.Machine.Reachable.rec_step (motive := fun s => s.device.path.stream.Lagging) ?_
      (fun _ _ _ _ _ => DmaRdStream.lagging_step _ _) s h
    exact fun hhalf => Bool.noConfusion hhalf

/-- Whatever the PS does meanwhile, the slots that were pushed have left on the stream in time. -/
theorem drains_within (R : AxisRegister) (page : BitVec 21) (n : ℕ) : (prompt R).LeadsTo 17555
    (fun s => (fittingSender R).Reachable ⟨Ps.start, start R page⟩ s ∧ s.device.pushed.length = n)
    fun s => s.device.path.stream.Streams ∧ TxSlot.beats * n ≤ s.device.path.stream.delivered.length := by
  have hsend := leadsTo_of_eager (R := R) (DmaRdStream.sends_within n) page
  refine ((reads_all_within R page n 32).trans (hsend.mono (Nat.le_refl _) (fun s hs => ?_) fun _ h => h)).mono
    (Nat.le_refl _) (fun s hs => ?_) fun _ h => h.1
  · obtain ⟨t, hf, hstored⟩ := hs.runs.exists_ring
    obtain ⟨k, -, hrdata⟩ := hf.inv.count
    refine ⟨⟨⟨hf.inv, hs.runs.lagging, ?_⟩, ?_⟩, hs.runs⟩
    · have hle := hstored.accepted_le.1
      rw [hf.fetched, hf.accepted, hs.runs.length_descs] at hle
      exact Nat.le_trans hs.read hle
    · rw [← hf.inv.tracked.finished] at hrdata
      rw [hrdata]
      exact Nat.le_add_right_of_le (Nat.mul_le_mul_left _ hs.read)
  · have hruns := runs_of_reachable hs.1
    obtain ⟨t, hf, hstored⟩ := hruns.exists_ring
    have hfits := hstored.tracks.fits
    rw [hf.pushed, hf.fetched] at hfits
    refine ⟨hruns, Nat.le_of_eq hs.2.symm, ?_⟩
    have hlength := hs.2
    simp only [bufferTxLength] at hfits
    omega

section Runs

/-- The output register of the header remover can take a beat. -/
def Free (s : System (TxPipeline .twoDeep) (TxPacket × Bool)) : Prop :=
  s.device.path.remover.axisRegister.val.length ≤ 1

/-- It stays so while it is taken from in every cycle. -/
theorem free_step {s : System (TxPipeline .twoDeep) (TxPacket × Bool)} (hfree : Free s) (call : Option TxPacket) :
    Free ((fittingSender .twoDeep).step s (promptly s call)) :=
  AxisRegister.length_twoDeepNext_taken hfree _

/-- The cycles in which nothing is held up are prompt. -/
theorem legal_serving {s : System (TxPipeline .twoDeep) (TxPacket × Bool)} (hfree : Free s) (n : ℕ) :
    (prompt .twoDeep).Legal s (serving n s) := by
  induction n generalizing s with
  | zero => trivial
  | succ n ih =>
    refine ⟨⟨⟨fun hvalid => of_decide_eq_true hvalid, nofun⟩, ⟨rfl, rfl, ?_⟩⟩, ih (free_step hfree none)⟩
    exact decide_eq_true (Nat.lt_succ_of_le hfree)

theorem length_serving (n : ℕ) (s : System (TxPipeline R) (TxPacket × Bool)) : (serving n s).length = n := by
  induction n generalizing s with
  | zero => rfl
  | succ n ih => rw [serving, List.length_cons, ih]

/-- The slot of a datagram that was sent leaves in time. -/
theorem drains_eightBytes :
    let s := (fittingSender .twoDeep).run ⟨Ps.start, start .twoDeep 0⟩ (sendingDatagram.take 70)
    s.device.pushed.length = 1 ∧ ∃ k ≤ 17555,
      256 ≤ ((prompt .twoDeep).run s ((serving 17555 s).take k)).device.path.stream.delivered.length := by
  intro s
  have hpushed : s.device.pushed.length = 1 := by decide +kernel
  have hfree : Free s := by
    rw [Free]
    decide +kernel
  obtain ⟨k, hk, -, hdelivered⟩ := drains_within .twoDeep 0 1 s (serving 17555 s)
    ⟨⟨sendingDatagram.take 70, by decide +kernel, rfl⟩, hpushed⟩ (legal_serving hfree _) (by rw [length_serving])
  exact ⟨hpushed, k, hk, hdelivered⟩

end Runs

end TxPipeline

end UdpIpCore
