import Mathlib.Algebra.Group.Nat.Defs
import Mathlib.Data.List.GetD
import UdpIpCore.Rtl.AxiDmaRdStream
import UdpIpCore.Tx.PayloadFrame

/-!
# From the memory to the stack

The read DMA feeds the header remover with the slots of its descriptors. The remover is modelled
against a source that offers whole slots whenever it likes; the DMA with its memory is such a
source, so what the UDP stack gets are the payloads of the slots, in the order of the descriptors.
-/

namespace UdpIpCore

/-- The read DMA with the memory it reads, and the header remover behind it. -/
structure ReadPath (R : AxisRegister) where
  stream : DmaRdStream
  /-- What the slots of the descriptors hold, in the order in which these were accepted. -/
  slots : List TxSlot
  remover : AxisHeaderRemover R
  /-- The headers accepted by `hdr_valid` and `hdr_ready`. -/
  accepted : List UdpHeader
  /-- The beats taken on `m_axis`. -/
  out : List Beat

/-- One cycle around the read path. -/
structure ReadPathCycle where
  desc : Option ReadDesc
  /-- The slot the descriptor is for. -/
  slot : TxSlot
  arready : Bool
  rvalid : Bool
  rdata : BitVec 64
  /-- The registers of the stream while `tvalid` is low. -/
  idle : Beat
  hdrReady : Bool
  mAxisTready : Bool

namespace ReadPath

variable {R : AxisRegister}

/-- After reset. -/
def start (R : AxisRegister) : ReadPath R := ⟨.start, [], .reset R, [], []⟩

/-- What the read DMA sees of a cycle. -/
def rdCycle (p : ReadPath R) (i : ReadPathCycle) : RdStreamCycle := ⟨i.desc, i.arready, i.rvalid, i.rdata, p.remover.tready⟩

/-- The inputs of the header remover. -/
def lines (p : ReadPath R) (i : ReadPathCycle) : RemoverIn where
  tvalid := p.stream.axisReg.isSome
  tdata := (p.stream.axisReg.getD i.idle).tdata
  tkeep := (p.stream.axisReg.getD i.idle).tkeep
  tlast := (p.stream.axisReg.getD i.idle).tlast
  tuser := false
  hdrReady := i.hdrReady
  mAxisTready := i.mAxisTready

/-- The header on the outputs, while `hdr_valid`. -/
def presented (p : ReadPath R) : List UdpHeader := if p.remover.hdrValid then [p.remover.hdr] else []

/-- A descriptor is accepted. -/
def accepts (p : ReadPath R) (i : ReadPathCycle) : Bool :=
  (p.stream.run.engine.accepts (p.stream.cycle (p.rdCycle i))).isSome

/-- One clock edge. -/
def step (p : ReadPath R) (i : ReadPathCycle) : ReadPath R where
  stream := p.stream.step (p.rdCycle i)
  slots := p.slots ++ if p.accepts i then [i.slot] else []
  remover := p.remover.step (p.lines i)
  accepted := p.accepted ++ if i.hdrReady then p.presented else []
  out := p.out ++ R.taken p.remover.axisRegister i.mAxisTready

/-- The slave answers with the slot of the oldest burst, from the beat on that is due. -/
structure Legal (p : ReadPath R) (i : ReadPathCycle) : Prop where
  stream : DmaRdStream.machine.legal p.stream (p.rdCycle i)
  rdata : i.rvalid = true → ∀ slot left, p.slots[p.stream.run.popped]? = some slot → p.stream.run.due.head? = some left →
    i.rdata = slot (TxSlot.beats - left)

/-- The descriptors are for slots that hold still while they are read. -/
def machine (R : AxisRegister) : Clocked.Machine (ReadPath R) ReadPathCycle where
  step := step
  legal := Legal

/-- A word of a list of slots. -/
def wordAt (slots : List TxSlot) (m : ℕ) : BitVec 64 := slots.getD (m / TxSlot.beats) (fun _ => 0) (m % TxSlot.beats)

/-- The words that were read are those of the slots. -/
structure Reads (p : ReadPath R) : Prop where
  inv : p.stream.Inv
  slots : p.slots.length = p.stream.run.descs.length
  words : p.stream.rdata = (List.range p.stream.rdata.length).map (wordAt p.slots)

/-- The same header remover, fed with the given slots. -/
structure Follows (slots : List TxSlot) (p : ReadPath R) (t : RemoverRun R) : Prop where
  remover : t.remover = p.remover
  past : t.past = slots.take (p.stream.delivered.length / TxSlot.beats)
  slot : t.slot = slots.getD (p.stream.delivered.length / TxSlot.beats) fun _ => 0
  pos : t.pos = p.stream.delivered.length % TxSlot.beats
  accepted : t.accepted = p.accepted
  out : t.out = p.out

/-- The cycle of the header remover that is fed with the slots. -/
def follow (slots : List TxSlot) (p : ReadPath R) (i : ReadPathCycle) : RemoverCycle where
  tvalid := p.stream.axisReg.isSome
  idleData := i.idle.tdata
  next := slots.getD (p.stream.delivered.length / TxSlot.beats + 1) fun _ => 0
  hdrReady := i.hdrReady
  mAxisTready := i.mAxisTready

variable {p : ReadPath R} {i : ReadPathCycle} {slots : List TxSlot} {t : RemoverRun R}

/-- The words of the first slots are the words of those slots. -/
theorem wordAt_append {slots more : List TxSlot} {m : ℕ} (hm : m < TxSlot.beats * slots.length) :
    wordAt (slots ++ more) m = wordAt slots m := by
  have hslot : m / TxSlot.beats < slots.length := Nat.div_lt_of_lt_mul hm
  rw [wordAt, wordAt, List.getD_append _ _ _ _ hslot]

/-- No more is read than the accepted descriptors ask for. -/
theorem Reads.fits (h : p.Reads) : p.stream.rdata.length ≤ TxSlot.beats * p.slots.length := by
  obtain ⟨k, hp, hcount⟩ := h.inv.count
  have haccepted := h.inv.tracked.accepted
  rw [← h.slots] at haccepted
  cases hread : p.stream.run.engine.axisRead with
  | false =>
    have hk := hp.idle hread
    simp only [TxSlot.beats] at hcount ⊢
    omega
  | true =>
    have hk := (hp.busy hread).fits
    rw [hread, Bool.toNat_true] at haccepted
    simp only [TxSlot.beats] at hcount ⊢
    omega

/-- After reset nothing was read. -/
theorem reads_start (R : AxisRegister) : (start R).Reads := ⟨DmaRdStream.inv_start, rfl, rfl⟩

/-- A beat that is read belongs to the slot of the oldest burst. -/
theorem Reads.position (h : p.Reads) (hrHs : p.stream.run.engine.rHs (p.stream.cycle (p.rdCycle i)) = true) :
    ∃ k, k < TxSlot.beats ∧ p.stream.run.Progress k ∧ p.stream.rdata.length = TxSlot.beats * p.stream.run.popped + k ∧
      p.stream.run.popped < p.slots.length := by
  have hread : p.stream.run.engine.axisRead = true := h.inv.tracked.ready (Bool.and_eq_true_iff.mp hrHs).1
  obtain ⟨k, hp, hcount⟩ := h.inv.count
  have haccepted := h.inv.tracked.accepted
  rw [hread, Bool.toNat_true, ← h.inv.tracked.finished, ← h.slots] at haccepted
  rw [← h.inv.tracked.finished] at hcount
  exact ⟨k, (hp.busy hread).fits, hp, hcount, by omega⟩

/-- The next beat that is due is the next word of the slots. -/
theorem Reads.rdata_eq (h : p.Reads) (hlegal : p.Legal i)
    (hrHs : p.stream.run.engine.rHs (p.stream.cycle (p.rdCycle i)) = true) : i.rdata = wordAt p.slots p.stream.rdata.length := by
  obtain ⟨k, hk, hp, hcount, hpopped⟩ := h.position hrHs
  have hvalid : i.rvalid = true := (Bool.and_eq_true_iff.mp hrHs).2
  have hne : p.stream.run.due ≠ [] := hlegal.stream.rvalid hvalid
  have hleft : p.stream.run.due.head? = some (TxSlot.beats - k) := by
    obtain ⟨m, hdue⟩ := hp.due
    rw [hdue] at hne ⊢
    by_cases hzero : k = 0
    · subst hzero
      cases m with
      | zero => exact absurd rfl hne
      | succ m => rfl
    · rw [if_neg hzero]
      rfl
  have hdiv : (TxSlot.beats * p.stream.run.popped + k) / TxSlot.beats = p.stream.run.popped := by
    rw [Nat.mul_add_div (by decide), Nat.div_eq_of_lt hk, Nat.add_zero]
  have hmod : (TxSlot.beats * p.stream.run.popped + k) % TxSlot.beats = TxSlot.beats - (TxSlot.beats - k) := by
    rw [Nat.mul_add_mod, Nat.mod_eq_of_lt hk]
    omega
  rw [hlegal.rdata hvalid _ _ (List.getElem?_eq_getElem hpopped) hleft, wordAt, hcount, hdiv, hmod,
    List.getD_eq_getElem _ _ hpopped]

/-- Every cycle reads on in the slots. -/
theorem Reads.step (h : p.Reads) (hlegal : p.Legal i) : (p.step i).Reads where
  inv := h.inv.step hlegal.stream
  slots := by
    show (p.slots ++ _).length = (p.stream.run.descs ++ _).length
    rw [List.length_append, List.length_append, h.slots, accepts]
    cases p.stream.run.engine.accepts (p.stream.cycle (p.rdCycle i)) <;> rfl
  words := by
    have hrdata : (p.step i).stream.rdata =
        p.stream.rdata ++ if p.stream.run.engine.rHs (p.stream.cycle (p.rdCycle i)) then [i.rdata] else [] := rfl
    have hsame : (List.range p.stream.rdata.length).map (wordAt (p.step i).slots) = p.stream.rdata := by
      refine Eq.trans (List.map_congr_left fun m hm => ?_) h.words.symm
      exact wordAt_append (Nat.lt_of_lt_of_le (List.mem_range.mp hm) h.fits)
    rw [hrdata]
    cases hrHs : p.stream.run.engine.rHs (p.stream.cycle (p.rdCycle i)) with
    | false => simpa using hsame.symm
    | true =>
      obtain ⟨k, hk, -, hcount, hpopped⟩ := h.position hrHs
      have hword : i.rdata = wordAt (p.step i).slots p.stream.rdata.length := by
        rw [h.rdata_eq hlegal hrHs]
        refine (wordAt_append ?_).symm
        rw [hcount]
        simp only [TxSlot.beats] at hk ⊢
        omega
      rw [if_pos rfl, List.length_append, List.length_singleton, List.range_succ, List.map_append, hsame, hword]
      rfl

/-- The beat on the stream is the next one of the slots. -/
theorem Reads.axisReg_eq (h : p.Reads) {b : Beat} (hreg : p.stream.axisReg = some b) :
    b = ⟨wordAt p.slots p.stream.delivered.length, 0xFF, decide ((p.stream.delivered.length + 1) % TxSlot.beats = 0), false⟩ ∧
      p.stream.delivered.length < TxSlot.beats * p.slots.length := by
  have hstreams := h.inv.streams
  rw [DmaRdStream.Streams, hreg, Option.toList_some, DmaRdStream.slotBeats, List.append_assoc, List.singleton_append] at hstreams
  have hlength := congrArg List.length hstreams
  rw [List.length_append, List.length_cons, List.length_mapIdx] at hlength
  have hlt : p.stream.delivered.length < p.stream.rdata.length := by omega
  refine ⟨?_, Nat.lt_of_lt_of_le hlt h.fits⟩
  have hget := congrArg (fun l => l[p.stream.delivered.length]?) hstreams
  have hword : p.stream.rdata[p.stream.delivered.length]? = some (wordAt p.slots p.stream.delivered.length) := by
    rw [h.words]
    simp [hlt]
  simpa [List.getElem?_mapIdx, hword] using hget

/-- Idle lines other than the data are not looked at. -/
theorem step_lines_idle (r : AxisHeaderRemover R) {a b : RemoverIn} (ha : a.tvalid = false) (hb : b.tvalid = false)
    (hdata : a.tdata = b.tdata) (hhdr : a.hdrReady = b.hdrReady) (hready : a.mAxisTready = b.mAxisTready) :
    r.step a = r.step b := by
  have hconsumed : r.consumed a = r.consumed b := by rw [AxisHeaderRemover.consumed, AxisHeaderRemover.consumed, ha, hb]
  have hnone : r.consumed b = false := by rw [AxisHeaderRemover.consumed, hb, Bool.and_false]
  have hforwarded : r.axisForwarded a = r.axisForwarded b := by
    simp only [AxisHeaderRemover.axisForwarded, ha, hb, Bool.false_eq_true, if_false]
  have hcompletes : r.completes a = r.completes b := by
    rw [AxisHeaderRemover.completes, AxisHeaderRemover.completes, hconsumed]
  simp only [AxisHeaderRemover.step, hconsumed, hforwarded, hcompletes, hdata, hhdr, hready, hnone, Bool.false_and]

/-- A slot of a longer list. -/
theorem wordAt_of_prefix {slots : List TxSlot} (hfirst : p.slots <+: slots) {m : ℕ} (hm : m < TxSlot.beats * p.slots.length) :
    wordAt slots m = wordAt p.slots m := by
  obtain ⟨more, rfl⟩ := hfirst
  exact wordAt_append hm

/-- The data lines are those of the slots. -/
theorem Follows.tdata_eq (h : p.Follows slots t) (hreads : p.Reads) (hfirst : p.slots <+: slots) :
    (t.lines (p.follow slots i)).tdata = (p.lines i).tdata := by
  cases hreg : p.stream.axisReg with
  | none => simp [RemoverRun.lines, lines, follow, hreg]
  | some b =>
    obtain ⟨hb, hlt⟩ := hreads.axisReg_eq hreg
    rw [← wordAt_of_prefix hfirst hlt] at hb
    simp [RemoverRun.lines, lines, follow, hreg, hb, h.slot, h.pos, wordAt]

/-- What the remover sees is what it would see of the slots. -/
theorem Follows.remover_step (h : p.Follows slots t) (hreads : p.Reads) (hfirst : p.slots <+: slots) :
    (t.step (p.follow slots i)).remover = (p.step i).remover := by
  show t.remover.step (t.lines (p.follow slots i)) = p.remover.step (p.lines i)
  have hdata := h.tdata_eq (i := i) hreads hfirst
  rw [h.remover]
  cases hreg : p.stream.axisReg with
  | none => apply step_lines_idle <;> simp [RemoverRun.lines, lines, follow, hreg]
  | some b =>
    have hlast : decide (p.stream.delivered.length % TxSlot.beats + 1 = TxSlot.beats) =
        decide ((p.stream.delivered.length + 1) % TxSlot.beats = 0) := by
      rw [decide_eq_decide]
      simp only [TxSlot.beats]
      omega
    have hb := (hreads.axisReg_eq hreg).1
    rw [← hlast] at hb
    congr 1
    simp [RemoverRun.lines, lines, follow, hreg, hb, h.pos] at hdata ⊢
    exact hdata

/-- A beat is taken of the slots when one is taken of the stream. -/
theorem Follows.consumed_eq (h : p.Follows slots t) :
    t.consumed (p.follow slots i) = (p.remover.tready && p.stream.axisReg.isSome) := by
  show (t.remover.tready && p.stream.axisReg.isSome) = _
  rw [h.remover]

/-- The beats taken of the stream, one by one. -/
theorem length_delivered_step (p : ReadPath R) (i : ReadPathCycle) : (p.step i).stream.delivered.length =
    p.stream.delivered.length + (p.remover.tready && p.stream.axisReg.isSome).toNat := by
  have hdelivered : (p.step i).stream.delivered =
      p.stream.delivered ++ if p.remover.tready then p.stream.axisReg.toList else [] := rfl
  rw [hdelivered, List.length_append]
  cases p.remover.tready <;> cases p.stream.axisReg <;> rfl

/-- Every cycle of the path is one of the remover that is fed with the slots. -/
theorem Follows.step (h : p.Follows slots t) (hreads : p.Reads) (hfirst : p.slots <+: slots) :
    (p.step i).Follows slots (t.step (p.follow slots i)) := by
  have hlength := length_delivered_step p i
  rw [← h.consumed_eq (i := i)] at hlength
  have hends : t.ends (p.follow slots i) =
      (t.consumed (p.follow slots i) && decide (p.stream.delivered.length % TxSlot.beats + 1 = TxSlot.beats)) := by
    rw [RemoverRun.ends, h.pos]
  have haccepted : (t.step (p.follow slots i)).accepted = (p.step i).accepted := by
    show t.accepted ++ (if i.hdrReady then t.presented else []) = p.accepted ++ if i.hdrReady then p.presented else []
    rw [h.accepted, RemoverRun.presented, presented, h.remover]
  have hout : (t.step (p.follow slots i)).out = (p.step i).out := by
    show t.out ++ R.taken t.remover.axisRegister i.mAxisTready = p.out ++ R.taken p.remover.axisRegister i.mAxisTready
    rw [h.out, h.remover]
  have hpast : (t.step (p.follow slots i)).past = t.past ++ if t.ends (p.follow slots i) then [t.slot] else [] := rfl
  have hslot : (t.step (p.follow slots i)).slot = if t.ends (p.follow slots i) then (p.follow slots i).next else t.slot := rfl
  have hpos : (t.step (p.follow slots i)).pos =
      if t.ends (p.follow slots i) then 0 else if t.consumed (p.follow slots i) then t.pos + 1 else t.pos := rfl
  cases hconsumed : t.consumed (p.follow slots i) with
  | false =>
    rw [hconsumed, Bool.toNat_false, Nat.add_zero] at hlength
    rw [hconsumed, Bool.false_and] at hends
    rw [hends] at hpast hslot hpos
    rw [hconsumed] at hpos
    refine ⟨h.remover_step hreads hfirst, ?_, ?_, ?_, haccepted, hout⟩
    · rw [hpast, hlength, h.past]
      exact List.append_nil _
    · rw [hslot, hlength]
      exact h.slot
    · rw [hpos, hlength]
      exact h.pos
  | true =>
    rw [hconsumed, Bool.toNat_true] at hlength
    rw [hconsumed, Bool.true_and] at hends
    rw [hconsumed] at hpos
    by_cases hlast : p.stream.delivered.length % TxSlot.beats + 1 = TxSlot.beats
    · -- the slot is over
      rw [hends, decide_eq_true hlast] at hpast hslot hpos
      have hdiv : (p.stream.delivered.length + 1) / TxSlot.beats = p.stream.delivered.length / TxSlot.beats + 1 := by
        simp only [TxSlot.beats] at hlast ⊢
        omega
      have hslots : p.stream.delivered.length / TxSlot.beats < slots.length := by
        rw [h.consumed_eq] at hconsumed
        obtain ⟨b, hreg⟩ := Option.isSome_iff_exists.mp (Bool.and_eq_true_iff.mp hconsumed).2
        exact Nat.lt_of_lt_of_le (Nat.div_lt_of_lt_mul (hreads.axisReg_eq hreg).2) hfirst.length_le
      refine ⟨h.remover_step hreads hfirst, ?_, ?_, ?_, haccepted, hout⟩
      · rw [hpast, hlength, hdiv, h.past, h.slot, List.take_add_one, List.getElem?_eq_getElem hslots,
          List.getD_eq_getElem _ _ hslots]
        rfl
      · rw [hslot, hlength, hdiv]
        rfl
      · rw [hpos, hlength]
        simp only [TxSlot.beats] at hlast ⊢
        show 0 = _
        omega
    · rw [hends, decide_eq_false hlast] at hpast hslot hpos
      have hdiv : (p.stream.delivered.length + 1) / TxSlot.beats = p.stream.delivered.length / TxSlot.beats := by
        simp only [TxSlot.beats] at hlast ⊢
        omega
      refine ⟨h.remover_step hreads hfirst, ?_, ?_, ?_, haccepted, hout⟩
      · rw [hpast, hlength, hdiv, h.past]
        exact List.append_nil _
      · rw [hslot, hlength, hdiv]
        exact h.slot
      · rw [hpos, hlength]
        have hold := h.pos
        simp only [TxSlot.beats] at hlast hold ⊢
        show t.pos + 1 = _
        omega

/-- A pending header is not overwritten in this cycle. -/
def AcceptedInTime (p : ReadPath R) (i : ReadPathCycle) : Prop :=
  p.remover.state = .header → p.remover.hdrValid = true → i.hdrReady = false →
    p.remover.hdr.capture p.remover.countHeader.toNat (p.lines i).tdata = p.remover.hdr ∧
      p.remover.completes (p.lines i) = false

/-- The condition is the one on the remover that is fed with the slots. -/
theorem Follows.acceptedInTime (h : p.Follows slots t) (hreads : p.Reads) (hfirst : p.slots <+: slots)
    (hin : p.AcceptedInTime i) : t.AcceptedInTime (p.follow slots i) := by
  have hcompletes : t.remover.completes (t.lines (p.follow slots i)) = p.remover.completes (p.lines i) := by
    rw [AxisHeaderRemover.completes, AxisHeaderRemover.completes, h.remover]
    rfl
  intro hstate hvalid hready
  rw [h.tdata_eq hreads hfirst, hcompletes, h.remover]
  rw [h.remover] at hstate hvalid
  exact hin hstate hvalid hready

/-- Whatever slots come later, the remover is one that is fed with slots, in a state of the given kind. -/
structure Inv (kind : RemoverRun R → Prop) (p : ReadPath R) : Prop where
  reads : p.Reads
  follows : ∀ slots, p.slots <+: slots → ∃ t, kind t ∧ p.Follows slots t

variable {kind : RemoverRun R → Prop}

/-- It holds after reset. -/
theorem inv_start (hkind : ∀ slot, kind (.start R slot)) : (start R).Inv kind := by
  refine ⟨reads_start R, fun slots _ => ⟨.start R (slots.getD 0 fun _ => 0), hkind _, rfl, ?_, ?_, rfl, rfl, rfl⟩⟩
  · exact (congrArg (slots.take ·) (Nat.zero_div TxSlot.beats)).symm
  · exact congrArg (fun n => slots.getD n fun _ => 0) (Nat.zero_div TxSlot.beats).symm

/-- Every cycle that keeps the kind keeps it. -/
theorem Inv.step (h : p.Inv kind) (hlegal : p.Legal i)
    (hkeep : ∀ slots t, p.slots <+: slots → p.Follows slots t → kind t → kind (t.step (p.follow slots i))) :
    (p.step i).Inv kind where
  reads := h.reads.step hlegal
  follows := by
    intro slots hfirst
    have hbefore : p.slots <+: slots := (List.prefix_append _ _).trans hfirst
    obtain ⟨t, ht, hfollows⟩ := h.follows slots hbefore
    exact ⟨_, hkeep slots t hbefore hfollows ht, hfollows.step h.reads hbefore⟩

/-- No more has left than was read. -/
theorem Reads.length_delivered (h : p.Reads) : p.stream.delivered.length ≤ p.stream.rdata.length := by
  have hlength := congrArg List.length h.inv.streams
  rw [DmaRdStream.slotBeats, List.length_mapIdx, List.length_append, List.length_append] at hlength
  omega

/-- Nothing is under way: all the slots were read, and the beats have left. -/
structure Drained (p : ReadPath R) : Prop where
  read : p.stream.rdata.length = TxSlot.beats * p.slots.length
  fifo : p.stream.outFifo = []
  axisReg : p.stream.axisReg = none
  register : R.contents p.remover.axisRegister = []

/-- The stack gets the payloads of the slots in the order of the descriptors, and all of them once nothing is under
way. -/
structure Sends (p : ReadPath R) : Prop where
  order : p.out <+: p.slots.flatMap fun s => s.payload TxSlot.payloadBeats
  complete : p.Drained → p.out = p.slots.flatMap fun s => s.payload TxSlot.payloadBeats

/-- Once all the slots were taken, what has left and what waits in the output register are their payloads. -/
theorem Follows.whole (h : p.Follows p.slots t) (hflowing : t.Flowing)
    (hall : p.stream.delivered.length = TxSlot.beats * p.slots.length) :
    p.out ++ R.contents p.remover.axisRegister = p.slots.flatMap fun s => s.payload TxSlot.payloadBeats := by
  have hdiv : p.stream.delivered.length / TxSlot.beats = p.slots.length := by
    rw [hall]
    exact Nat.mul_div_cancel_left _ (by decide)
  have hpos : t.pos = 0 := by
    rw [h.pos, hall]
    exact Nat.mul_mod_right _ _
  obtain ⟨-, hbetween⟩ := hflowing.between hpos
  rw [h.out, h.remover, h.past, hdiv, List.take_length] at hbetween
  exact hbetween

/-- The slots that were taken, with the one that is being taken. -/
theorem Follows.take_succ (h : p.Follows p.slots t) (hmore : p.stream.delivered.length / TxSlot.beats < p.slots.length) :
    t.past ++ [t.slot] = p.slots.take (p.stream.delivered.length / TxSlot.beats + 1) := by
  rw [h.past, h.slot, List.take_add_one, List.getElem?_eq_getElem hmore, List.getD_eq_getElem _ _ hmore]
  rfl

/-- The payloads of the first slots begin those of all slots. -/
theorem payloads_take (slots : List TxSlot) (n : ℕ) : ((slots.take n).flatMap fun s => s.payload TxSlot.payloadBeats) <+:
    slots.flatMap fun s => s.payload TxSlot.payloadBeats := by
  refine ⟨(slots.drop n).flatMap fun s => s.payload TxSlot.payloadBeats, ?_⟩
  rw [← List.flatMap_append, List.take_append_drop]

/-- What leaves are the payloads of the slots. -/
theorem Inv.sends (h : p.Inv RemoverRun.Flowing) : p.Sends where
  order := by
    obtain ⟨t, hflowing, hfollows⟩ := h.follows p.slots (List.prefix_refl _)
    by_cases hmore : p.stream.delivered.length / TxSlot.beats < p.slots.length
    · have hout := hflowing.out_isPrefix
      rw [hfollows.take_succ hmore, hfollows.out] at hout
      exact hout.trans (payloads_take _ _)
    · have hfits := Nat.le_trans h.reads.length_delivered h.reads.fits
      have hall : p.stream.delivered.length = TxSlot.beats * p.slots.length := by
        simp only [TxSlot.beats] at hmore hfits ⊢
        omega
      rw [← hfollows.whole hflowing hall]
      exact List.prefix_append _ _
  complete := by
    intro hdrained
    obtain ⟨t, hflowing, hfollows⟩ := h.follows p.slots (List.prefix_refl _)
    have hall := congrArg List.length h.reads.inv.streams
    rw [hdrained.axisReg, hdrained.fifo, DmaRdStream.slotBeats, List.length_mapIdx, hdrained.read, Option.toList_none,
      List.append_nil, List.append_nil] at hall
    have hwhole := hfollows.whole hflowing hall
    rw [hdrained.register, List.append_nil] at hwhole
    exact hwhole

/-- In every run the payloads of the slots in memory reach the stack. -/
theorem payloads_of_reachable (R : AxisRegister) {p : ReadPath R} (h : (machine R).Reachable (start R) p) : p.Sends := by
  have hstart : (start R).Inv RemoverRun.Flowing := inv_start fun slot => RemoverRun.flowing_of_reachable (.refl _ _)
  refine (Clocked.Machine.invariant hstart (fun p i hp hi => hp.step hi ?_) h).sends
  intro slots t _ _ hflowing
  exact hflowing.run [_]

/-- The slots whose header words were all taken. -/
def split (p : ReadPath R) : List TxSlot :=
  p.slots.take (p.stream.delivered.length / TxSlot.beats + if p.remover.state = .payload then 1 else 0)

/-- The stack gets the header of each slot once and in order, and no payload before its header was presented. -/
structure Paired (p : ReadPath R) : Prop where
  headers : p.accepted ++ p.presented = p.split.map TxSlot.header
  payloads : p.out <+: p.split.flatMap fun s => s.payload TxSlot.payloadBeats

/-- The slots are those of the remover that is fed with them. -/
theorem Follows.split_eq (h : p.Follows p.slots t) (hreads : p.Reads) (hstage : t.Stage) : t.split = p.split := by
  rw [RemoverRun.split, split, h.remover]
  cases hstage with
  | header hstate hpos hlt hhdr =>
    rw [h.remover] at hstate
    simp [hstate, h.past]
  | payload hstate hpos hlt hhdr =>
    have hmore : p.stream.delivered.length / TxSlot.beats < p.slots.length := by
      have hfits := Nat.le_trans hreads.length_delivered hreads.fits
      rw [h.pos] at hpos
      simp only [TxSlot.beats, UdpHeader.numWords] at hpos hfits ⊢
      omega
    rw [h.remover] at hstate
    rw [if_pos hstate, if_pos hstate]
    exact h.take_succ hmore

/-- The headers and the payloads of the slots are in step. -/
theorem Inv.paired (h : p.Inv RemoverRun.Settled) : p.Paired := by
  obtain ⟨t, hsettled, hfollows⟩ := h.follows p.slots (List.prefix_refl _)
  have hsplit := hfollows.split_eq h.reads hsettled.stage
  refine ⟨?_, ?_⟩
  · have hheaders := hsettled.headers
    rw [hsplit, hfollows.accepted, RemoverRun.presented, hfollows.remover] at hheaders
    exact hheaders
  · have hpayloads := (hsettled.inOrder (i := RemoverRun.flowingCycle) fun _ _ hready => absurd hready.symm Bool.false_ne_true).payloads
    rw [hsplit, hfollows.out] at hpayloads
    exact hpayloads

/-- In every run in which no pending header is overwritten, the headers and the payloads of the slots in memory reach
the stack in step. -/
theorem paired_of_reachable (R : AxisRegister) {p : ReadPath R}
    (h : ((machine R).restrict AcceptedInTime).Reachable (start R) p) : p.Paired := by
  have hstart : (start R).Inv RemoverRun.Settled := inv_start (RemoverRun.settled_start R)
  refine (Clocked.Machine.invariant (m := (machine R).restrict AcceptedInTime) hstart (fun p i hp hi => ?_) h).paired
  exact hp.step hi.1 fun slots t hfirst hfollows ht => ht.step (hfollows.acceptedInTime hp.reads hfirst hi.2)

section Witness

instance (p : ReadPath R) (i : ReadPathCycle) : Decidable (p.Legal i) :=
  decidable_of_iff (DmaRdStream.machine.legal p.stream (p.rdCycle i) ∧ (i.rvalid = true →
      ∀ slot ∈ p.slots[p.stream.run.popped]?.toList, ∀ left ∈ p.stream.run.due.head?.toList,
        i.rdata = slot (TxSlot.beats - left)))
    ⟨fun h => ⟨h.1, fun hvalid slot left hslot hleft =>
        h.2 hvalid slot (Option.mem_toList.mpr hslot) left (Option.mem_toList.mpr hleft)⟩,
      fun h => ⟨h.stream, fun hvalid slot hslot left hleft =>
        h.rdata hvalid slot left (Option.mem_toList.mp hslot) (Option.mem_toList.mp hleft)⟩⟩

instance (p : ReadPath R) (i : ReadPathCycle) : Decidable ((machine R).legal p i) := inferInstanceAs (Decidable (p.Legal i))

instance (p : ReadPath R) (i : ReadPathCycle) : Decidable (p.AcceptedInTime i) :=
  inferInstanceAs (Decidable (_ → _ → _ → _))

instance (p : ReadPath R) (i : ReadPathCycle) : Decidable (((machine R).restrict AcceptedInTime).legal p i) :=
  inferInstanceAs (Decidable (p.Legal i ∧ p.AcceptedInTime i))

/-- The cycles in which a slot with ten bytes is read and sent. -/
def tenBytes : List ReadPathCycle :=
  List.replicate 2 ⟨some ⟨0x800, 2048⟩, RemoverRun.slotOf 10, true, false, 0, ⟨0, 0, false, false⟩, true, true⟩ ++
    List.replicate 3 ⟨none, RemoverRun.slotOf 10, true, false, 0, ⟨0, 0, false, false⟩, true, true⟩ ++
    (List.range 256).map (fun k =>
      ⟨none, RemoverRun.slotOf 10, true, true, RemoverRun.slotOf 10 k, ⟨0, 0, false, false⟩, true, true⟩) ++
    List.replicate 5 ⟨none, RemoverRun.slotOf 10, true, false, 0, ⟨0, 0, false, false⟩, true, true⟩

/-- The payload is two words. -/
theorem sends_tenBytes : ((machine .twoDeep).run (start .twoDeep) tenBytes).out.length = 2 ∧
    ((machine .twoDeep).run (start .twoDeep) tenBytes).Sends :=
  ⟨by decide +kernel, payloads_of_reachable .twoDeep ⟨tenBytes, by decide +kernel, rfl⟩⟩

/-- It comes with its header. -/
theorem paired_tenBytes : ((machine .twoDeep).run (start .twoDeep) tenBytes).accepted.length = 1 ∧
    ((machine .twoDeep).run (start .twoDeep) tenBytes).Paired :=
  ⟨by decide +kernel, paired_of_reachable .twoDeep ⟨tenBytes, by decide +kernel, rfl⟩⟩

end Witness

end ReadPath

end UdpIpCore
