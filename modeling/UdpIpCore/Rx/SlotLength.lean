import Mathlib.Algebra.Group.Nat.Defs
import UdpIpCore.Rx.RxStore
import UdpIpCore.Userspace.RxConsumer

/-!
# The length in a slot

The first word of a slot is the presented `udp_length` less the UDP header, computed in 32
bits and not compared with anything. The bytes that are stored end with the slot. The two
agree exactly for datagrams that have a UDP header and whose payload fits in the slot.
-/

namespace UdpIpCore

/-- The payload carries `n` bytes, without a gap before the last one. -/
structure Packet.Packs (p : Packet) (n : ℕ) : Prop where
  length : p.payload.length = max 1 ((n + 7) / 8)
  keep : ∀ k < 8 * p.payload.length,
    (p.payload[k / 8]?.any fun b => b.tkeep.getLsbD (k % 8)) = decide (k < n)

/-- The payload is as long as the header says, if that is possible. -/
def Packet.Whole (p : Packet) : Prop := 8 ≤ p.hdr.udpLength.toNat → p.Packs (p.hdr.udpLength.toNat - 8)

instance (p : Packet) (n : ℕ) : Decidable (p.Packs n) :=
  decidable_of_iff (p.payload.length = max 1 ((n + 7) / 8) ∧ ∀ k < 8 * p.payload.length,
    (p.payload[k / 8]?.any fun b => b.tkeep.getLsbD (k % 8)) = decide (k < n))
    ⟨fun h => ⟨h.1, h.2⟩, fun h => ⟨h.length, h.keep⟩⟩

instance (p : Packet) : Decidable p.Whole := inferInstanceAs (Decidable (_ → _))

/-- Byte `k` of the slot is written by the burst. -/
def stored (beats : List WBeat) (k : ℕ) : Bool := beats[k / 8]?.any fun b => b.wstrb.getLsbD (k % 8)

/-- The slot after a burst. -/
def Slot.store (slot : Slot) (beats : List WBeat) : Slot := fun k =>
  match beats[k / 8]? with
  | some b => if b.wstrb.getLsbD (k % 8) then b.wdata.extractLsb' (8 * (k % 8)) 8 else slot k
  | none => slot k

/-- The payload bytes a burst stores in its slot. -/
def payloadStored (beats : List WBeat) : ℕ :=
  (List.range (bufferElemMaxSize - Udriver.packetHdrSizeBytes)).countP fun k =>
    stored beats (Udriver.packetHdrSizeBytes + k)

/-- Whatever the slot held before, the burst leaves a length that is the number of its payload bytes, and a
consumer that copies that many bytes stays within the slot. -/
def Truthful (beats : List WBeat) : Prop :=
  ∀ slot : Slot, Udriver.payloadSizeBytes ((List.range Udriver.packetHdrSizeBytes).map (slot.store beats)) =
    payloadStored beats ∧ (slot.store beats).Fits

/-- With all strobes set every byte is written. -/
theorem getLsbD_full {k : ℕ} (hk : k < 8) : (0xFF : BitVec 8).getLsbD k = true := by
  have hall : ∀ k < 8, (0xFF : BitVec 8).getLsbD k = true := by decide
  exact hall k hk

/-- The word a consumer finds when the first beat was written completely. -/
theorem payloadSizeBytes_store (slot : Slot) {beats : List WBeat} {word : BitVec 64} {wlast : Bool}
    (h : beats.head? = some ⟨word, 0xFF, wlast⟩) :
    Udriver.payloadSizeBytes ((List.range Udriver.packetHdrSizeBytes).map (slot.store beats)) = word.toNat := by
  have hbyte (k : ℕ) (hk : k < 8) : slot.store beats k = word.extractLsb' (8 * k) 8 := by
    have hzero : k / 8 = 0 := Nat.div_eq_of_lt hk
    have hstrobe := getLsbD_full hk
    rw [List.head?_eq_getElem?] at h
    simp only [Slot.store, hzero, h, Nat.mod_eq_of_lt hk, hstrobe, if_true]
  have hlt := word.isLt
  simp only [Udriver.payloadSizeBytes, List.range, List.range.loop, List.map_cons, List.take_succ_cons,
    List.take_zero, List.foldr_cons, List.foldr_nil, hbyte 0 (by omega), hbyte 1 (by omega), hbyte 2 (by omega),
    hbyte 3 (by omega), hbyte 4 (by omega), hbyte 5 (by omega), hbyte 6 (by omega), hbyte 7 (by omega),
    BitVec.extractLsb'_toNat, Nat.shiftRight_eq_div_pow]
  omega

namespace WriteJob

/-- The beats of a burst, one by one. -/
theorem getElem?_burst (len : ℕ) (frame : List Beat) (i : ℕ) :
    (burst len frame)[i]? = if i < burstLength len then some (wbeat len frame i) else none := by
  rw [burst, List.getElem?_map]
  by_cases hi : i < burstLength len
  · rw [List.getElem?_range hi, if_pos hi]
    rfl
  · rw [List.getElem?_eq_none (by rw [List.length_range]; omega), if_neg hi]
    rfl

/-- The strobes of a beat that the length does not cut. -/
theorem strobe_of_not_cut {len i : ℕ} (h : ¬ (i + 1 = burstLength len ∧ 0 < len % 8)) (b : Beat) :
    strobe len i b = if b.tlast then b.tkeep else 0xFF := by
  simp only [strobe, h, false_and, if_false]

end WriteJob

section Burst

open WriteJob

variable {p : Packet} {n len : ℕ}

/-- The first beat of a burst is the length word, written completely. -/
theorem head?_burst (hlen : 40 ≤ len) :
    (burst len p.frame).head? = some ⟨p.hdr.word 0, 0xFF, decide (1 = burstLength len)⟩ := by
  have hlong : 5 ≤ burstLength len := by
    rw [burstLength]
    omega
  have hnot : ¬ (0 + 1 = burstLength len ∧ 0 < len % 8) := by omega
  have hget : p.frame[0]? = some (p.hdr.beat 0) := rfl
  rw [List.head?_eq_getElem?, getElem?_burst, if_pos (by omega), wbeat, hget]
  dsimp only
  rw [strobe_of_not_cut hnot]
  rfl

/-- The bytes of the payload that are stored: those it has, as far as the slot goes. -/
theorem stored_burst (h : p.Packs n) (k : ℕ) :
    stored (burst (min (n + 48) 2048) p.frame) (Udriver.packetHdrSizeBytes + k) = decide (k < n ∧ k < 2008) := by
  have hlength := h.length
  have hdiv : (Udriver.packetHdrSizeBytes + k) / 8 = 5 + k / 8 := by
    rw [Udriver.packetHdrSizeBytes]
    omega
  have hmod : (Udriver.packetHdrSizeBytes + k) % 8 = k % 8 := by
    rw [Udriver.packetHdrSizeBytes]
    omega
  have hget : p.frame[5 + k / 8]? = p.payload[k / 8]? := by
    rw [Packet.frame, List.getElem?_append_right (by rw [UdpHeader.length_beats]; exact Nat.le_add_right _ _),
      UdpHeader.length_beats, Nat.add_sub_cancel_left]
  rw [stored, hdiv, hmod, getElem?_burst]
  by_cases hburst : 5 + k / 8 < burstLength (min (n + 48) 2048)
  · rw [if_pos hburst, Option.any_some, wbeat, hget]
    rw [burstLength] at hburst
    by_cases hframe : k / 8 < p.payload.length
    · have hkeep := h.keep k (by omega)
      have hlast := p.framed (k / 8) hframe
      have hnot : ¬ (5 + k / 8 + 1 = burstLength (min (n + 48) 2048) ∧ 0 < min (n + 48) 2048 % 8) := by
        rw [burstLength]
        omega
      rw [List.getElem?_eq_getElem hframe] at hkeep ⊢
      rw [Option.any_some] at hkeep
      dsimp only
      rw [strobe_of_not_cut hnot, hlast]
      by_cases hend : k / 8 + 1 = p.payload.length
      · rw [decide_eq_true hend, if_pos rfl, hkeep, decide_eq_decide]
        omega
      · rw [decide_eq_false hend, if_neg (by simp), getLsbD_full (Nat.mod_lt k (by omega))]
        rw [eq_comm, decide_eq_true_eq]
        omega
    · rw [List.getElem?_eq_none (by omega)]
      have hnone : (0 : BitVec 8).getLsbD (k % 8) = false := BitVec.getLsbD_zero
      dsimp only
      rw [hnone, eq_comm, decide_eq_false_iff_not]
      omega
  · rw [if_neg hburst, Option.any_none]
    rw [burstLength] at hburst
    rw [eq_comm, decide_eq_false_iff_not]
    omega

/-- How many of the first numbers are below a bound. -/
theorem countP_range_lt (m n : ℕ) : (List.range m).countP (fun k => decide (k < n)) = min n m := by
  induction m with
  | zero => simp
  | succ m ih =>
    rw [List.range_succ, List.countP_append, ih, List.countP_singleton]
    by_cases hm : m < n
    · rw [decide_eq_true hm, if_pos rfl]
      omega
    · rw [decide_eq_false hm, if_neg (by simp)]
      omega

/-- As many bytes of the payload are stored as it has, at most what the slot leaves for it. -/
theorem payloadStored_burst (h : p.Packs n) : payloadStored (burst (min (n + 48) 2048) p.frame) = min n 2008 := by
  have hstored : (fun k => stored (burst (min (n + 48) 2048) p.frame) (Udriver.packetHdrSizeBytes + k)) =
      fun k => decide (k < min n 2008) := by
    funext k
    rw [stored_burst h, decide_eq_decide]
    omega
  rw [payloadStored, hstored, countP_range_lt, bufferElemMaxSize, Udriver.packetHdrSizeBytes]
  omega

/-- The length word of a datagram without a UDP header is far beyond the slot. -/
theorem toNat_word_zero (hdr : UdpHeader) :
    (hdr.word 0).toNat = if 8 ≤ hdr.udpLength.toNat then hdr.udpLength.toNat - 8 else 2 ^ 32 + hdr.udpLength.toNat - 8 := by
  have hlt := hdr.udpLength.isLt
  have height : (8 : BitVec 32).toNat = 8 := rfl
  rw [UdpHeader.word, BitVec.toNat_setWidth, BitVec.toNat_sub, BitVec.toNat_setWidth, height]
  split <;> omega

/-- The burst of a datagram is truthful exactly for those with a UDP header and a payload that fits. -/
theorem truthful_burst_iff (h : p.Whole) :
    Truthful (burst (min (p.hdr.udpLength.toNat + 40) 2048) p.frame) ↔
      8 ≤ p.hdr.udpLength.toNat ∧ p.hdr.udpLength.toNat ≤ 2016 := by
  have hword := toNat_word_zero p.hdr
  have hread (slot : Slot) := payloadSizeBytes_store slot
    (head?_burst (p := p) (show 40 ≤ min (p.hdr.udpLength.toNat + 40) 2048 by omega))
  constructor
  · intro htruthful
    have hfits := (htruthful fun _ => 0).2
    rw [Slot.Fits, hread, hword, bufferElemMaxSize, Udriver.packetHdrSizeBytes] at hfits
    split at hfits <;> omega
  · intro hlength slot
    have hpacks := h hlength.1
    have hcut : min (p.hdr.udpLength.toNat + 40) 2048 = min (p.hdr.udpLength.toNat - 8 + 48) 2048 := by omega
    have hcount := payloadStored_burst hpacks
    rw [← hcut] at hcount
    rw [if_pos hlength.1] at hword
    refine ⟨?_, ?_⟩
    · rw [hread, hword, hcount]
      omega
    · rw [Slot.Fits, hread, hword, bufferElemMaxSize, Udriver.packetHdrSizeBytes]
      omega

end Burst

namespace RxStore

variable {R : AxisRegister}

/-- The RX path and its DMA under any configuration, behind a source of whole packets. -/
def machine (R : AxisRegister) : Clocked.Machine (RxStore R) StoreCycle where
  step := step
  legal := fun t i => t.path.front.EnvLegal (t.frontCycle i) ∧ Aligned i ∧ ∀ p, i.next = some p → p.Whole

instance (next : Option Packet) : Decidable (∀ p, next = some p → p.Whole) :=
  inferInstanceAs (Decidable (∀ p ∈ next, p.Whole))

instance (t : RxStore R) (i : StoreCycle) : Decidable ((machine R).legal t i) :=
  inferInstanceAs (Decidable (_ ∧ _ ∧ _))

/-- Every burst that was written leaves a truthful slot. -/
def SlotsTruthful (t : RxStore R) (_ : StoreCycle) : Prop := ∀ j ∈ t.dma.jobs, j.Complete → Truthful j.passed

/-- The header words and the length that are used for a packet are its own: the two samples of its port test
agree, each word is sent while the field is still presented, and so is the length when its descriptor is accepted. -/
structure OwnFields (t : RxStore R) (i : StoreCycle) : Prop where
  samples : t.path.front.SamplesAgree (t.frontCycle i)
  ownWord : t.path.front.adder.state = .forwHdr → t.path.front.adder.forwardedTready = true →
    i.hdr.word t.path.front.adder.countHeader.toNat =
      t.path.front.emitting.hdr.word t.path.front.adder.countHeader.toNat
  ownLength : t.accepting i = true → ∀ p, t.path.front.started[t.dma.jobs.length]? = some p →
    i.hdr.udpLength = p.hdr.udpLength

instance (hdr : UdpHeader) (next : Option Packet) :
    Decidable (∀ p, next = some p → hdr.udpLength = p.hdr.udpLength) :=
  inferInstanceAs (Decidable (∀ p ∈ next, hdr.udpLength = p.hdr.udpLength))

instance (t : RxStore R) (i : StoreCycle) : Decidable (t.OwnFields i) :=
  decidable_of_iff (t.path.front.SamplesAgree (t.frontCycle i) ∧
    (t.path.front.adder.state = .forwHdr → t.path.front.adder.forwardedTready = true →
      i.hdr.word t.path.front.adder.countHeader.toNat =
        t.path.front.emitting.hdr.word t.path.front.adder.countHeader.toNat) ∧
    (t.accepting i = true → ∀ p, t.path.front.started[t.dma.jobs.length]? = some p →
      i.hdr.udpLength = p.hdr.udpLength))
    ⟨fun ⟨h₁, h₂, h₃⟩ => ⟨h₁, h₂, h₃⟩, fun ⟨h₁, h₂, h₃⟩ => ⟨h₁, h₂, h₃⟩⟩

instance (t : RxStore R) (i : StoreCycle) : Decidable (((machine R).restrict OwnFields).legal t i) :=
  inferInstanceAs (Decidable ((machine R).legal t i ∧ t.OwnFields i))

/-- Each job has the length of its packet. -/
def Measured (t : RxStore R) : Prop :=
  t.Described fun _ p desc => desc.len = DmaWriteControl.lenBytes p.hdr.udpLength

/-- What holds between any two cycles of a run in which the fields are the packet's own. -/
structure Owned (t : RxStore R) : Prop where
  fed : t.Fed
  aligned : t.path.front.Aligned
  emitted : t.path.front.Emitted
  whole : t.path.front.rx.Announces Packet.Whole
  measured : t.Measured

/-- The run starts without packets. -/
theorem owned_start (p : Packet) : (start R p).Owned where
  fed := fed_start p
  aligned := FrontEnd.aligned_start p
  emitted := FrontEnd.emitted_start p
  whole := FilterRun.announces_start _ p
  measured := by simp [Measured, Described, start, DmaWrRun.start, DmaWrRun.jobs]

section Cycle

variable {t : RxStore R} {i : StoreCycle}

/-- Every cycle in which the fields are the packet's own keeps this. -/
theorem Owned.step (h : t.Owned) (hlegal : (machine R).legal t i) (hown : t.OwnFields i) : (t.step i).Owned where
  fed := h.fed.step hlegal.2.1
  aligned := FrontEnd.aligned_step h.aligned hlegal.1 hown.samples
  emitted := FrontEnd.emitted_step h.emitted h.aligned.framed ⟨hown.samples.seenOnce, hown.ownWord⟩
  whole := FilterRun.announces_step h.whole h.aligned.paced.stage hlegal.2.2
  measured := h.fed.described_step h.measured fun haccepting p hp =>
    congrArg DmaWriteControl.lenBytes (hown.ownLength haccepting p hp)

/-- The burst of a job carries the frame of its packet. -/
theorem Owned.passed_eq (h : t.Owned) {k : ℕ} {j : WriteJob} (hj : t.dma.jobs[k]? = some j) (hcomplete : j.Complete) :
    ∃ p, t.path.front.started[k]? = some p ∧ p.Whole ∧
      j.passed = WriteJob.burst (min (p.hdr.udpLength.toNat + 40) 2048) p.frame := by
  have hlt : k < t.path.front.started.length :=
    Nat.lt_of_lt_of_le (List.getElem?_eq_some_iff.mp hj).1 h.fed.begun
  obtain ⟨p, hp⟩ : ∃ p, t.path.front.started[k]? = some p := ⟨_, List.getElem?_eq_getElem hlt⟩
  have hlen := h.measured k p j.desc hp (by rw [List.getElem?_map, hj]; rfl)
  have hwhole : p.Whole :=
    h.whole.checked h.aligned.paced.stage (h.aligned.paced.behind.subset (List.mem_of_getElem? hp))
  have hframes : ∀ frame ∈ t.path.front.started.map Packet.frame, Framing.Frame Beat.tlast frame := by
    intro frame hframe
    obtain ⟨q, -, rfl⟩ := List.mem_map.mp hframe
    exact q.frame_framed
  have hframe : (t.path.front.started.map Packet.frame)[k]? = some p.frame := by
    rw [List.getElem?_map, hp]
    rfl
  have htaken := DmaWrRun.taken_isPrefix h.fed.tracked hframes
    (h.fed.taken ▸ FrontEnd.out_isPrefix h.emitted h.aligned.framed) hj hframe
  refine ⟨p, hp, hwhole, ?_⟩
  rw [DmaWrRun.passed_eq_burst h.fed.tracked (List.mem_of_getElem? hj) hcomplete p.frame_framed htaken,
    WriteJob.len, hlen, DmaWriteControl.toNat_lenBytes]

end Cycle

/-- In every run in which the fields are the packet's own, each burst fills a slot from its beginning, and
it is truthful exactly for a `udp_length` from 8 to 2016. -/
theorem truthful_iff_fits (R : AxisRegister) (p : Packet) {t : RxStore R}
    (h : ((machine R).restrict OwnFields).Reachable (start R p) t) {k : ℕ} {j : WriteJob}
    (hj : t.dma.jobs[k]? = some j) (hcomplete : j.Complete) :
    ∃ q, t.path.front.started[k]? = some q ∧ j.bursts = [(j.desc.addr, j.passed.length - 1)] ∧
      j.desc.addr.toNat % bufferElemMaxSize = 0 ∧
      (Truthful j.passed ↔ 8 ≤ q.hdr.udpLength.toNat ∧ q.hdr.udpLength.toNat ≤ 2016) := by
  have howned : t.Owned := by
    refine Clocked.Machine.invariant (owned_start p) ?_ h
    rintro t i ht ⟨hlegal, hown⟩
    exact ht.step hlegal hown
  obtain ⟨q, hq, hwhole, hpassed⟩ := howned.passed_eq hj hcomplete
  obtain ⟨hbursting, -⟩ := DmaWrRun.bursting_of_complete howned.fed.tracked (List.mem_of_getElem? hj) hcomplete
  refine ⟨q, hq, ?_, hbursting.slot.1, ?_⟩
  · rw [hbursting.bursts, show j.passed.length = _ from hcomplete]
  · rw [hpassed, truthful_burst_iff hwhole]

/-- A one-beat packet for port 7400. -/
def datagram (udpLength : BitVec 16) : Packet := .single ⟨0, 0, 0, 7400, udpLength⟩ 0 0xFF

/-- A cycle with a free write channel in which that packet's header is presented. -/
def presenting (udpLength : BitVec 16) (drive : Bool) (next : Option Packet) : StoreCycle where
  config := FrontEnd.firstPort true
  hdr := ⟨0, 0, 0, 7400, udpLength⟩
  drive := drive
  next := next
  sharedMemBase := 0
  slave := ⟨true, true, true⟩
  popped := fun _ => false

/-- The packet is presented, taken and stored. -/
def storing (udpLength : BitVec 16) : List StoreCycle :=
  [presenting udpLength false (some (datagram udpLength)), presenting udpLength false none,
    presenting udpLength false none, presenting udpLength true none] ++
  List.replicate 11 (presenting udpLength false none)

/-- The run that stores a datagram of 16 bytes. -/
def stored16 : RxStore .twoDeep := (machine .twoDeep).run (start .twoDeep (datagram 16)) (storing 16)

/-- The slot of a datagram of 16 bytes is truthful. -/
theorem truthful_datagram : ∃ j, stored16.dma.jobs[0]? = some j ∧ Truthful j.passed := by
  have hreach : ((machine .twoDeep).restrict OwnFields).Reachable (start .twoDeep (datagram 16)) stored16 :=
    ⟨storing 16, by decide +kernel, rfl⟩
  obtain ⟨j, hj⟩ : ∃ j, stored16.dma.jobs[0]? = some j := Option.isSome_iff_exists.mp (by decide +kernel)
  have hcomplete : (stored16.dma.jobs[0]?.any fun j => decide j.Complete) = true := by decide +kernel
  have hstarted : stored16.path.front.started[0]? = some (datagram 16) := by decide +kernel
  rw [hj, Option.any_some, decide_eq_true_eq] at hcomplete
  obtain ⟨q, hq, -, -, htruthful⟩ := truthful_iff_fits .twoDeep (datagram 16) hreach hj hcomplete
  rw [hstarted, Option.some.injEq] at hq
  exact ⟨j, hj, htruthful.mpr (hq ▸ by decide)⟩

/-- A datagram whose `udp_length` is zero leaves a length close to 2^32. -/
theorem not_slotsTruthful :
    ¬ (machine .twoDeep).Always (start .twoDeep (datagram 0)) SlotsTruthful := by
  refine Clocked.Machine.not_always_of_run (storing 0) (presenting 0 false none)
    (by decide +kernel) (by decide +kernel) fun h => ?_
  obtain ⟨j, hj⟩ : ∃ j, ((machine .twoDeep).run (start .twoDeep (datagram 0)) (storing 0)).dma.jobs[0]? = some j :=
    Option.isSome_iff_exists.mp (by decide +kernel)
  have hburst : (((machine .twoDeep).run (start .twoDeep (datagram 0)) (storing 0)).dma.jobs[0]?.all fun j =>
      decide (j.Complete ∧ ¬ (Slot.store (fun _ => 0) j.passed).Fits)) = true := by decide +kernel
  rw [hj, Option.all_some, decide_eq_true_eq] at hburst
  exact hburst.2 (h j (List.mem_of_getElem? hj) hburst.1 fun _ => 0).2

end RxStore

end UdpIpCore
