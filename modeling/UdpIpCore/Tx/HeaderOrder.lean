import UdpIpCore.Clocked
import UdpIpCore.Rtl.AxisHeaderRemover

/-!
# The header handshake of the TX path

The read DMA feeds whole slots to the header remover, which presents the header of each
slot until it is accepted while it forwards the payload. The header registers are written
by state and word count alone, so a header that is still pending when the slot is over is
overwritten by the lines of the next one.
-/

namespace UdpIpCore

/-- The 64-bit words of a slot of the TX ring. -/
abbrev TxSlot := ℕ → BitVec 64

namespace TxSlot

/-- The beats of a slot, `TRANS_MAX_LENGTH` bytes. -/
abbrev beats : ℕ := 256

/-- The beats behind the header words. -/
abbrev payloadBeats : ℕ := 251

/-- The header stored in a slot. -/
def header (s : TxSlot) : UdpHeader where
  udpLength := (s 0).setWidth 16
  sourceIp := (s 1).setWidth 32
  sourcePort := (s 2).setWidth 16
  destIp := (s 3).setWidth 32
  destPort := (s 4).setWidth 16

/-- The beat of a slot at the given position behind the header. -/
def payloadBeat (s : TxSlot) (k : ℕ) : Beat :=
  ⟨s (UdpHeader.numWords + k), 0xFF, decide (UdpHeader.numWords + k + 1 = beats), false⟩

/-- What is forwarded of the first beats behind the header. -/
def payload (s : TxSlot) (n : ℕ) : List Beat :=
  (List.range n).filterMap fun k => AxisHeaderRemover.forwarded s.header.udpLength k (s.payloadBeat k)

/-- One more beat is forwarded or dropped. -/
theorem payload_succ (s : TxSlot) (n : ℕ) : s.payload (n + 1) =
    s.payload n ++ (AxisHeaderRemover.forwarded s.header.udpLength n (s.payloadBeat n)).toList := by
  rw [payload, List.range_succ, List.filterMap_append, ← payload, List.filterMap_cons, List.filterMap_nil]
  cases AxisHeaderRemover.forwarded s.header.udpLength n (s.payloadBeat n) <;> rfl

end TxSlot

namespace UdpHeader

/-- A header field by the number of its word. -/
def field (h : UdpHeader) : ℕ → BitVec 32
  | 0 => h.udpLength.setWidth 32
  | 1 => h.sourceIp
  | 2 => h.sourcePort.setWidth 32
  | 3 => h.destIp
  | 4 => h.destPort.setWidth 32
  | _ => 0

/-- The field a header word stands for. -/
def wordField (tdata : BitVec 64) : ℕ → BitVec 32
  | 1 | 3 => tdata.setWidth 32
  | 0 | 2 | 4 => (tdata.setWidth 16).setWidth 32
  | _ => 0

/-- Two headers agree on the first fields, in the order of the header words. -/
def Agree (h g : UdpHeader) (n : ℕ) : Prop := ∀ k, k < n → h.field k = g.field k

/-- Agreement on all fields is equality. -/
theorem Agree.eq {h g : UdpHeader} (hagree : h.Agree g numWords) : h = g := by
  have hinj (x y : BitVec 16) (hxy : x.setWidth 32 = y.setWidth 32) : x = y := by
    have htrunc := congrArg (BitVec.setWidth 16) hxy
    simpa using htrunc
  have hudpLength := hinj _ _ (hagree 0 (by decide))
  have hsourceIp : h.sourceIp = g.sourceIp := hagree 1 (by decide)
  have hsourcePort := hinj _ _ (hagree 2 (by decide))
  have hdestIp : h.destIp = g.destIp := hagree 3 (by decide)
  have hdestPort := hinj _ _ (hagree 4 (by decide))
  cases h
  cases g
  simp_all

/-- The register of one field follows the lines and the others keep their values. -/
theorem field_capture (h : UdpHeader) (tdata : BitVec 64) (n k : ℕ) :
    (h.capture n tdata).field k = if n = k then wordField tdata k else h.field k := by
  match k with
  | 1 | 3 => rfl
  | 0 | 2 | 4 =>
    simp only [field, capture, wordField]
    split <;> rfl
  | k + 5 => simp [field, wordField]

/-- The fields of a stored header are those of its words. -/
theorem field_header (s : TxSlot) (k : ℕ) : s.header.field k = wordField (s k) k := by
  match k with
  | 0 | 1 | 2 | 3 | 4 => rfl
  | k + 5 => rfl

/-- The register that follows the lines is none of those captured before. -/
theorem Agree.capture {h g : UdpHeader} {n : ℕ} (hagree : h.Agree g n) (tdata : BitVec 64) :
    (h.capture n tdata).Agree g n := by
  intro k hk
  rw [field_capture, if_neg (by omega)]
  exact hagree k hk

/-- A word that is taken completes its field. -/
theorem Agree.capture_word {h : UdpHeader} {s : TxSlot} {n : ℕ} (hagree : h.Agree s.header n) :
    (h.capture n (s n)).Agree s.header (n + 1) := by
  intro k hk
  rw [field_capture]
  split
  · next heq => rw [heq, field_header]
  · exact hagree k (by omega)

/-- Nothing is captured yet. -/
theorem agree_zero (h g : UdpHeader) : h.Agree g 0 := by
  intro k hk
  omega

end UdpHeader

/-- The header remover between a stream of slots and the UDP stack. -/
structure RemoverRun (R : AxisRegister) where
  remover : AxisHeaderRemover R
  /-- The slot that is fed, and its next beat. -/
  slot : TxSlot
  pos : ℕ
  /-- The slots fed before. -/
  past : List TxSlot
  /-- The headers accepted by `hdr_valid` and `hdr_ready`. -/
  accepted : List UdpHeader
  /-- The beats taken on `m_axis`. -/
  out : List Beat

/-- One cycle around the header remover. -/
structure RemoverCycle where
  tvalid : Bool
  /-- What is on the data lines while `tvalid` is low. -/
  idleData : BitVec 64
  /-- The slot that is fed after the current one. -/
  next : TxSlot
  hdrReady : Bool
  mAxisTready : Bool

namespace RemoverRun

variable {R : AxisRegister}

/-- After reset, with the first slot to be fed. -/
def start (R : AxisRegister) (slot : TxSlot) : RemoverRun R := ⟨.reset R, slot, 0, [], [], []⟩

/-- The inputs of the header remover. -/
def lines (t : RemoverRun R) (i : RemoverCycle) : RemoverIn where
  tvalid := i.tvalid
  tdata := if i.tvalid then t.slot t.pos else i.idleData
  tkeep := 0xFF
  tlast := decide (t.pos + 1 = TxSlot.beats)
  tuser := false
  hdrReady := i.hdrReady
  mAxisTready := i.mAxisTready

/-- A beat of the slot is taken. -/
def consumed (t : RemoverRun R) (i : RemoverCycle) : Bool := t.remover.consumed (t.lines i)

/-- The last beat of the slot is taken. -/
def ends (t : RemoverRun R) (i : RemoverCycle) : Bool := t.consumed i && decide (t.pos + 1 = TxSlot.beats)

/-- The header on the outputs, while `hdr_valid`. -/
def presented (t : RemoverRun R) : List UdpHeader := if t.remover.hdrValid then [t.remover.hdr] else []

/-- One clock edge. -/
def step (t : RemoverRun R) (i : RemoverCycle) : RemoverRun R where
  remover := t.remover.step (t.lines i)
  slot := if t.ends i then i.next else t.slot
  pos := if t.ends i then 0 else if t.consumed i then t.pos + 1 else t.pos
  past := t.past ++ if t.ends i then [t.slot] else []
  accepted := t.accepted ++ if i.hdrReady then t.presented else []
  out := t.out ++ R.taken t.remover.axisRegister i.mAxisTready

/-- The header remover with arbitrary slots, handshakes and idle lines. -/
def machine (R : AxisRegister) : Clocked.Machine (RemoverRun R) RemoverCycle where
  step := step
  legal := fun _ _ => True

/-- The slots whose header words were all taken. -/
def split (t : RemoverRun R) : List TxSlot :=
  t.past ++ if t.remover.state = .payload then [t.slot] else []

/-- The header handshake: a presented header stays until it is accepted, the headers are those of
the slots, one for each and in their order, and so are the payloads. -/
structure InOrder (t : RemoverRun R) (i : RemoverCycle) : Prop where
  stable : t.remover.hdrValid = true → i.hdrReady = false →
    (t.step i).remover.hdrValid = true ∧ (t.step i).remover.hdr = t.remover.hdr
  headers : t.accepted ++ t.presented = t.split.map TxSlot.header
  payloads : t.out <+: t.split.flatMap fun s => s.payload TxSlot.payloadBeats

/-- The branch that goes wrong is not taken: a header that is still pending when its slot is over
neither meets a different word on the lines of its registers nor the last header word of the
next slot. -/
def AcceptedInTime (t : RemoverRun R) (i : RemoverCycle) : Prop :=
  t.remover.state = .header → t.remover.hdrValid = true → i.hdrReady = false →
    t.remover.hdr.capture t.remover.countHeader.toNat (t.lines i).tdata = t.remover.hdr ∧
      t.remover.completes (t.lines i) = false

/-- How far the current slot has been taken. -/
inductive Stage (t : RemoverRun R) : Prop
  | header (hstate : t.remover.state = .header) (hpos : t.pos = t.remover.countHeader.toNat)
      (hlt : t.pos < UdpHeader.numWords) (hhdr : t.remover.hdr.Agree t.slot.header t.pos)
  | payload (hstate : t.remover.state = .payload)
      (hpos : t.pos = UdpHeader.numWords + t.remover.transfCount.toNat)
      (hlt : t.pos < TxSlot.beats) (hhdr : t.remover.hdr = t.slot.header)

/-- The beats of the current slot that were forwarded. -/
def forwardedNow (t : RemoverRun R) : List Beat :=
  match t.remover.state with
  | .header => []
  | .payload => t.slot.payload t.remover.transfCount.toNat

/-- The invariant of the runs in which every header is accepted in time. -/
structure Settled (t : RemoverRun R) : Prop where
  stage : t.Stage
  headers : t.accepted ++ t.presented = t.split.map TxSlot.header
  conserved : t.out ++ R.contents t.remover.axisRegister =
    (t.past.flatMap fun s => s.payload TxSlot.payloadBeats) ++ t.forwardedNow

variable {t : RemoverRun R} {i : RemoverCycle}

/-- The run starts with nothing taken. -/
theorem settled_start (R : AxisRegister) (slot : TxSlot) : (start R slot).Settled where
  stage := .header rfl rfl (Nat.succ_pos 4) (UdpHeader.agree_zero _ _)
  headers := rfl
  conserved := by simp [start, AxisHeaderRemover.reset, R.contents_reset, forwardedNow]

/-- A beat that is taken is the next one of the slot. -/
theorem tdata_of_consumed (hconsumed : t.consumed i = true) : (t.lines i).tdata = t.slot t.pos := by
  simp only [consumed, AxisHeaderRemover.consumed, Bool.and_eq_true] at hconsumed
  have hvalid : i.tvalid = true := hconsumed.2
  simp [lines, hvalid]

/-- The last header word is taken with the fifth beat. -/
theorem completes_eq (hstate : t.remover.state = .header) (hpos : t.pos = t.remover.countHeader.toNat) :
    t.remover.completes (t.lines i) = (t.consumed i && decide (t.pos + 1 = UdpHeader.numWords)) := by
  have hcount : (t.remover.countHeader = 4) ↔ t.pos + 1 = UdpHeader.numWords := by
    rw [← BitVec.toNat_inj, ← hpos]
    change t.pos = 4 ↔ t.pos + 1 = 5
    omega
  simp only [AxisHeaderRemover.completes, hstate, decide_true, Bool.true_and, consumed, hcount]
  rw [Bool.and_comm]

/-- The header words are taken one by one. -/
theorem stage_step_header (hstate : t.remover.state = .header)
    (hpos : t.pos = t.remover.countHeader.toNat) (hlt : t.pos < UdpHeader.numWords)
    (hhdr : t.remover.hdr.Agree t.slot.header t.pos) : (t.step i).Stage := by
  have hends : t.ends i = false := by
    have hne : t.pos + 1 ≠ TxSlot.beats := by
      simp only [UdpHeader.numWords, TxSlot.beats] at hlt ⊢
      omega
    simp [ends, hne]
  have hslot : (t.step i).slot = t.slot := by simp [step, hends]
  have hcapture : (t.step i).remover.hdr = t.remover.hdr.capture t.pos (t.lines i).tdata := by
    simp [step, AxisHeaderRemover.step, hstate, hpos]
  cases hconsumed : t.consumed i with
  | false =>
    have hcompletes := completes_eq (i := i) hstate hpos
    rw [hconsumed, Bool.false_and] at hcompletes
    have hposNext : (t.step i).pos = t.pos := by simp [step, hends, hconsumed]
    have hcount : (t.step i).remover.countHeader = t.remover.countHeader := by
      simp only [consumed] at hconsumed
      simp [step, AxisHeaderRemover.step, hstate, hconsumed]
    refine .header (by simp [step, AxisHeaderRemover.step, hstate, hcompletes]) ?_ ?_ ?_
    · rw [hposNext, hcount, hpos]
    · rw [hposNext]
      exact hlt
    · rw [hposNext, hslot, hcapture]
      exact hhdr.capture _
  | true =>
    have hcompletes := completes_eq (i := i) hstate hpos
    rw [hconsumed, Bool.true_and] at hcompletes
    have hposNext : (t.step i).pos = t.pos + 1 := by simp [step, hends, hconsumed]
    have hword : (t.step i).remover.hdr.Agree t.slot.header (t.pos + 1) := by
      rw [hcapture, tdata_of_consumed hconsumed]
      exact hhdr.capture_word
    by_cases hlast : t.pos + 1 = UdpHeader.numWords
    · rw [decide_eq_true hlast] at hcompletes
      refine .payload (by simp [step, AxisHeaderRemover.step, hstate, hcompletes]) ?_ ?_ ?_
      · rw [hposNext, hlast]
        simp [step, AxisHeaderRemover.step, hstate]
      · rw [hposNext, hlast]
        exact (by decide : UdpHeader.numWords < TxSlot.beats)
      · rw [hslot]
        rw [hlast] at hword
        exact hword.eq
    · rw [decide_eq_false hlast] at hcompletes
      have hcount : (t.step i).remover.countHeader = t.remover.countHeader + 1 := by
        simp only [consumed] at hconsumed
        simp [step, AxisHeaderRemover.step, hstate, hconsumed]
      refine .header (by simp [step, AxisHeaderRemover.step, hstate, hcompletes]) ?_ ?_ ?_
      · rw [hposNext, hcount, BitVec.toNat_add, ← hpos]
        simp only [UdpHeader.numWords] at hlt
        exact (Nat.mod_eq_of_lt (by simp; omega)).symm
      · rw [hposNext]
        omega
      · rw [hposNext, hslot]
        exact hword

/-- The payload is taken beat by beat, up to the end of the slot. -/
theorem stage_step_payload (hstate : t.remover.state = .payload)
    (hpos : t.pos = UdpHeader.numWords + t.remover.transfCount.toNat) (hlt : t.pos < TxSlot.beats)
    (hhdr : t.remover.hdr = t.slot.header) : (t.step i).Stage := by
  have hstateNext : (t.step i).remover.state = if t.ends i then .header else .payload := by
    simp [step, AxisHeaderRemover.step, hstate, ends, consumed, lines]
  have hkept : (t.step i).remover.hdr = t.remover.hdr := by simp [step, AxisHeaderRemover.step, hstate]
  cases hends : t.ends i with
  | true =>
    rw [hends] at hstateNext
    have hposNext : (t.step i).pos = 0 := by simp [step, hends]
    have hcount : (t.step i).remover.countHeader = 0 := by simp [step, AxisHeaderRemover.step, hstate]
    refine .header hstateNext ?_ ?_ ?_
    · rw [hposNext, hcount]
      rfl
    · rw [hposNext]
      exact (Nat.succ_pos 4)
    · rw [hposNext]
      exact UdpHeader.agree_zero _ _
  | false =>
    rw [hends] at hstateNext
    have hslot : (t.step i).slot = t.slot := by simp [step, hends]
    have hhdrNext : (t.step i).remover.hdr = (t.step i).slot.header := by rw [hkept, hhdr, hslot]
    cases hconsumed : t.consumed i with
    | false =>
      have hposNext : (t.step i).pos = t.pos := by simp [step, hends, hconsumed]
      have hcount : (t.step i).remover.transfCount = t.remover.transfCount := by
        simp only [consumed] at hconsumed
        simp [step, AxisHeaderRemover.step, hstate, hconsumed]
      exact .payload hstateNext (by rw [hposNext, hcount, hpos]) (by rw [hposNext]; exact hlt) hhdrNext
    | true =>
      have hposNext : (t.step i).pos = t.pos + 1 := by simp [step, hends, hconsumed]
      have hnotLast : t.pos + 1 ≠ TxSlot.beats := by
        simpa [ends, hconsumed] using hends
      have hcount : (t.step i).remover.transfCount = t.remover.transfCount + 1 := by
        simp only [consumed] at hconsumed
        simp [step, AxisHeaderRemover.step, hstate, hconsumed]
      simp only [TxSlot.beats, UdpHeader.numWords] at hlt hpos hnotLast
      have hcountNat : (t.remover.transfCount + 1).toNat = t.remover.transfCount.toNat + 1 := by
        rw [BitVec.toNat_add]
        exact Nat.mod_eq_of_lt (by simp; omega)
      refine .payload hstateNext ?_ ?_ hhdrNext
      · rw [hposNext, hcount, hcountNat, hpos]
        rfl
      · rw [hposNext]
        change t.pos + 1 < 256
        omega

/-- One cycle of a slot. -/
theorem Stage.step (h : t.Stage) : (t.step i).Stage := by
  cases h with
  | header hstate hpos hlt hhdr => exact stage_step_header hstate hpos hlt hhdr
  | payload hstate hpos hlt hhdr => exact stage_step_payload hstate hpos hlt hhdr

/-- The slots whose header is complete: one more when the last header word is taken. -/
theorem split_step (h : t.Stage) :
    (t.step i).split = t.split ++ if t.remover.completes (t.lines i) then [t.slot] else [] := by
  cases h with
  | header hstate hpos hlt hhdr =>
    have hends : t.ends i = false := by
      have hne : t.pos + 1 ≠ TxSlot.beats := by
        simp only [UdpHeader.numWords, TxSlot.beats] at hlt ⊢
        omega
      simp [ends, hne]
    simp only [split, RemoverRun.step, hends, AxisHeaderRemover.step, hstate]
    cases t.remover.completes (t.lines i) <;> simp
  | payload hstate hpos hlt hhdr =>
    have hcompletes : t.remover.completes (t.lines i) = false := by
      simp [AxisHeaderRemover.completes, hstate]
    have hstateNext : (t.step i).remover.state = if t.ends i then .header else .payload := by
      simp [RemoverRun.step, AxisHeaderRemover.step, hstate, ends, consumed, lines]
    simp only [split, hstateNext, hcompletes, hstate]
    cases hends : t.ends i <;> simp [RemoverRun.step, hends]

/-- The header that is completed is that of the slot. -/
theorem hdr_of_completes (h : t.Stage) (hcompletes : t.remover.completes (t.lines i) = true) :
    (t.step i).remover.hdr = t.slot.header := by
  have hstate : t.remover.state = .header := by
    simp only [AxisHeaderRemover.completes, Bool.and_eq_true, decide_eq_true_eq] at hcompletes
    exact hcompletes.1.1
  have hnext : (t.step i).remover.state = .payload := by
    simp [RemoverRun.step, AxisHeaderRemover.step, hstate, hcompletes]
  have hslot : (t.step i).slot = t.slot := by
    cases h with
    | header _ _ hlt _ =>
      have hne : t.pos + 1 ≠ TxSlot.beats := by
        simp only [UdpHeader.numWords, TxSlot.beats] at hlt ⊢
        omega
      simp [RemoverRun.step, ends, hne]
    | payload hpayload _ _ _ => simp [hstate] at hpayload
  cases h.step (i := i) with
  | header hheader _ _ _ => simp [hnext] at hheader
  | payload _ _ _ hhdr => rw [hhdr, hslot]

/-- A presented header that is not accepted stays. -/
theorem stable_of_acceptedInTime (haccepted : t.AcceptedInTime i) (hvalid : t.remover.hdrValid = true)
    (hready : i.hdrReady = false) :
    (t.step i).remover.hdrValid = true ∧ (t.step i).remover.hdr = t.remover.hdr := by
  refine ⟨?_, ?_⟩
  · change (if _ then true else if i.hdrReady then false else t.remover.hdrValid) = true
    rw [hready, hvalid]
    simp
  · change (if t.remover.state = .header then _ else t.remover.hdr) = t.remover.hdr
    split
    · next hstate => exact (haccepted hstate hvalid hready).1
    · rfl

/-- The accepted headers and the presented one are those of the slots. -/
theorem headers_step (hstage : t.Stage) (hheaders : t.accepted ++ t.presented = t.split.map TxSlot.header)
    (haccepted : t.AcceptedInTime i) :
    (t.step i).accepted ++ (t.step i).presented = (t.step i).split.map TxSlot.header := by
  rw [split_step hstage, List.map_append, ← hheaders]
  have hvalidNext : (t.step i).remover.hdrValid =
      if t.remover.completes (t.lines i) then true else if i.hdrReady then false else t.remover.hdrValid := rfl
  have haccept : (t.step i).accepted = t.accepted ++ if i.hdrReady then t.presented else [] := rfl
  have hkept : t.remover.completes (t.lines i) = false → t.remover.hdrValid = true → i.hdrReady = false →
      (t.step i).remover.hdr = t.remover.hdr :=
    fun _ hvalid hready => (stable_of_acceptedInTime haccepted hvalid hready).2
  rw [haccept, List.append_assoc, List.append_assoc]
  congr 1
  cases hcompletes : t.remover.completes (t.lines i) with
  | false =>
    rw [hcompletes] at hvalidNext
    cases hready : i.hdrReady with
    | true => simp [presented, hvalidNext, hready]
    | false =>
      cases hvalid : t.remover.hdrValid with
      | false => simp [presented, hvalidNext, hready, hvalid]
      | true => simp [presented, hvalidNext, hready, hvalid, hkept hcompletes hvalid hready]
  | true =>
    rw [hcompletes] at hvalidNext
    have hhdr := hdr_of_completes hstage hcompletes
    have hpresented : (t.step i).presented = [t.slot.header] := by simp [presented, hvalidNext, hhdr]
    rw [hpresented]
    cases hready : i.hdrReady with
    | true => simp
    | false =>
      -- a second header is never completed over a pending one
      have hvalid : t.remover.hdrValid = false := by
        cases hvalid : t.remover.hdrValid with
        | false => rfl
        | true =>
          have hstate : t.remover.state = .header := by
            simp only [AxisHeaderRemover.completes, Bool.and_eq_true, decide_eq_true_eq] at hcompletes
            exact hcompletes.1.1
          have hnot := (haccepted hstate hvalid hready).2
          rw [hcompletes] at hnot
          simp at hnot
      simp [presented, hvalid]

/-- What was forwarded of the slots was taken, or waits in the output register. -/
def Conserved (t : RemoverRun R) : Prop := t.out ++ R.contents t.remover.axisRegister =
  (t.past.flatMap fun s => s.payload TxSlot.payloadBeats) ++ t.forwardedNow

/-- What enters the output register is the payload of the slot, whatever happens to its header. -/
theorem conserved_step (hstage : t.Stage) (hforwarded : t.Conserved) : (t.step i).Conserved := by
  rw [Conserved]
  have hconserved : (t.step i).out ++ R.contents (t.step i).remover.axisRegister =
      t.out ++ R.contents t.remover.axisRegister ++
        R.accepted t.remover.axisRegister (t.remover.axisForwarded (t.lines i)) := by
    change t.out ++ R.taken _ i.mAxisTready ++ R.contents (R.step _ _ i.mAxisTready) = _
    rw [List.append_assoc, R.conservation, List.append_assoc]
  rw [hconserved, hforwarded]
  cases hstage with
  | header hstate hpos hlt hhdr =>
    have hends : t.ends i = false := by
      have hne : t.pos + 1 ≠ TxSlot.beats := by
        simp only [UdpHeader.numWords, TxSlot.beats] at hlt ⊢
        omega
      simp [ends, hne]
    have hnow : (t.step i).forwardedNow = [] := by
      have hcount : (t.step i).remover.transfCount = 0 := by
        simp [RemoverRun.step, AxisHeaderRemover.step, hstate]
      rw [forwardedNow]
      split
      · rfl
      · rw [hcount]
        rfl
    have hbefore : t.forwardedNow = [] := by simp [forwardedNow, hstate]
    have hpast : (t.step i).past = t.past := by simp [RemoverRun.step, hends]
    rw [hnow, hbefore, hpast]
    simp [AxisHeaderRemover.axisForwarded, hstate, AxisRegister.accepted]
  | payload hstate hpos hlt hhdr =>
    have hbefore : t.forwardedNow = t.slot.payload t.remover.transfCount.toNat := by
      simp [forwardedNow, hstate]
    have hentering : R.accepted t.remover.axisRegister (t.remover.axisForwarded (t.lines i)) =
        if t.consumed i then (AxisHeaderRemover.forwarded t.slot.header.udpLength
          t.remover.transfCount.toNat (t.slot.payloadBeat t.remover.transfCount.toNat)).toList else [] := by
      have hvalid : (t.lines i).tvalid = i.tvalid := rfl
      cases hready : R.tready t.remover.axisRegister with
      | false => simp [AxisRegister.accepted, consumed, AxisHeaderRemover.consumed, AxisHeaderRemover.tready, hready]
      | true =>
        cases htvalid : i.tvalid with
        | false =>
          simp [AxisRegister.accepted, consumed, AxisHeaderRemover.consumed, AxisHeaderRemover.axisForwarded,
            hstate, hvalid, htvalid]
        | true =>
          simp [AxisRegister.accepted, consumed, AxisHeaderRemover.consumed, AxisHeaderRemover.tready,
            AxisHeaderRemover.axisForwarded, hready, hstate, hhdr, lines, htvalid, TxSlot.payloadBeat, hpos]
    have hnext : (t.slot.payload t.remover.transfCount.toNat) ++
        R.accepted t.remover.axisRegister (t.remover.axisForwarded (t.lines i)) =
        t.slot.payload (t.remover.transfCount.toNat + (t.consumed i).toNat) := by
      rw [hentering]
      cases t.consumed i with
      | false => simp
      | true => exact (TxSlot.payload_succ _ _).symm
    rw [hbefore, List.append_assoc, hnext]
    cases hends : t.ends i with
    | true =>
      have hboth : t.consumed i = true ∧ t.pos + 1 = TxSlot.beats := by
        simpa only [ends, Bool.and_eq_true, decide_eq_true_eq] using hends
      have hlast : t.remover.transfCount.toNat + 1 = TxSlot.payloadBeats := by
        have hend := hboth.2
        simp only [UdpHeader.numWords, TxSlot.beats, TxSlot.payloadBeats] at hpos hend ⊢
        omega
      have hnow : (t.step i).forwardedNow = [] := by
        have hstateNext : (t.step i).remover.state = .header := by
          have hsame : (t.step i).remover.state = if t.ends i then .header else .payload := by
            simp [RemoverRun.step, AxisHeaderRemover.step, hstate, ends, consumed, lines]
          rw [hsame, hends]
          rfl
        simp [forwardedNow, hstateNext]
      have hpast : (t.step i).past = t.past ++ [t.slot] := by simp [RemoverRun.step, hends]
      rw [hboth.1, hnow, hpast, List.flatMap_append]
      simp [hlast]
    | false =>
      have hpast : (t.step i).past = t.past := by simp [RemoverRun.step, hends]
      have hslot : (t.step i).slot = t.slot := by simp [RemoverRun.step, hends]
      have hstateNext : (t.step i).remover.state = .payload := by
        have hsame : (t.step i).remover.state = if t.ends i then .header else .payload := by
          simp [RemoverRun.step, AxisHeaderRemover.step, hstate, ends, consumed, lines]
        rw [hsame, hends]
        rfl
      have hcount : (t.step i).remover.transfCount.toNat =
          t.remover.transfCount.toNat + (t.consumed i).toNat := by
        simp only [UdpHeader.numWords, TxSlot.beats] at hpos hlt
        change (if t.remover.state = .payload then
          if t.consumed i then t.remover.transfCount + 1 else t.remover.transfCount else 0).toNat = _
        rw [if_pos hstate]
        cases t.consumed i with
        | false => rfl
        | true =>
          change (t.remover.transfCount + 1).toNat = t.remover.transfCount.toNat + 1
          rw [BitVec.toNat_add]
          exact Nat.mod_eq_of_lt (by simp; omega)
      have hnow : (t.step i).forwardedNow =
          t.slot.payload (t.remover.transfCount.toNat + (t.consumed i).toNat) := by
        simp only [forwardedNow, hstateNext, hslot, hcount]
      rw [hpast, hnow]

/-- One cycle keeps the invariant. -/
theorem Settled.step (h : t.Settled) (haccepted : t.AcceptedInTime i) : (t.step i).Settled where
  stage := h.stage.step
  headers := headers_step h.stage h.headers haccepted
  conserved := conserved_step h.stage h.conserved

/-- The first beats of a payload begin it. -/
theorem payload_isPrefix (s : TxSlot) {n : ℕ} (hn : n ≤ TxSlot.payloadBeats) :
    s.payload n <+: s.payload TxSlot.payloadBeats := by
  obtain ⟨m, hm⟩ := Nat.exists_eq_add_of_le hn
  rw [hm, TxSlot.payload, TxSlot.payload, List.range_add, List.filterMap_append]
  exact List.prefix_append _ _

/-- Under the invariant a cycle in which the header is accepted in time is in order. -/
theorem Settled.inOrder (h : t.Settled) (haccepted : t.AcceptedInTime i) : t.InOrder i where
  stable := stable_of_acceptedInTime haccepted
  headers := h.headers
  payloads := by
    have hbegun : t.out <+: (t.past.flatMap fun s => s.payload TxSlot.payloadBeats) ++ t.forwardedNow :=
      ⟨_, h.conserved⟩
    refine hbegun.trans ?_
    rw [split, List.flatMap_append, List.prefix_append_right_inj]
    cases h.stage with
    | header hstate _ _ _ => simp [forwardedNow, hstate]
    | payload hstate hpos hlt _ =>
      simp only [UdpHeader.numWords, TxSlot.beats] at hpos hlt
      simpa [forwardedNow, hstate] using
        payload_isPrefix t.slot (show t.remover.transfCount.toNat ≤ 251 by omega)

/-- In every run in which every header is accepted in time, the headers and the payloads of the
slots reach the UDP stack in step. -/
theorem inOrder_of_acceptedInTime (R : AxisRegister) (slot : TxSlot) :
    ((machine R).restrict AcceptedInTime).Always (start R slot) InOrder :=
  Clocked.Machine.always_of_invariant (settled_start R slot)
    (fun _ _ h hi => h.step hi.2) (fun _ _ h hi => h.inOrder hi.2)

section Runs

/-- A slot with a payload of eight bytes. -/
def shortSlot : TxSlot := fun k => if k = 0 then 8 else 0

instance (t : RemoverRun R) (i : RemoverCycle) : Decidable (t.AcceptedInTime i) :=
  inferInstanceAs (Decidable (_ → _ → _ → _ ∧ _))

instance (t : RemoverRun R) (i : RemoverCycle) : Decidable (((machine R).restrict AcceptedInTime).legal t i) :=
  inferInstanceAs (Decidable (True ∧ _))

/-- Slots with a payload of two words are fed without a pause. -/
def feeding (hdrReady : Bool) : RemoverCycle := ⟨true, 0, fun k => if k = 0 then 16 else 7, hdrReady, true⟩

/-- The first header is accepted with the last words of its slot, and the second one waits. -/
def acceptedLate : List RemoverCycle :=
  List.replicate 254 (feeding false) ++ [feeding true] ++ List.replicate 16 (feeding false)

/-- The headers and the payloads of both slots are in order. -/
theorem inOrder_acceptedLate :
    let t := (machine .twoDeep).run (start .twoDeep shortSlot) acceptedLate
    t.accepted.length = 1 ∧ t.presented.length = 1 ∧ t.out.length = 3 ∧ t.InOrder (feeding false) :=
  ⟨by decide +kernel, by decide +kernel, by decide +kernel,
    inOrder_of_acceptedInTime .twoDeep _ _ ⟨acceptedLate, by decide +kernel, rfl⟩ _ (by decide +kernel)⟩

/-- The UDP stack accepts neither the header nor the payload. -/
def stalled : RemoverCycle := ⟨true, 0, fun _ => 0, false, false⟩

/-- The slot drains behind a payload that fits the output register, and its header is overwritten
by the length of the next slot. -/
theorem not_inOrder : ¬ ∀ (R : AxisRegister) (slot : TxSlot), (machine R).Always (start R slot) InOrder := by
  intro h
  have hreach : (machine AxisRegister.twoDeep).Reachable (start AxisRegister.twoDeep shortSlot)
      ((machine AxisRegister.twoDeep).run (start AxisRegister.twoDeep shortSlot)
        (List.replicate 256 stalled)) := by
    refine ⟨_, ?_, rfl⟩
    generalize start AxisRegister.twoDeep shortSlot = s
    generalize 256 = n
    induction n generalizing s with
    | zero => trivial
    | succ n ih => exact ⟨trivial, ih _⟩
  have hstable := (h _ _ _ hreach stalled trivial).stable (by decide +kernel) rfl
  exact absurd hstable.2 (by decide +kernel)

end Runs

end RemoverRun

end UdpIpCore
