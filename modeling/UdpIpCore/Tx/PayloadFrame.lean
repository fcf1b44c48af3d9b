import Mathlib.Algebra.Group.Nat.Defs
import UdpIpCore.Framing
import UdpIpCore.Tx.HeaderOrder

/-!
# The payload of a slot

What the header remover makes of a slot: one frame whose kept bytes are the payload. The
comparisons that end the frame subtract a word from the length, so a payload of less than
one word never ends, and keeps the whole word.
-/

namespace UdpIpCore

/-- The numbers that are kept by a filter that keeps exactly the first ones. -/
theorem filterMap_range {β : Type} {f : ℕ → Option β} {g : ℕ → β} {m n : ℕ} (hmn : m ≤ n)
    (hkeep : ∀ k, k < m → f k = some (g k)) (hdrop : ∀ k, m ≤ k → k < n → f k = none) :
    (List.range n).filterMap f = (List.range m).map g := by
  obtain ⟨more, rfl⟩ := Nat.exists_eq_add_of_le hmn
  have hfirst : (List.range m).filterMap f = (List.range m).map g := by
    rw [← List.filterMap_eq_map]
    exact List.filterMap_congr fun k hk => hkeep k (List.mem_range.mp hk)
  have hrest : ((List.range more).map (m + ·)).filterMap f = [] := by
    rw [List.filterMap_eq_nil_iff]
    intro k hk
    obtain ⟨d, hd, rfl⟩ := List.mem_map.mp hk
    exact hdrop _ (Nat.le_add_right m d) (Nat.add_lt_add_left (List.mem_range.mp hd) m)
  rw [List.range_add, List.filterMap_append, hfirst, hrest, List.append_nil]

/-- Numbers counted in groups of eight, the last group possibly not whole. -/
theorem flatMap_range_words {β : Type} (g : ℕ → β) (count n : ℕ) :
    (List.range n).flatMap (fun k => (List.range (min 8 (count - 8 * k))).map fun j => g (8 * k + j)) =
      (List.range (min count (8 * n))).map g := by
  induction n with
  | zero => simp
  | succ n ih =>
    rw [List.range_succ, List.flatMap_append, ih, List.flatMap_singleton]
    by_cases hle : count ≤ 8 * n
    · have hnone : min 8 (count - 8 * n) = 0 := by omega
      have hsame : min count (8 * (n + 1)) = min count (8 * n) := by omega
      rw [hnone, hsame]
      simp
    · have hall : min count (8 * n) = 8 * n := by omega
      have hnext : min count (8 * (n + 1)) = 8 * n + min 8 (count - 8 * n) := by omega
      rw [hall, hnext, List.range_add, List.map_append, List.map_map]
      rfl

/-- Byte `j` of a word of the stream. -/
def byteAt (word : BitVec 64) (j : ℕ) : BitVec 8 := word.extractLsb' (8 * j) 8

/-- The bytes of a beat that its `tkeep` keeps. -/
def Beat.kept (b : Beat) : List (BitVec 8) :=
  (List.range 8).filterMap fun j => if b.tkeep.getLsbD j then some (byteAt b.tdata j) else none

/-- The bytes of a beat that keeps its first ones. -/
theorem Beat.kept_eq {b : Beat} {m : ℕ} (hm : m ≤ 8) (hkeep : ∀ j < 8, b.tkeep.getLsbD j = decide (j < m)) :
    b.kept = (List.range m).map (byteAt b.tdata) := by
  refine filterMap_range hm (fun j hj => ?_) fun j hmj hj => ?_
  · rw [hkeep j (by omega), decide_eq_true hj]
    rfl
  · rw [hkeep j hj, decide_eq_false (by omega)]
    rfl

namespace AxisHeaderRemover

variable {udpLength : BitVec 16} {k : ℕ}

/-- The comparison of `transf_last`, with the subtraction as it wraps. -/
theorem toNat_sub_word : (udpLength.setWidth 32 - 8).toNat = (2 ^ 32 - 8 + udpLength.toNat) % 2 ^ 32 := by
  have hlt := udpLength.isLt
  have hword : (8 : BitVec 32).toNat = 8 := rfl
  rw [BitVec.toNat_sub, BitVec.toNat_setWidth, hword, Nat.mod_eq_of_lt (by omega : udpLength.toNat < 2 ^ 32)]

/-- `transf_last` marks the beat that reaches the length, if the length is at least a word. -/
theorem transfLast_eq (hword : 8 ≤ udpLength.toNat) (hk : k < 256) :
    transfLast udpLength k = decide (udpLength.toNat ≤ 8 * k + 8) := by
  have hlt := udpLength.isLt
  rw [transfLast, ← decide_not, decide_eq_decide, BitVec.lt_def, toNat_sub_word, BitVec.toNat_ofNat]
  omega

/-- Below a word the subtraction wraps and no beat is marked. -/
theorem transfLast_of_short (hpos : 0 < udpLength.toNat) (hword : udpLength.toNat < 8) :
    transfLast udpLength k = false := by
  rw [transfLast, Bool.not_eq_false', decide_eq_true_eq, BitVec.lt_def, toNat_sub_word, BitVec.toNat_ofNat]
  omega

/-- `transf_done` is raised once the length is reached. -/
theorem transfDone_eq : transfDone udpLength k = decide (udpLength.toNat ≤ 8 * k) := by
  rw [transfDone, ← decide_not, decide_eq_decide]
  omega

/-- The low bits of `(1 << m) - 1`. -/
theorem getLsbD_mask : ∀ m < 8, ∀ j < 8, (((1 : BitVec 32) <<< BitVec.ofNat 32 m - 1).setWidth 8).getLsbD j = decide (j < m) := by
  decide

/-- `axis_forwarded_tkeep` keeps the bytes up to the length, if the length is at least a word. -/
theorem getLsbD_forwardedTkeep (hword : 8 ≤ udpLength.toNat) (hmore : 8 * k < udpLength.toNat) {j : ℕ} (hj : j < 8) :
    (forwardedTkeep udpLength k 0xFF).getLsbD j = decide (j < min 8 (udpLength.toNat - 8 * k)) := by
  have hlt := udpLength.isLt
  have hwords : (BitVec.ofNat 32 (udpLength.toNat / 8) - 1 : BitVec 32).toNat = udpLength.toNat / 8 - 1 := by
    rw [BitVec.toNat_sub, BitVec.toNat_ofNat]
    show (2 ^ 32 - 1 + udpLength.toNat / 8 % 2 ^ 32) % 2 ^ 32 = _
    omega
  have hfull : BitVec.ofNat 32 k ≤ BitVec.ofNat 32 (udpLength.toNat / 8) - 1 ↔ k ≤ udpLength.toNat / 8 - 1 := by
    rw [BitVec.le_def, hwords, BitVec.toNat_ofNat]
    omega
  rw [forwardedTkeep]
  by_cases hwhole : k ≤ udpLength.toNat / 8 - 1
  · rw [if_pos (hfull.mpr hwhole)]
    have hall : ∀ j < 8, (0xFF : BitVec 8).getLsbD j = true := by decide
    rw [hall j hj]
    exact (decide_eq_true (by omega)).symm
  · rw [if_neg (mt hfull.mp hwhole)]
    have hrest : udpLength.setWidth 32 - BitVec.ofNat 32 (k * 8) = BitVec.ofNat 32 (udpLength.toNat - 8 * k) := by
      apply BitVec.eq_of_toNat_eq
      rw [BitVec.toNat_sub, BitVec.toNat_setWidth, BitVec.toNat_ofNat, BitVec.toNat_ofNat]
      omega
    rw [hrest, getLsbD_mask _ (by omega) j hj, decide_eq_decide]
    omega

end AxisHeaderRemover

namespace TxSlot

variable {s : TxSlot}

/-- The length that is stored in a slot. -/
def len (s : TxSlot) : ℕ := s.header.udpLength.toNat

/-- The payload bytes that are stored in a slot. -/
def payloadBytes (s : TxSlot) : List (BitVec 8) :=
  (List.range s.len).map fun n => byteAt (s (UdpHeader.numWords + n / 8)) (n % 8)

/-- The frame of a slot: the payload and nothing else, ended by the beat with its last byte. -/
structure Carries (s : TxSlot) (frame : List Beat) : Prop where
  framed : Framing.Frame Beat.tlast frame
  bytes : frame.flatMap Beat.kept = s.payloadBytes
  last : (frame.dropLast.flatMap Beat.kept).length < s.len

/-- The beats of the frame of a slot. -/
def frameLength (s : TxSlot) : ℕ := (s.len + 7) / 8

/-- A beat of the frame of a slot. -/
def frameBeat (s : TxSlot) (k : ℕ) : Beat :=
  ⟨s (UdpHeader.numWords + k), AxisHeaderRemover.forwardedTkeep s.header.udpLength k 0xFF, decide (k + 1 = s.frameLength), false⟩

/-- A payload of at least a word is forwarded up to its last byte. -/
theorem payload_eq (hword : 8 ≤ s.len) (hmax : s.len ≤ 2008) :
    s.payload payloadBeats = (List.range s.frameLength).map s.frameBeat := by
  have hlen : s.len = s.header.udpLength.toNat := rfl
  refine filterMap_range ?_ (fun k hk => ?_) fun k hmk hk => ?_
  · simp only [frameLength, payloadBeats]
    omega
  · rw [frameLength, hlen] at hk
    have hend : (decide (UdpHeader.numWords + k + 1 = beats) || decide (s.header.udpLength.toNat ≤ 8 * k + 8)) =
        decide (k + 1 = s.frameLength) := by
      rw [← Bool.decide_or, decide_eq_decide]
      simp only [UdpHeader.numWords, beats, frameLength]
      omega
    rw [AxisHeaderRemover.forwarded, AxisHeaderRemover.transfDone_eq, AxisHeaderRemover.transfLast_eq hword (by omega),
      decide_eq_false (by omega), if_neg Bool.false_ne_true, payloadBeat]
    rw [frameBeat, ← hend]
  · rw [frameLength, hlen] at hmk
    rw [AxisHeaderRemover.forwarded, AxisHeaderRemover.transfDone_eq, decide_eq_true (by omega), if_pos rfl]

/-- The bytes that a beat of the frame keeps. -/
theorem kept_frameBeat (hword : 8 ≤ s.len) {k : ℕ} (hk : k < s.frameLength) :
    (s.frameBeat k).kept = (List.range (min 8 (s.len - 8 * k))).map fun j =>
      byteAt (s (UdpHeader.numWords + (8 * k + j) / 8)) ((8 * k + j) % 8) := by
  have hmore : 8 * k < s.len := by
    rw [frameLength] at hk
    omega
  have hkeep : ∀ j < 8, (s.frameBeat k).tkeep.getLsbD j = decide (j < min 8 (s.len - 8 * k)) :=
    fun j hj => AxisHeaderRemover.getLsbD_forwardedTkeep hword hmore hj
  rw [Beat.kept_eq (Nat.min_le_left 8 (s.len - 8 * k)) hkeep]
  apply List.map_congr_left
  intro j hj
  have hj' := List.mem_range.mp hj
  have hdiv : (8 * k + j) / 8 = k := by omega
  have hmod : (8 * k + j) % 8 = j := by omega
  rw [hdiv, hmod]
  rfl

/-- The first beats of the frame keep the first bytes of the payload. -/
theorem flatMap_kept (hword : 8 ≤ s.len) {n : ℕ} (hn : n ≤ s.frameLength) :
    ((List.range n).map s.frameBeat).flatMap Beat.kept =
      (List.range (min s.len (8 * n))).map fun m => byteAt (s (UdpHeader.numWords + m / 8)) (m % 8) := by
  rw [← flatMap_range_words, List.flatMap_map, List.flatMap_def, List.flatMap_def]
  congr 1
  apply List.map_congr_left
  intro k hk
  exact kept_frameBeat hword (Nat.lt_of_lt_of_le (List.mem_range.mp hk) hn)

/-- A payload of at least a word is carried. -/
theorem carries_of_word (hword : 8 ≤ s.len) (hmax : s.len ≤ 2008) : s.Carries (s.payload payloadBeats) := by
  rw [payload_eq hword hmax]
  obtain ⟨n, hn⟩ : ∃ n, s.frameLength = n + 1 := ⟨s.frameLength - 1, by rw [frameLength]; omega⟩
  have hbounds : 8 * n < s.len ∧ s.len ≤ 8 * (n + 1) := by
    rw [frameLength] at hn
    omega
  refine ⟨⟨(List.range n).map s.frameBeat, s.frameBeat n, ?_, ?_, ?_⟩, ?_, ?_⟩
  · rw [hn, List.range_succ, List.map_append, List.map_singleton]
  · exact decide_eq_true hn.symm
  · intro b hb
    obtain ⟨k, hk, rfl⟩ := List.mem_map.mp hb
    have hlt := List.mem_range.mp hk
    exact decide_eq_false (by omega)
  · rw [flatMap_kept hword (Nat.le_refl _), Nat.min_eq_left (by omega)]
    rfl
  · rw [hn, List.range_succ, List.map_append, List.map_singleton, List.dropLast_concat, flatMap_kept hword (by omega),
      List.length_map, List.length_range]
    omega

/-- A shorter one is not: its only beat does not end the frame. -/
theorem not_carries_of_short (hpos : 0 < s.len) (hword : s.len < 8) : ¬ s.Carries (s.payload payloadBeats) := by
  intro hcarries
  obtain ⟨before, b, hframe, hlast, -⟩ := hcarries.framed
  have hmem : b ∈ s.payload payloadBeats := by simp [hframe]
  rw [payload, List.mem_filterMap] at hmem
  obtain ⟨k, -, hforwarded⟩ := hmem
  rw [AxisHeaderRemover.forwarded, AxisHeaderRemover.transfDone_eq,
    AxisHeaderRemover.transfLast_of_short hpos hword] at hforwarded
  by_cases hfirst : k = 0
  · subst hfirst
    have hmore : ¬ decide (s.header.udpLength.toNat ≤ 8 * 0) = true := by
      rw [len] at hpos
      rw [decide_eq_true_eq]
      omega
    rw [if_neg hmore] at hforwarded
    rw [← Option.some.inj hforwarded] at hlast
    simp [payloadBeat, UdpHeader.numWords, beats] at hlast
  · rw [if_pos (decide_eq_true (by rw [len] at hword; omega))] at hforwarded
    simp at hforwarded

end TxSlot

namespace RemoverRun

variable {R : AxisRegister} {t : RemoverRun R} {i : RemoverCycle} {inputs : List RemoverCycle}

/-- The run takes exactly the slot that is fed. -/
def Feeds (t t' : RemoverRun R) : Prop := t'.past = t.past ++ [t.slot] ∧ t'.pos = 0

/-- From one state to the other the slot became one frame with its payload, and the module waits for the header of
the next slot. -/
structure Extracts (t t' : RemoverRun R) : Prop where
  frame : ∃ frame, t'.out ++ R.contents t'.remover.axisRegister =
    t.out ++ R.contents t.remover.axisRegister ++ frame ∧ t.slot.Carries frame
  ready : t'.remover.state = .header ∧ t'.remover.countHeader = 0

/-- What is known in every state, whenever headers are accepted. -/
structure Flowing (t : RemoverRun R) : Prop where
  stage : t.Stage
  conserved : t.Conserved

/-- Every run keeps it. -/
theorem Flowing.run (h : t.Flowing) (inputs : List RemoverCycle) : ((machine R).run t inputs).Flowing := by
  induction inputs generalizing t with
  | nil => exact h
  | cons i rest ih => exact ih ⟨h.stage.step, conserved_step h.stage h.conserved⟩

/-- It holds from the start on. -/
theorem flowing_of_reachable {slot : TxSlot} (h : (machine R).Reachable (start R slot) t) : t.Flowing := by
  obtain ⟨inputs, -, rfl⟩ := h
  have hstart : (start R slot).Flowing := ⟨(settled_start R slot).stage, (settled_start R slot).conserved⟩
  exact hstart.run inputs

/-- Between two slots the module waits for a header, and all that was forwarded is of whole slots. -/
theorem Flowing.between (h : t.Flowing) (hpos : t.pos = 0) :
    (t.remover.state = .header ∧ t.remover.countHeader = 0) ∧
      t.out ++ R.contents t.remover.axisRegister = t.past.flatMap fun s => s.payload TxSlot.payloadBeats := by
  cases h.stage with
  | header hstate hcount hlt hhdr =>
    refine ⟨⟨hstate, ?_⟩, ?_⟩
    · apply BitVec.eq_of_toNat_eq
      rw [← hcount, hpos]
      rfl
    · have hnow : t.forwardedNow = [] := by simp [forwardedNow, hstate]
      have hconserved := h.conserved
      rw [Conserved, hnow, List.append_nil] at hconserved
      exact hconserved
  | payload hstate hcount hlt hhdr =>
    rw [hpos, UdpHeader.numWords] at hcount
    omega

/-- What the remover has given is the beginning of the payloads. -/
theorem Flowing.out_isPrefix (h : t.Flowing) :
    t.out <+: (t.past ++ [t.slot]).flatMap fun s => s.payload TxSlot.payloadBeats := by
  have hnow : t.forwardedNow <+: t.slot.payload TxSlot.payloadBeats := by
    cases h.stage with
    | header hstate _ _ _ => simp [forwardedNow, hstate]
    | payload hstate hpos hlt _ =>
      have hcount : t.remover.transfCount.toNat ≤ 251 := by
        simp only [UdpHeader.numWords, TxSlot.beats] at hpos hlt
        omega
      simpa [forwardedNow, hstate] using payload_isPrefix t.slot hcount
  have hbegun : t.out <+: (t.past.flatMap fun s => s.payload TxSlot.payloadBeats) ++ t.forwardedNow :=
    ⟨_, h.conserved⟩
  rw [List.flatMap_append, List.flatMap_singleton]
  exact hbegun.trans ((List.prefix_append_right_inj _).mpr hnow)

/-- What is forwarded while a slot is fed is its payload. -/
theorem Flowing.extracts_iff_carries (h : t.Flowing) (hpos : t.pos = 0) (hfed : t.Feeds ((machine R).run t inputs)) :
    t.Extracts ((machine R).run t inputs) ↔ t.slot.Carries (t.slot.payload TxSlot.payloadBeats) := by
  obtain ⟨-, hbefore⟩ := h.between hpos
  obtain ⟨hready, hafter⟩ := (h.run inputs).between hfed.2
  rw [hfed.1, List.flatMap_append, ← hbefore, List.flatMap_singleton] at hafter
  constructor
  · rintro ⟨⟨frame, hframe, hcarries⟩, -⟩
    have heq : t.slot.payload TxSlot.payloadBeats = frame := List.append_cancel_left (hafter.symm.trans hframe)
    rw [heq]
    exact hcarries
  · intro hcarries
    exact ⟨⟨_, hafter, hcarries⟩, hready⟩

/-- In every run and for every slot, the slot becomes one frame with its payload exactly when the payload has at least
a word. -/
theorem extracts_iff (R : AxisRegister) (first : TxSlot) {t : RemoverRun R} (ht : (machine R).Reachable (start R first) t)
    (hpos : t.pos = 0) {inputs : List RemoverCycle} (hfed : t.Feeds ((machine R).run t inputs)) (hmin : 1 ≤ t.slot.len)
    (hmax : t.slot.len ≤ 2008) : t.Extracts ((machine R).run t inputs) ↔ 8 ≤ t.slot.len := by
  rw [(flowing_of_reachable ht).extracts_iff_carries hpos hfed]
  constructor
  · intro hcarries
    by_contra hshort
    exact TxSlot.not_carries_of_short hmin (by omega) hcarries
  · intro hword
    exact TxSlot.carries_of_word hword hmax

/-- A run takes the slots that are fed, the current one first. -/
theorem exists_past_run (t : RemoverRun R) (inputs : List RemoverCycle) : ∃ more,
    ((machine R).run t inputs).past ++ [((machine R).run t inputs).slot] = t.past ++ t.slot :: more := by
  induction inputs generalizing t with
  | nil => exact ⟨[], rfl⟩
  | cons i rest ih =>
    obtain ⟨more, hmore⟩ := ih (t.step i)
    cases hends : t.ends i with
    | false =>
      have hsame : (t.step i).past = t.past ∧ (t.step i).slot = t.slot := by simp [step, hends]
      rw [hsame.1, hsame.2] at hmore
      exact ⟨more, hmore⟩
    | true =>
      have hnext : (t.step i).past = t.past ++ [t.slot] := by simp [step, hends]
      rw [hnext, List.append_assoc] at hmore
      exact ⟨_, hmore⟩

/-- A run that takes one slot takes the current one. -/
theorem feeds_of_length (hlength : ((machine R).run t inputs).past.length = t.past.length + 1)
    (hpos : ((machine R).run t inputs).pos = 0) : t.Feeds ((machine R).run t inputs) := by
  obtain ⟨more, hmore⟩ := exists_past_run t inputs
  rw [List.append_cons t.past t.slot more] at hmore
  exact ⟨List.append_inj_left hmore (by rw [hlength, List.length_append, List.length_singleton]), hpos⟩

section Witness

/-- A slot with a payload of the given length. -/
def slotOf (len : BitVec 64) : TxSlot := fun k => if k = 0 then len else 0x0807060504030201

/-- The beats come and go without a stall. -/
def flowingCycle : RemoverCycle := ⟨true, 0, fun _ => 0, true, true⟩

/-- The slot is taken in 256 cycles. -/
theorem feeds_slotOf {len : BitVec 64}
    (hlength : ((machine .twoDeep).run (start .twoDeep (slotOf len)) (List.replicate 256 flowingCycle)).past.length = 1 ∧
      ((machine .twoDeep).run (start .twoDeep (slotOf len)) (List.replicate 256 flowingCycle)).pos = 0) :
    (start .twoDeep (slotOf len)).Feeds
      ((machine .twoDeep).run (start .twoDeep (slotOf len)) (List.replicate 256 flowingCycle)) :=
  feeds_of_length hlength.1 hlength.2

/-- Ten bytes are extracted. -/
theorem extracts_ten : (start .twoDeep (slotOf 10)).Extracts
    ((machine .twoDeep).run (start .twoDeep (slotOf 10)) (List.replicate 256 flowingCycle)) :=
  (extracts_iff .twoDeep (slotOf 10) (.refl _ _) rfl (feeds_slotOf (by decide +kernel)) (by decide) (by decide)).mpr (by decide)

/-- Five bytes are not: the frame has no end. -/
theorem not_extracts : ¬ ∀ (R : AxisRegister) (first : TxSlot) (t : RemoverRun R), (machine R).Reachable (start R first) t →
    t.pos = 0 → ∀ inputs, t.Feeds ((machine R).run t inputs) → 1 ≤ t.slot.len → t.slot.len ≤ 2008 →
      t.Extracts ((machine R).run t inputs) := by
  intro h
  have hfed : (start .twoDeep (slotOf 5)).Feeds
      ((machine .twoDeep).run (start .twoDeep (slotOf 5)) (List.replicate 256 flowingCycle)) :=
    feeds_slotOf (by decide +kernel)
  have hextracts := h .twoDeep (slotOf 5) _ (.refl _ _) rfl _ hfed (by decide) (by decide)
  have hflowing : (start .twoDeep (slotOf 5)).Flowing := flowing_of_reachable (.refl _ _)
  rw [hflowing.extracts_iff_carries rfl hfed] at hextracts
  exact TxSlot.not_carries_of_short (by decide) (by decide) hextracts

end Witness

end RemoverRun

end UdpIpCore
