import UdpIpCore.Rtl.AxisAdapter
import UdpIpCore.Tx.PayloadFrame

/-!
# The narrow streams of the 1G core

`controller` reaches the UDP stack over streams of one byte and uses two width adapters. A frame
that is sent byte by byte and collected again comes back as it was. Behind the header remover the
adapter sends the payload of each slot, byte by byte.
-/

namespace UdpIpCore

open Lanes Grouping

namespace AxisBeat

variable {n w k : ℕ}

/-- Exactly the first `m` segments are kept. -/
structure Keeps (b : AxisBeat (n * w) (n * k)) (m : ℕ) : Prop where
  pos : 0 < m
  le : m ≤ n
  kept : ∀ j < m, lane k b.tkeep j = BitVec.allOnes k
  rest : ∀ j, m ≤ j → j < n → lane k b.tkeep j = 0#k

/-- A beat of a packed frame: all but the last one are full. -/
def Packed (b : AxisBeat (n * w) (n * k)) : Prop := ∃ m, b.Keeps m ∧ (b.tlast = false → m = n)

/-- Two words that agree but for the data that are not kept. -/
structure Alike (a b : AxisBeat (n * w) (n * k)) : Prop where
  tkeep : a.tkeep = b.tkeep
  tlast : a.tlast = b.tlast
  tuser : a.tuser = b.tuser
  tdata : ∀ j < n, lane k b.tkeep j ≠ 0#k → lane w a.tdata j = lane w b.tdata j

/-- As many segments are sent as are kept. -/
theorem Keeps.lanes_eq {b : AxisBeat (n * w) (n * k)} {m : ℕ} (h : b.Keeps m) (hk : 0 < k) : b.lanes = m := by
  have hone : BitVec.allOnes k ≠ 0#k := by
    intro heq
    have hbit := congrArg (fun x => x.getLsbD 0) heq
    simp [Nat.ne_of_gt hk] at hbit
  have hpos := h.pos
  have hle := h.le
  rw [AxisBeat.lanes, ← Nat.sub_add_cancel hpos, Nat.add_left_inj, Nat.findGreatest_eq_iff]
  refine ⟨by omega, fun _ => ?_, fun j hj hjn hne => hne (h.rest j (by omega) (by omega))⟩
  rw [h.kept (m - 1) (by omega)]
  exact hone

/-- The segments of a word that keeps its first ones. -/
theorem Keeps.segments_eq {b : AxisBeat (n * w) (n * k)} {m : ℕ} (h : b.Keeps m) (hk : 0 < k) :
    (b.segments : List (AxisBeat w k)) = (List.range m).map fun j =>
      ⟨lane w b.tdata j, BitVec.allOnes k, b.tlast && decide (j + 1 = m), b.tuser⟩ := by
  rw [segments, h.lanes_eq hk]
  refine List.map_congr_left fun j hj => ?_
  rw [h.kept j (List.mem_range.mp hj)]

/-- The segments of a packed word are a group of the stream. -/
theorem Packed.complete {b : AxisBeat (n * w) (n * k)} (h : b.Packed) (hk : 0 < k) :
    Complete AxisBeat.tlast n (b.segments : List (AxisBeat w k)) := by
  obtain ⟨m, hkeeps, hfull⟩ := h
  have hpos := hkeeps.pos
  have hle := hkeeps.le
  rw [hkeeps.segments_eq hk]
  obtain ⟨l, rfl⟩ : ∃ l, m = l + 1 := ⟨m - 1, by omega⟩
  rw [List.range_succ, List.map_append, List.map_singleton]
  refine ⟨by simp, ?_, fun s hs => ?_, fun s hs => ?_⟩
  · rw [List.length_append, List.length_map, List.length_range]
    exact hle
  · rw [List.dropLast_concat] at hs
    obtain ⟨j, hj, rfl⟩ := List.mem_map.mp hs
    have hlt := List.mem_range.mp hj
    have hmore : decide (j + 1 = l + 1) = false := decide_eq_false (by omega)
    rw [hmore, Bool.and_false]
  · rw [List.getLast?_concat, Option.some_inj] at hs
    subst hs
    rw [List.length_append, List.length_map, List.length_range, List.length_singleton]
    cases hlast : b.tlast with
    | true => exact Or.inl (by simp)
    | false => exact Or.inr (hfull hlast)

/-- A word that carries the segments of a packed one is like it. -/
theorem Carries.alike {a b : AxisBeat (n * w) (n * k)} (h : a.Carries (b.segments : List (AxisBeat w k))) (hb : b.Packed)
    (hk : 0 < k) : a.Alike b (w := w) := by
  obtain ⟨m, hkeeps, -⟩ := hb
  have hpos := hkeeps.pos
  have hsegments := hkeeps.segments_eq (w := w) hk
  have hlength : (b.segments : List (AxisBeat w k)).length = m := by
    rw [hsegments, List.length_map, List.length_range]
  have hget {j : ℕ} (hj : j < m) : (b.segments : List (AxisBeat w k))[j]? =
      some ⟨lane w b.tdata j, BitVec.allOnes k, b.tlast && decide (j + 1 = m), b.tuser⟩ := by
    rw [hsegments, List.getElem?_map, List.getElem?_range hj]
    rfl
  have hlast : (b.segments : List (AxisBeat w k)).getLast? =
      some ⟨lane w b.tdata (m - 1), BitVec.allOnes k, b.tlast, b.tuser⟩ := by
    rw [List.getLast?_eq_getElem?, hlength, hget (by omega), Nat.sub_add_cancel hpos, decide_eq_true rfl, Bool.and_true]
  refine ⟨?_, h.tlast _ hlast, h.tuser _ hlast, fun j hj hkept => ?_⟩
  · refine eq_of_lanes fun j hj => ?_
    by_cases hjm : j < m
    · rw [h.tkeep j _ (hget hjm), hkeeps.kept j hjm]
    · rw [h.rest j (hlength ▸ Nat.le_of_not_lt hjm) hj, hkeeps.rest j (Nat.le_of_not_lt hjm) hj]
  · have hjm : j < m := by
      by_contra hge
      exact hkept (hkeeps.rest j (Nat.le_of_not_lt hge) hj)
    exact h.tdata j _ (hget hjm)

end AxisBeat

/-- The adapter towards the narrow side, and one back. -/
structure AdapterChain (n w k : ℕ) where
  down : DownsizeRun n w k
  up : UpsizeRun n w k

namespace AdapterChain

variable {n w k : ℕ}

/-- What the second adapter sees of a segment; a stream without `tkeep` keeps all. -/
def seen (keepEnable : Bool) (s : AxisBeat w k) : AxisBeat w k :=
  if keepEnable then s else { s with tkeep := BitVec.allOnes k }

/-- After reset. -/
def start (n w k : ℕ) : AdapterChain n w k := ⟨.start n w k, .start n w k⟩

/-- One clock edge. -/
def step (keepEnable : Bool) (t : AdapterChain n w k) (i : AdapterCycle (n * w) (n * k)) : AdapterChain n w k where
  down := t.down.step { i with mAxisTready := t.up.adapter.tready }
  up := t.up.step ⟨t.down.adapter.tvalid, seen keepEnable t.down.adapter.out, i.mAxisTready⟩

/-- The words that enter are packed. -/
def machine (keepEnable : Bool) (n w k : ℕ) : Clocked.Machine (AdapterChain n w k) (AdapterCycle (n * w) (n * k)) where
  step := step keepEnable
  legal := fun _ i => i.tvalid = true → i.lines.Packed

/-- Nothing is under way. -/
structure Drained (t : AdapterChain n w k) : Prop where
  downHeld : t.down.adapter.heldValid = false
  downOut : t.down.adapter.tvalid = false
  upHeld : t.up.adapter.heldValid = false
  upOut : t.up.adapter.tvalid = false

/-- The words that leave are the first ones that entered, and all of them once nothing is under way. -/
def Returns (t : AdapterChain n w k) : Prop :=
  ∃ first, first <+: t.down.accepted ∧ List.Forall₂ AxisBeat.Alike t.up.delivered first ∧
    (t.Drained → first = t.down.accepted)

/-- What is known in every state. -/
structure Inv (keepEnable : Bool) (t : AdapterChain n w k) : Prop where
  packed : ∀ b ∈ t.down.accepted, b.Packed
  link : t.up.accepted = t.down.delivered.map (seen keepEnable)
  sends : t.down.Sends
  packs : t.up.Inv

variable {keepEnable : Bool} {t : AdapterChain n w k}

/-- Every cycle keeps it. -/
theorem Inv.step (h : t.Inv keepEnable) (hn : 0 < n) {i : AdapterCycle (n * w) (n * k)}
    (hlegal : i.tvalid = true → i.lines.Packed) : (t.step keepEnable i).Inv keepEnable where
  packed := by
    intro b hb
    rcases List.mem_append.mp hb with hold | hnew
    · exact h.packed b hold
    · cases harrives : i.tvalid with
      | false => simp [harrives] at hnew
      | true =>
        rw [harrives, Bool.true_and] at hnew
        split at hnew
        · rw [List.mem_singleton.mp hnew]
          exact hlegal harrives
        · exact absurd hnew List.not_mem_nil
  link := by
    show t.up.accepted ++ _ = (t.down.delivered ++ _).map (seen keepEnable)
    rw [List.map_append, h.link]
    cases t.down.adapter.tvalid <;> cases t.up.adapter.tready <;> rfl
  sends := h.sends.step _
  packs := h.packs.step hn _

/-- A packed word is sent in segments that are seen as they are. -/
theorem map_seen {b : AxisBeat (n * w) (n * k)} (hb : b.Packed) (hk : 0 < k) :
    (b.segments : List (AxisBeat w k)).map (seen keepEnable) = b.segments := by
  obtain ⟨m, hkeeps, -⟩ := hb
  rw [hkeeps.segments_eq hk, List.map_map]
  refine List.map_congr_left fun j _ => ?_
  cases keepEnable <;> rfl

/-- The words that leave the second adapter are the first ones that entered. -/
theorem Inv.returns (h : t.Inv keepEnable) (hk : 0 < k) : t.Returns := by
  obtain ⟨taken, haccepted, hcarries, -⟩ := h.packs.packs
  have hmap : (t.down.accepted.flatMap AxisBeat.segments).map (seen keepEnable) =
      (t.down.accepted.map AxisBeat.segments).flatten := by
    rw [List.map_flatMap, List.flatMap_def]
    congr 1
    exact List.map_congr_left fun b hb => map_seen (h.packed b hb) hk
  have hcomplete := groups_flatten (show ∀ g ∈ t.down.accepted.map AxisBeat.segments, Complete AxisBeat.tlast n g by
    intro g hg
    obtain ⟨b, hb, rfl⟩ := List.mem_map.mp hg
    exact (h.packed b hb).complete hk)
  have hall : taken ++ (t.up.waiting ++ (t.down.shown ++ t.down.waiting.flatMap AxisBeat.segments).map (seen keepEnable)) =
      (t.down.accepted.map AxisBeat.segments).flatten := by
    have hsends := congrArg (List.map (seen keepEnable)) h.sends
    rw [List.append_assoc, List.map_append, ← h.link, haccepted, hmap, List.append_assoc] at hsends
    exact hsends
  have hgroups : groups AxisBeat.tlast n taken <+: t.down.accepted.map AxisBeat.segments := by
    rw [← hcomplete.1, ← hall]
    exact groups_isPrefix taken _
  have hgiven := List.forall₂_take t.up.delivered.length hcarries
  have hcount : (groups AxisBeat.tlast n taken).take t.up.delivered.length =
      (t.down.accepted.take (min t.up.delivered.length (groups AxisBeat.tlast n taken).length)).map AxisBeat.segments := by
    rw [List.map_take, ← List.take_take, ← List.prefix_iff_eq_take.mp hgroups]
  rw [List.take_left, hcount, List.forall₂_map_right_iff] at hgiven
  have hpacked : ∀ b ∈ t.down.accepted.take (min t.up.delivered.length (groups AxisBeat.tlast n taken).length), b.Packed :=
    fun b hb => h.packed b (List.mem_of_mem_take hb)
  have hboth := (List.forall₂_and_left _ _).mpr ⟨hpacked, hgiven.flip⟩
  refine ⟨_, List.take_prefix _ _, List.Forall₂.flip (hboth.imp fun b a hab => hab.2.alike hab.1 hk), fun hdrained => ?_⟩
  have hdone : taken = (t.down.accepted.map AxisBeat.segments).flatten := by
    rw [← hall, UpsizeRun.waiting, DownsizeRun.shown, DownsizeRun.waiting, hdrained.downHeld, hdrained.downOut,
      hdrained.upHeld]
    simp
  have hlength := hcarries.length_eq
  rw [UpsizeRun.shown, hdrained.upOut, if_neg Bool.false_ne_true, List.append_nil] at hlength
  rw [hlength, min_self, hdone, hcomplete.1, List.length_map, List.take_length]

/-- In every run the words come back as they were, in order. -/
theorem returns_of_reachable (keepEnable : Bool) (hn : 0 < n) (hk : 0 < k) {t : AdapterChain n w k}
    (h : (machine keepEnable n w k).Reachable (start n w k) t) : t.Returns := by
  have hstart : (start n w k).Inv keepEnable :=
    ⟨fun b hb => absurd hb List.not_mem_nil, rfl, rfl, UpsizeRun.inv_start⟩
  exact (Clocked.Machine.invariant hstart (fun t i ht hi => ht.step hn hi) h).returns hk

/-- Two words, and time for them to come back. -/
def twoWords : List (AdapterCycle (8 * 8) (8 * 1)) :=
  DownsizeRun.twoWords ++ List.replicate 3 ⟨false, ⟨0, 0, false, false⟩, true⟩

/-- They come back. -/
theorem returns_twoWords : ((machine false 8 8 1).run (start 8 8 1) twoWords).up.delivered.length = 2 ∧
    ((machine false 8 8 1).run (start 8 8 1) twoWords).Returns := by
  refine ⟨by decide +kernel, returns_of_reachable false (by decide) (by decide) ⟨twoWords, ?_, rfl⟩⟩
  have hfull : (⟨0x0807060504030201, 0xFF, false, false⟩ : AxisBeat (8 * 8) (8 * 1)).Packed :=
    ⟨8, ⟨by decide, by decide, by decide, by decide⟩, fun _ => rfl⟩
  have hlast : (⟨0x0B0A09, 0x07, true, false⟩ : AxisBeat (8 * 8) (8 * 1)).Packed :=
    ⟨3, ⟨by decide, by decide, by decide, by decide⟩, fun h => absurd h (by decide)⟩
  rw [Clocked.Machine.legal_iff_forall _ (fun _ _ => Iff.rfl)]
  intro i hi hvalid
  rcases List.mem_append.mp hi with hwords | hidle
  · rcases List.mem_append.mp hwords with hfirst | hsecond
    · rw [List.eq_of_mem_replicate hfirst]
      exact hfull
    · rw [List.eq_of_mem_replicate hsecond]
      exact hlast
  · rw [List.eq_of_mem_replicate hidle] at hvalid
    exact absurd hvalid Bool.false_ne_true

end AdapterChain

/-- A beat of the core on the wide side of an adapter to bytes. -/
def Beat.wide (b : Beat) : AxisBeat (8 * 8) (8 * 1) := ⟨b.tdata, b.tkeep, b.tlast, b.tuser⟩

/-- The frame of a slot byte by byte. -/
def TxSlot.byteFrame (s : TxSlot) : List (AxisBeat 8 1) :=
  (List.range s.len).map fun m => ⟨byteAt (s (UdpHeader.numWords + m / 8)) (m % 8), 1, decide (m + 1 = s.len), false⟩

/-- A beat of the frame of a slot keeps its first bytes. -/
theorem TxSlot.keeps_frameBeat {s : TxSlot} (hword : 8 ≤ s.len) {m : ℕ} (hm : m < s.frameLength) :
    (s.frameBeat m).wide.Keeps (min 8 (s.len - 8 * m)) := by
  have hmore : 8 * m < s.len := by
    rw [frameLength] at hm
    omega
  have hbit {j : ℕ} (hj : j < 8) : lane 1 (s.frameBeat m).wide.tkeep j = BitVec.ofBool (decide (j < min 8 (s.len - 8 * m))) := by
    apply BitVec.eq_of_getLsbD_eq
    intro l hl
    obtain rfl : l = 0 := by omega
    have hplace : j * 1 + 0 = j := by omega
    rw [getLsbD_lane _ _ hl, hplace]
    exact (AxisHeaderRemover.getLsbD_forwardedTkeep hword hmore hj).trans (BitVec.getLsbD_ofBool _ 0).symm
  refine ⟨by omega, Nat.min_le_left _ _, fun j hj => ?_, fun j hj hj8 => ?_⟩
  · rw [hbit (by omega), decide_eq_true hj]
    rfl
  · rw [hbit hj8, decide_eq_false (by omega)]
    rfl

/-- The bytes of a beat of the frame. -/
theorem TxSlot.segments_frameBeat {s : TxSlot} (hword : 8 ≤ s.len) {m : ℕ} (hm : m < s.frameLength) :
    (s.frameBeat m).wide.segments = (List.range (min 8 (s.len - 8 * m))).map fun j =>
      (⟨byteAt (s (UdpHeader.numWords + (8 * m + j) / 8)) ((8 * m + j) % 8), 1, decide (8 * m + j + 1 = s.len), false⟩ :
        AxisBeat 8 1) := by
  rw [(keeps_frameBeat hword hm).segments_eq Nat.one_pos]
  refine List.map_congr_left fun j hj => ?_
  have hlt := List.mem_range.mp hj
  have hdiv : (8 * m + j) / 8 = m := by omega
  have hmod : (8 * m + j) % 8 = j := by omega
  have hlast : (decide (m + 1 = s.frameLength) && decide (j + 1 = min 8 (s.len - 8 * m))) = decide (8 * m + j + 1 = s.len) := by
    rw [← Bool.decide_and, decide_eq_decide, frameLength]
    omega
  rw [hdiv, hmod, ← hlast, byteAt, Nat.mul_comm 8 j]
  rfl

/-- A payload of at least a word is sent byte by byte. -/
theorem TxSlot.segments_payload {s : TxSlot} (hword : 8 ≤ s.len) (hmax : s.len ≤ 2008) :
    (s.payload payloadBeats).flatMap (fun b => b.wide.segments) = s.byteFrame := by
  have hlength : s.len ≤ 8 * s.frameLength := by
    rw [frameLength]
    omega
  have hwords := flatMap_range_words (fun m => (⟨byteAt (s (UdpHeader.numWords + m / 8)) (m % 8), 1, decide (m + 1 = s.len),
    false⟩ : AxisBeat 8 1)) s.len s.frameLength
  rw [Nat.min_eq_left hlength] at hwords
  rw [payload_eq hword hmax, List.flatMap_map, byteFrame, ← hwords, List.flatMap_def, List.flatMap_def]
  congr 1
  refine List.map_congr_left fun m hm => ?_
  rw [segments_frameBeat hword (List.mem_range.mp hm)]

/-- The header remover with the adapter to bytes behind it. -/
structure NarrowTx (R : AxisRegister) where
  remover : RemoverRun R
  adapter : DownsizeRun 8 8 1

/-- One cycle around the two. -/
structure NarrowCycle where
  remover : RemoverCycle
  /-- What is on the lines between them while `tvalid` is low. -/
  idle : AxisBeat (8 * 8) (8 * 1)
  mAxisTready : Bool

namespace NarrowTx

variable {R : AxisRegister}

/-- After reset, with the first slot to be fed. -/
def start (R : AxisRegister) (slot : TxSlot) : NarrowTx R := ⟨.start R slot, .start 8 8 1⟩

/-- The beat the remover offers. -/
def offered (t : NarrowTx R) : Option Beat := R.out t.remover.remover.axisRegister

/-- One clock edge. -/
def step (t : NarrowTx R) (i : NarrowCycle) : NarrowTx R where
  remover := t.remover.step { i.remover with mAxisTready := t.adapter.adapter.tready }
  adapter := t.adapter.step ⟨t.offered.isSome, (t.offered.map Beat.wide).getD i.idle, i.mAxisTready⟩

/-- A payload that becomes one frame. -/
def Sendable (s : TxSlot) : Prop := 8 ≤ s.len ∧ s.len ≤ 2008

/-- The slots have payloads of that kind; all else is arbitrary. -/
def machine (R : AxisRegister) : Clocked.Machine (NarrowTx R) NarrowCycle where
  step := step
  legal := fun _ i => Sendable i.remover.next

/-- Nothing is under way, and no slot has begun. -/
structure Drained (t : NarrowTx R) : Prop where
  pos : t.remover.pos = 0
  axisRegister : R.contents t.remover.remover.axisRegister = []
  held : t.adapter.adapter.heldValid = false
  out : t.adapter.adapter.tvalid = false

/-- The bytes that were sent are the first ones of the payloads, slot by slot, and all of them once nothing is under
way. -/
structure SendsBytes (t : NarrowTx R) : Prop where
  order : t.adapter.delivered <+: (t.remover.past ++ [t.remover.slot]).flatMap TxSlot.byteFrame
  complete : t.Drained → t.adapter.delivered = t.remover.past.flatMap TxSlot.byteFrame

/-- What is known in every state. -/
structure Inv (t : NarrowTx R) : Prop where
  sendable : ∀ s ∈ t.remover.past ++ [t.remover.slot], Sendable s
  flowing : t.remover.Flowing
  sends : t.adapter.Sends
  link : t.adapter.accepted = t.remover.out.map Beat.wide

variable {t : NarrowTx R} {i : NarrowCycle}

/-- Every cycle keeps it. -/
theorem Inv.step (h : t.Inv) (hnext : Sendable i.remover.next) : (t.step i).Inv where
  sendable := by
    intro s hs
    have hslots : (t.step i).remover.past ++ [(t.step i).remover.slot] = t.remover.past ++ [t.remover.slot] ∨
        (t.step i).remover.past ++ [(t.step i).remover.slot] = t.remover.past ++ [t.remover.slot] ++ [i.remover.next] := by
      cases hends : t.remover.ends { i.remover with mAxisTready := t.adapter.adapter.tready } with
      | false => exact Or.inl (by simp [NarrowTx.step, RemoverRun.step, hends])
      | true => exact Or.inr (by simp [NarrowTx.step, RemoverRun.step, hends])
    rcases hslots with hsame | hmore
    · rw [hsame] at hs
      exact h.sendable s hs
    · rw [hmore] at hs
      rcases List.mem_append.mp hs with hold | hnew
      · exact h.sendable s hold
      · rw [List.mem_singleton.mp hnew]
        exact hnext
  flowing := h.flowing.run [_]
  sends := h.sends.step _
  link := by
    show t.adapter.accepted ++ _ = (t.remover.out ++ R.taken _ _).map Beat.wide
    rw [List.map_append, h.link, AxisRegister.taken, offered]
    cases R.out t.remover.remover.axisRegister <;> cases t.adapter.adapter.tready <;> rfl

/-- The bytes of slots that become one frame each. -/
theorem flatMap_byteFrame {slots : List TxSlot} (h : ∀ s ∈ slots, Sendable s) : slots.flatMap TxSlot.byteFrame =
    (slots.flatMap fun s => s.payload TxSlot.payloadBeats).flatMap fun b => b.wide.segments := by
  rw [List.flatMap_assoc, List.flatMap_def, List.flatMap_def]
  congr 1
  exact List.map_congr_left fun s hs => (TxSlot.segments_payload (h s hs).1 (h s hs).2).symm

/-- The bytes that were sent are those of the payloads. -/
theorem Inv.sendsBytes (h : t.Inv) : t.SendsBytes where
  order := by
    have hsends := h.sends
    rw [DownsizeRun.Sends, h.link, List.flatMap_map, List.append_assoc] at hsends
    obtain ⟨more, hmore⟩ := h.flowing.out_isPrefix
    rw [flatMap_byteFrame h.sendable, ← hmore, List.flatMap_append, ← hsends, List.append_assoc]
    exact List.prefix_append _ _
  complete := by
    intro hdrained
    have hsends := h.sends
    obtain ⟨-, hbefore⟩ := h.flowing.between hdrained.pos
    rw [hdrained.axisRegister, List.append_nil] at hbefore
    rw [DownsizeRun.Sends, h.link, List.flatMap_map, hbefore, DownsizeRun.shown, DownsizeRun.waiting, hdrained.held,
      hdrained.out] at hsends
    rw [flatMap_byteFrame fun s hs => h.sendable s (List.mem_append_left _ hs)]
    simpa using hsends

/-- In every run the payloads leave byte by byte, each ended by its last byte. -/
theorem sendsBytes_of_reachable (R : AxisRegister) {first : TxSlot} (hfirst : Sendable first) {t : NarrowTx R}
    (h : (machine R).Reachable (start R first) t) : t.SendsBytes := by
  have hstart : (start R first).Inv := by
    refine ⟨fun s hs => ?_, RemoverRun.flowing_of_reachable (.refl _ _), rfl, rfl⟩
    rw [List.mem_singleton.mp hs]
    exact hfirst
  exact (Clocked.Machine.invariant hstart (fun t i ht hi => ht.step hi) h).sendsBytes

/-- The beats come and go without a stall. -/
def flowingCycle : NarrowCycle := ⟨⟨true, 0, fun _ => 10, true, true⟩, ⟨0, 0, false, false⟩, true⟩

/-- Ten bytes are sent. -/
theorem sendsBytes_ten :
    ((machine .twoDeep).run (start .twoDeep fun _ => 10) (List.replicate 30 flowingCycle)).adapter.delivered.length = 10 ∧
      ((machine .twoDeep).run (start .twoDeep fun _ => 10) (List.replicate 30 flowingCycle)).SendsBytes := by
  have hten : Sendable fun _ => 10 := ⟨by decide, by decide⟩
  refine ⟨by decide +kernel, sendsBytes_of_reachable .twoDeep hten ⟨List.replicate 30 flowingCycle, ?_, rfl⟩⟩
  rw [Clocked.Machine.legal_iff_forall _ (fun _ _ => Iff.rfl)]
  intro i hi
  rw [List.eq_of_mem_replicate hi]
  exact hten

end NarrowTx

end UdpIpCore
