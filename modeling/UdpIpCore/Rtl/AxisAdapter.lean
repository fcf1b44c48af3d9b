import Mathlib.Data.List.Forall2
import Mathlib.Data.Nat.Find
import UdpIpCore.Clocked
import UdpIpCore.Grouping
import UdpIpCore.Lanes

/-!
# The width adapter

`axis_adapter` joins a narrow and a wide stream, `SEG_COUNT` segments to a word. Towards the wide
side it collects segments until the word is full or the frame ends; towards the narrow side it
sends the segments of a word up to the last one that `tkeep` keeps. Neither loses, repeats or
reorders a segment, whatever the two sides do.
-/

namespace UdpIpCore

/-- One beat of a stream of the given widths of `tdata` and `tkeep`. -/
structure AxisBeat (w k : ℕ) where
  tdata : BitVec w
  tkeep : BitVec k
  tlast : Bool
  tuser : Bool
deriving DecidableEq, Repr

/-- The inputs of one cycle; the lines carry something whether or not `tvalid` is high. -/
structure AdapterCycle (w k : ℕ) where
  tvalid : Bool
  /-- The lines of `s_axis`, with `s_axis_tkeep_int`. -/
  lines : AxisBeat w k
  mAxisTready : Bool

/-- The registers of `axis_adapter` where the output is wider; `n` is `SEG_COUNT`. -/
structure AxisUpsize (n w k : ℕ) where
  seg : ℕ
  /-- `s_axis_tvalid_reg` and the other `s_axis` registers. -/
  heldValid : Bool
  held : AxisBeat w k
  /-- `m_axis_tvalid_reg` and the other `m_axis` registers. -/
  tvalid : Bool
  out : AxisBeat (n * w) (n * k)

namespace AxisUpsize

open Lanes

variable {n w k : ℕ}

/-- The state after `rst`. -/
def reset (n w k : ℕ) : AxisUpsize n w k := ⟨0, false, ⟨0, 0, false, false⟩, false, ⟨0, 0, false, false⟩⟩

/-- `s_axis_tready`. -/
def tready (u : AxisUpsize n w k) : Bool := !u.heldValid

/-- The output register is empty or is being read. -/
def free (u : AxisUpsize n w k) (i : AdapterCycle w k) : Bool := !u.tvalid || i.mAxisTready

/-- The buffered beat, or else the lines. -/
def source (u : AxisUpsize n w k) (i : AdapterCycle w k) : AxisBeat w k := if u.heldValid then u.held else i.lines

/-- A segment enters the output register. -/
def takes (u : AxisUpsize n w k) (i : AdapterCycle w k) : Bool := u.free i && (u.heldValid || i.tvalid)

/-- It completes the word. -/
def closes (u : AxisUpsize n w k) (i : AdapterCycle w k) : Bool := (u.source i).tlast || decide (u.seg = n - 1)

/-- One clock edge with `rst` low. -/
def step (u : AxisUpsize n w k) (i : AdapterCycle w k) : AxisUpsize n w k where
  seg := if u.takes i then (if u.closes i then 0 else u.seg + 1) else u.seg
  heldValid := !u.free i && (u.heldValid || i.tvalid)
  held := if !u.free i && i.tvalid && u.tready then i.lines else u.held
  tvalid := u.takes i && u.closes i || u.tvalid && !i.mAxisTready
  out :=
    if u.free i then
      { -- beyond the first segment the lines are read even if a beat is buffered
        tdata := if u.seg = 0 then setLane u.out.tdata 0 (u.source i).tdata else setLane u.out.tdata u.seg i.lines.tdata
        tkeep :=
          if u.seg = 0 then (u.source i).tkeep.setWidth (n * k) else setLane u.out.tkeep u.seg i.lines.tkeep
        tlast := (u.source i).tlast
        tuser := (u.source i).tuser }
    else u.out

end AxisUpsize

/-- A word carries a group of segments; no other segment of it is kept. -/
structure AxisBeat.Carries {n w k : ℕ} (b : AxisBeat (n * w) (n * k)) (g : List (AxisBeat w k)) : Prop where
  tdata : ∀ j s, g[j]? = some s → Lanes.lane w b.tdata j = s.tdata
  tkeep : ∀ j s, g[j]? = some s → Lanes.lane k b.tkeep j = s.tkeep
  rest : ∀ j, g.length ≤ j → j < n → Lanes.lane k b.tkeep j = 0#k
  tlast : ∀ s, g.getLast? = some s → b.tlast = s.tlast
  tuser : ∀ s, g.getLast? = some s → b.tuser = s.tuser

/-- The adapter towards the wide side, with what it has taken and given. -/
structure UpsizeRun (n w k : ℕ) where
  adapter : AxisUpsize n w k
  accepted : List (AxisBeat w k)
  delivered : List (AxisBeat (n * w) (n * k))

namespace UpsizeRun

open Lanes Grouping

variable {n w k : ℕ}

/-- After reset. -/
def start (n w k : ℕ) : UpsizeRun n w k := ⟨.reset n w k, [], []⟩

/-- One clock edge. -/
def step (t : UpsizeRun n w k) (i : AdapterCycle w k) : UpsizeRun n w k where
  adapter := t.adapter.step i
  accepted := t.accepted ++ if i.tvalid && t.adapter.tready then [i.lines] else []
  delivered := t.delivered ++ if t.adapter.tvalid && i.mAxisTready then [t.adapter.out] else []

/-- Any two sides. -/
def machine (n w k : ℕ) : Clocked.Machine (UpsizeRun n w k) (AdapterCycle w k) where
  step := step
  legal := fun _ _ => True

/-- The beat in the buffer. -/
def waiting (t : UpsizeRun n w k) : List (AxisBeat w k) := if t.adapter.heldValid then [t.adapter.held] else []

/-- The word on the output. -/
def shown (t : UpsizeRun n w k) : List (AxisBeat (n * w) (n * k)) := if t.adapter.tvalid then [t.adapter.out] else []

/-- The words given and the one on the output carry the segments, cut into words. -/
def Packs (t : UpsizeRun n w k) : Prop :=
  ∃ taken, t.accepted = taken ++ t.waiting ∧
    List.Forall₂ AxisBeat.Carries (t.delivered ++ t.shown) (groups AxisBeat.tlast n taken)

/-- The output register collects the segments of a word. -/
structure Collects (u : AxisUpsize n w k) (part : List (AxisBeat w k)) : Prop where
  seg : u.seg = part.length
  tdata : ∀ j s, part[j]? = some s → lane w u.out.tdata j = s.tdata
  tkeep : ∀ j s, part[j]? = some s → lane k u.out.tkeep j = s.tkeep
  rest : part ≠ [] → ∀ j, part.length < j → j < n → lane k u.out.tkeep j = 0#k

/-- What is known in every state. -/
structure Inv (t : UpsizeRun n w k) : Prop where
  full : t.adapter.tvalid = true → t.adapter.seg = 0
  held : t.adapter.heldValid = true → t.adapter.tvalid = true
  packs : ∃ taken, t.accepted = taken ++ t.waiting ∧
    List.Forall₂ AxisBeat.Carries (t.delivered ++ t.shown) (groups AxisBeat.tlast n taken) ∧
      Collects t.adapter (left AxisBeat.tlast n taken)

/-- After reset nothing was taken. -/
theorem inv_start : (start n w k).Inv where
  full := fun _ => rfl
  held := fun h => h
  packs := ⟨[], rfl, .nil, rfl, fun _ _ h => absurd h (by simp), fun _ _ h => absurd h (by simp), fun h => absurd rfl h⟩

variable {t : UpsizeRun n w k} {i : AdapterCycle w k}

/-- Behind the first segment of a word nothing is buffered. -/
theorem Inv.source_eq (h : t.Inv) (hseg : t.adapter.seg ≠ 0) : t.adapter.source i = i.lines := by
  have hheld : t.adapter.heldValid = false := by
    rw [← Bool.not_eq_true]
    exact fun hheld => hseg (h.full (h.held hheld))
  rw [AxisUpsize.source, hheld, if_neg Bool.false_ne_true]

/-- Where the output register is free, the next segment stands in its place, be it valid or not. -/
theorem Inv.lanes_out (h : t.Inv) (hfree : t.adapter.free i = true) {part : List (AxisBeat w k)}
    (hpart : Collects t.adapter part) (hlength : part.length < n) :
    (∀ j s, (part ++ [t.adapter.source i])[j]? = some s → lane w (t.adapter.step i).out.tdata j = s.tdata ∧
      lane k (t.adapter.step i).out.tkeep j = s.tkeep) ∧
    ∀ j, part.length < j → j < n → lane k (t.adapter.step i).out.tkeep j = 0#k := by
  have hdata : (part.length + 1) * w ≤ n * w := Nat.mul_le_mul_right w hlength
  have hkeep : (part.length + 1) * k ≤ n * k := Nat.mul_le_mul_right k hlength
  by_cases hzero : part.length = 0
  · obtain rfl := List.eq_nil_of_length_eq_zero hzero
    have hseg : t.adapter.seg = 0 := hpart.seg
    have hout : (t.adapter.step i).out.tdata = setLane t.adapter.out.tdata 0 (t.adapter.source i).tdata ∧
        (t.adapter.step i).out.tkeep = (t.adapter.source i).tkeep.setWidth (n * k) := by
      simp [AxisUpsize.step, hfree, hseg]
    rw [hout.1, hout.2]
    refine ⟨fun j s hs => ?_, fun j hj _ => lane_setWidth_of_pos _ hj⟩
    rw [List.nil_append, List.getElem?_singleton] at hs
    split at hs
    · rename_i hj
      obtain rfl := Option.some.inj hs
      obtain rfl := hj
      refine ⟨lane_setLane_self _ hdata, lane_setWidth_zero _ ?_⟩
      simpa using hkeep
    · exact absurd hs.symm (Option.some_ne_none s)
  · have hseg : t.adapter.seg ≠ 0 := hpart.seg ▸ hzero
    have hsource := h.source_eq (i := i) hseg
    have hout : (t.adapter.step i).out.tdata = setLane t.adapter.out.tdata part.length (t.adapter.source i).tdata ∧
        (t.adapter.step i).out.tkeep = setLane t.adapter.out.tkeep part.length (t.adapter.source i).tkeep := by
      simp [AxisUpsize.step, hfree, hpart.seg, hzero, hsource]
    rw [hout.1, hout.2]
    refine ⟨fun j s hs => ?_, fun j hj hjn => ?_⟩
    · by_cases hj : j < part.length
      · rw [List.getElem?_append_left hj] at hs
        rw [lane_setLane_of_ne _ (Nat.ne_of_lt hj), lane_setLane_of_ne _ (Nat.ne_of_lt hj)]
        exact ⟨hpart.tdata j s hs, hpart.tkeep j s hs⟩
      · rw [List.getElem?_append_right (Nat.le_of_not_lt hj), List.getElem?_singleton] at hs
        split at hs
        · rename_i hlast
          obtain rfl := Option.some.inj hs
          obtain rfl : j = part.length := by omega
          exact ⟨lane_setLane_self _ hdata, lane_setLane_self _ hkeep⟩
        · exact absurd hs.symm (Option.some_ne_none s)
    · rw [lane_setLane_of_ne _ (Nat.ne_of_gt hj)]
      exact hpart.rest (fun hnil => hzero (by rw [hnil]; rfl)) j hj hjn

/-- What is on the output is given where the register is free. -/
theorem delivered_of_free (hfree : t.adapter.free i = true) : (t.step i).delivered = t.delivered ++ t.shown := by
  rw [AxisUpsize.free, Bool.or_eq_true, Bool.not_eq_true'] at hfree
  rw [step, shown]
  rcases hfree with hempty | hready
  · rw [hempty, Bool.false_and]
  · rw [hready, Bool.and_true]

/-- A free output register shows a word only if it was completed in this cycle. -/
theorem tvalid_of_free (hfree : t.adapter.free i = true) {b : Bool} (hcloses : (t.adapter.takes i && t.adapter.closes i) = b) :
    (t.step i).adapter.tvalid = b := by
  have hread : (t.adapter.tvalid && !i.mAxisTready) = false := by
    rw [AxisUpsize.free] at hfree
    cases hvalid : t.adapter.tvalid <;> simp_all
  show (t.adapter.takes i && t.adapter.closes i || t.adapter.tvalid && !i.mAxisTready) = b
  rw [hread, Bool.or_false, hcloses]

/-- An empty output register shows nothing. -/
theorem shown_of_empty {t : UpsizeRun n w k} (hempty : t.adapter.tvalid = false) : t.shown = [] := by
  rw [shown, hempty, if_neg Bool.false_ne_true]

/-- The output register waits to be read. -/
theorem Inv.step_of_full (h : t.Inv) (hfull : t.adapter.free i = false) : (t.step i).Inv := by
  obtain ⟨taken, haccepted, hcarries, hpart⟩ := h.packs
  have hvalid : t.adapter.tvalid = true ∧ i.mAxisTready = false := by
    simpa [AxisUpsize.free] using hfull
  have htakes : t.adapter.takes i = false := by rw [AxisUpsize.takes, hfull, Bool.false_and]
  have hseg : (t.step i).adapter.seg = t.adapter.seg := by simp [step, AxisUpsize.step, htakes]
  have hout : (t.step i).adapter.out = t.adapter.out := by simp [step, AxisUpsize.step, hfull]
  have hkeeps : (t.step i).adapter.tvalid = true := by simp [step, AxisUpsize.step, hvalid]
  have hdelivered : (t.step i).delivered ++ (t.step i).shown = t.delivered ++ t.shown := by
    simp [step, shown, AxisUpsize.step, hvalid, hfull]
  refine ⟨fun _ => hseg.trans (h.full hvalid.1), fun _ => hkeeps, taken, ?_, hdelivered ▸ hcarries, ?_⟩
  · rw [step, haccepted, waiting, waiting]
    cases hheld : t.adapter.heldValid <;> cases harrives : i.tvalid <;>
      simp [AxisUpsize.step, AxisUpsize.tready, hheld, harrives, hfull]
  · exact ⟨hseg.trans hpart.seg, by rw [hout]; exact hpart.tdata, by rw [hout]; exact hpart.tkeep,
      by rw [hout]; exact hpart.rest⟩

/-- The output register is free and nothing comes. -/
theorem Inv.step_of_idle (h : t.Inv) (hn : 0 < n) (hfree : t.adapter.free i = true) (htakes : t.adapter.takes i = false) :
    (t.step i).Inv := by
  obtain ⟨taken, haccepted, hcarries, hpart⟩ := h.packs
  have hnone : t.adapter.heldValid = false ∧ i.tvalid = false := by
    simpa [AxisUpsize.takes, hfree] using htakes
  have hseg : (t.step i).adapter.seg = t.adapter.seg := by simp [step, AxisUpsize.step, htakes]
  have hempty : (t.step i).adapter.tvalid = false := tvalid_of_free hfree (by rw [htakes, Bool.false_and])
  have hheld : (t.step i).adapter.heldValid = false := by simp [step, AxisUpsize.step, hfree]
  refine ⟨fun hvalid => ?_, fun hvalid => ?_, taken, ?_, ?_, ?_⟩
  · rw [hempty] at hvalid
    exact absurd hvalid Bool.false_ne_true
  · rw [hheld] at hvalid
    exact absurd hvalid Bool.false_ne_true
  · rw [step, haccepted, waiting, waiting, hnone.1, hnone.2]
    simp [AxisUpsize.step, hfree]
  · rw [delivered_of_free hfree, shown_of_empty hempty, List.append_nil]
    exact hcarries
  · obtain ⟨hlanes, hrest⟩ := h.lanes_out hfree hpart (length_left_lt hn taken)
    have hfirst (j : ℕ) (s : AxisBeat w k) (hs : (left AxisBeat.tlast n taken)[j]? = some s) :
        (left AxisBeat.tlast n taken ++ [t.adapter.source i])[j]? = some s := by
      rw [List.getElem?_append_left (List.getElem?_eq_some_iff.mp hs).1]
      exact hs
    exact ⟨hseg.trans hpart.seg, fun j s hs => (hlanes j s (hfirst j s hs)).1, fun j s hs => (hlanes j s (hfirst j s hs)).2,
      fun _ => hrest⟩

/-- A segment is taken. -/
theorem Inv.step_of_takes (h : t.Inv) (hn : 0 < n) (htakes : t.adapter.takes i = true) : (t.step i).Inv := by
  obtain ⟨taken, haccepted, hcarries, hpart⟩ := h.packs
  have hcomes : t.adapter.free i = true ∧ (t.adapter.heldValid = true ∨ i.tvalid = true) := by
    simpa [AxisUpsize.takes] using htakes
  obtain ⟨hfree, hcomes⟩ := hcomes
  have hwaiting : (t.step i).waiting = [] := by simp [waiting, step, AxisUpsize.step, hfree]
  have hheld : (t.step i).adapter.heldValid = false := by simp [step, AxisUpsize.step, hfree]
  have haccepted' : (t.step i).accepted = taken ++ [t.adapter.source i] := by
    rw [step, haccepted, waiting, AxisUpsize.source, AxisUpsize.tready]
    cases hheld : t.adapter.heldValid with
    | true => simp
    | false => simp [hcomes.resolve_left (by simp [hheld])]
  have hlength : (left AxisBeat.tlast n taken).length < n := length_left_lt hn taken
  obtain ⟨hlanes, hrest⟩ := h.lanes_out hfree hpart hlength
  have hclosed : t.adapter.closes i = true ↔
      (t.adapter.source i).tlast = true ∨ (left AxisBeat.tlast n taken).length + 1 = n := by
    rw [AxisUpsize.closes, Bool.or_eq_true, decide_eq_true_eq, hpart.seg]
    exact or_congr_right ⟨fun heq => by omega, fun heq => by omega⟩
  have htvalid : (t.step i).adapter.tvalid = t.adapter.closes i := tvalid_of_free hfree (by rw [htakes, Bool.true_and])
  have hseg : (t.step i).adapter.seg = if t.adapter.closes i then 0 else t.adapter.seg + 1 := by
    show (if t.adapter.takes i then if t.adapter.closes i then 0 else t.adapter.seg + 1 else t.adapter.seg) = _
    rw [if_pos htakes]
  refine ⟨fun hvalid => ?_, fun hvalid => ?_, taken ++ [t.adapter.source i], ?_, ?_⟩
  · rw [hseg, if_pos (htvalid.symm.trans hvalid)]
  · rw [hheld] at hvalid
    exact absurd hvalid Bool.false_ne_true
  · rw [haccepted', hwaiting, List.append_nil]
  · rw [delivered_of_free hfree]
    cases hcloses : t.adapter.closes i with
    | true =>
      obtain ⟨hgroups, hleft⟩ := cut_of_closes (hclosed.mp hcloses)
      have hshown : (t.step i).shown = [(t.adapter.step i).out] := by
        rw [shown, htvalid, hcloses, if_pos rfl]
        rfl
      rw [hgroups, hleft, hshown]
      refine ⟨List.rel_append hcarries (.cons ⟨fun j s hs => (hlanes j s hs).1, fun j s hs => (hlanes j s hs).2, ?_, ?_, ?_⟩
        .nil), ?_⟩
      · intro j hj hjn
        rw [List.length_append, List.length_singleton] at hj
        exact hrest j hj hjn
      · intro s hs
        rw [List.getLast?_concat, Option.some_inj] at hs
        simp [AxisUpsize.step, hfree, hs]
      · intro s hs
        rw [List.getLast?_concat, Option.some_inj] at hs
        simp [AxisUpsize.step, hfree, hs]
      · rw [hcloses, if_pos rfl] at hseg
        exact ⟨hseg, fun _ _ hs => absurd hs (by simp), fun _ _ hs => absurd hs (by simp), fun hne => absurd rfl hne⟩
    | false =>
      have hopen : (t.adapter.source i).tlast = false ∧ (left AxisBeat.tlast n taken).length + 1 ≠ n := by
        have hnot := mt hclosed.mpr (Bool.eq_false_iff.mp hcloses)
        push Not at hnot
        exact ⟨Bool.eq_false_iff.mpr hnot.1, hnot.2⟩
      obtain ⟨hgroups, hleft⟩ := cut_of_opens hopen.1 hopen.2
      rw [hgroups, hleft, shown_of_empty (htvalid.trans hcloses), List.append_nil]
      rw [hcloses, if_neg Bool.false_ne_true, hpart.seg] at hseg
      refine ⟨hcarries, ?_, fun j s hs => (hlanes j s hs).1, fun j s hs => (hlanes j s hs).2, fun _ j hj hjn => ?_⟩
      · rw [hseg, List.length_append, List.length_singleton]
      · rw [List.length_append, List.length_singleton] at hj
        exact hrest j (Nat.lt_of_succ_lt hj) hjn

/-- Every cycle keeps what is known. -/
theorem Inv.step (h : t.Inv) (hn : 0 < n) (i : AdapterCycle w k) : (t.step i).Inv := by
  cases hfree : t.adapter.free i with
  | false => exact h.step_of_full hfree
  | true =>
    cases htakes : t.adapter.takes i with
    | false => exact h.step_of_idle hn hfree htakes
    | true => exact h.step_of_takes hn htakes

/-- In every run the words carry the segments that were accepted, and at most one more segment is buffered. -/
theorem packs_of_reachable (hn : 0 < n) {t : UpsizeRun n w k} (h : (machine n w k).Reachable (start n w k) t) : t.Packs := by
  obtain ⟨taken, haccepted, hcarries, -⟩ := (Clocked.Machine.invariant inv_start (fun _ i ht _ => ht.step hn i) h).packs
  exact ⟨taken, haccepted, hcarries⟩

/-- Ten bytes without a stall, and a cycle to take the second word. -/
def tenBytes : List (AdapterCycle 8 1) :=
  List.replicate 9 ⟨true, ⟨0x41, 1, false, false⟩, true⟩ ++
    [⟨true, ⟨0x42, 1, true, false⟩, true⟩, ⟨false, ⟨0, 0, false, false⟩, true⟩]

/-- They make two words. -/
theorem packs_tenBytes : ((machine 8 8 1).run (start 8 8 1) tenBytes).delivered.length = 2 ∧
    ((machine 8 8 1).run (start 8 8 1) tenBytes).Packs :=
  ⟨by decide +kernel, packs_of_reachable (by decide) ⟨tenBytes, (machine 8 8 1).legal_of_forall (fun _ _ => trivial) _ _, rfl⟩⟩

end UpsizeRun

/-- The registers of `axis_adapter` where the output is narrower. -/
structure AxisDownsize (n w k : ℕ) where
  /-- `s_axis_tvalid_reg` and the other `s_axis` registers. -/
  heldValid : Bool
  held : AxisBeat (n * w) (n * k)
  /-- `m_axis_tvalid_reg` and the other `m_axis` registers. -/
  tvalid : Bool
  out : AxisBeat w k

namespace AxisBeat

open Lanes

variable {n w k : ℕ}

/-- The beat without its lowest segment. -/
def shift (b : AxisBeat (n * w) (n * k)) : AxisBeat (n * w) (n * k) :=
  { b with tdata := b.tdata >>> w, tkeep := b.tkeep >>> k }

/-- The segments up to the last one that `tkeep` keeps; there is always one. -/
def lanes (b : AxisBeat (n * w) (n * k)) : ℕ := Nat.findGreatest (fun j => lane k b.tkeep j ≠ 0#k) (n - 1) + 1

/-- The beats one word is sent in. -/
def segments (b : AxisBeat (n * w) (n * k)) : List (AxisBeat w k) :=
  (List.range b.lanes).map fun j => ⟨lane w b.tdata j, lane k b.tkeep j, b.tlast && decide (j + 1 = b.lanes), b.tuser⟩

/-- Nothing above the lowest segment is kept. -/
theorem lanes_of_last {b : AxisBeat (n * w) (n * k)} (h : b.tkeep >>> k = 0#_) : b.lanes = 1 := by
  rw [lanes, Nat.add_eq_right, Nat.findGreatest_eq_zero_iff]
  intro j hj hjn hne
  have hzero := (eq_zero_iff _).mp h (j - 1) (by omega)
  rw [lane_ushiftRight, Nat.sub_add_cancel hj] at hzero
  exact hne hzero

/-- Some segment above the lowest one is kept. -/
theorem lanes_shift {b : AxisBeat (n * w) (n * k)} (h : b.tkeep >>> k ≠ 0#_) : b.lanes = b.shift.lanes + 1 := by
  have hsome : ∃ j < n, lane k b.shift.tkeep j ≠ 0#k := by
    have hnot := mt (eq_zero_iff (b.tkeep >>> k)).mpr h
    push Not at hnot
    exact hnot
  obtain ⟨j, hj, hkept⟩ := hsome
  have hgreatest : lane k b.tkeep (b.shift.lanes) ≠ 0#k := by
    have hspec := Nat.findGreatest_spec (P := fun j => lane k b.shift.tkeep j ≠ 0#k) (Nat.le_sub_one_of_lt hj) hkept
    rw [shift, lane_ushiftRight] at hspec
    exact hspec
  rw [lanes, Nat.add_left_inj, Nat.findGreatest_eq_iff]
  refine ⟨?_, fun _ => hgreatest, fun l hl hln hne => ?_⟩
  · by_contra hlt
    exact hgreatest (lane_of_le _ (Nat.mul_le_mul_right k (by omega)))
  · have hnot := Nat.findGreatest_is_greatest (P := fun j => lane k b.shift.tkeep j ≠ 0#k) (k := l - 1)
      (Nat.lt_sub_of_add_lt hl) (by omega)
    rw [shift, lane_ushiftRight, Nat.sub_add_cancel (Nat.one_le_of_lt hl)] at hnot
    exact hnot hne

/-- The only segment of a word. -/
theorem segments_of_last {b : AxisBeat (n * w) (n * k)} (h : b.tkeep >>> k = 0#_) :
    b.segments = [⟨b.tdata.setWidth w, b.tkeep.setWidth k, b.tlast, b.tuser⟩] := by
  rw [segments, lanes_of_last h, setWidth_eq_lane, setWidth_eq_lane]
  simp

/-- The first segment of a word and the others. -/
theorem segments_of_more {b : AxisBeat (n * w) (n * k)} (h : b.tkeep >>> k ≠ 0#_) :
    b.segments = ⟨b.tdata.setWidth w, b.tkeep.setWidth k, false, b.tuser⟩ :: b.shift.segments := by
  have hlanes := lanes_shift h
  rw [segments, hlanes, List.range_succ_eq_map, List.map_cons, List.map_map, setWidth_eq_lane, setWidth_eq_lane, segments]
  congr 1
  · simp [lanes]
  · refine List.map_congr_left fun j _ => ?_
    show (⟨lane w b.tdata (j + 1), lane k b.tkeep (j + 1), b.tlast && decide (j + 1 + 1 = b.shift.lanes + 1), b.tuser⟩ :
      AxisBeat w k) = ⟨lane w (b.tdata >>> w) j, lane k (b.tkeep >>> k) j, b.tlast && decide (j + 1 = b.shift.lanes), b.tuser⟩
    have hlast : decide (j + 1 + 1 = b.shift.lanes + 1) = decide (j + 1 = b.shift.lanes) :=
      decide_eq_decide.mpr Nat.add_right_cancel_iff
    rw [lane_ushiftRight, lane_ushiftRight, hlast]

end AxisBeat

namespace AxisDownsize

variable {n w k : ℕ}

/-- The state after `rst`. -/
def reset (n w k : ℕ) : AxisDownsize n w k := ⟨false, ⟨0, 0, false, false⟩, false, ⟨0, 0, false, false⟩⟩

/-- `s_axis_tready`. -/
def tready (u : AxisDownsize n w k) : Bool := !u.heldValid

/-- The output register is empty or is being read. -/
def free (u : AxisDownsize n w k) (i : AdapterCycle (n * w) (n * k)) : Bool := !u.tvalid || i.mAxisTready

/-- The buffered word, or else the lines. -/
def source (u : AxisDownsize n w k) (i : AdapterCycle (n * w) (n * k)) : AxisBeat (n * w) (n * k) :=
  if u.heldValid then u.held else i.lines

/-- A segment enters the output register. -/
def takes (u : AxisDownsize n w k) (i : AdapterCycle (n * w) (n * k)) : Bool := u.free i && (u.heldValid || i.tvalid)

/-- It is the last one of its word. -/
def closes (u : AxisDownsize n w k) (i : AdapterCycle (n * w) (n * k)) : Bool :=
  decide ((u.source i).tkeep >>> k = 0#_)

/-- One clock edge with `rst` low. -/
def step (u : AxisDownsize n w k) (i : AdapterCycle (n * w) (n * k)) : AxisDownsize n w k where
  heldValid := if u.free i then u.takes i && !u.closes i else u.heldValid || i.tvalid
  held :=
    if u.takes i then (u.source i).shift
    else if !u.free i && i.tvalid && u.tready then i.lines
    else u.held
  tvalid := u.takes i || u.tvalid && !i.mAxisTready
  out :=
    if u.free i then
      { tdata := (u.source i).tdata.setWidth w
        tkeep := (u.source i).tkeep.setWidth k
        tlast := u.takes i && u.closes i && (u.source i).tlast
        tuser := (u.source i).tuser }
    else u.out

end AxisDownsize

/-- The adapter towards the narrow side, with what it has taken and given. -/
structure DownsizeRun (n w k : ℕ) where
  adapter : AxisDownsize n w k
  accepted : List (AxisBeat (n * w) (n * k))
  delivered : List (AxisBeat w k)

namespace DownsizeRun

variable {n w k : ℕ}

/-- After reset. -/
def start (n w k : ℕ) : DownsizeRun n w k := ⟨.reset n w k, [], []⟩

/-- One clock edge. -/
def step (t : DownsizeRun n w k) (i : AdapterCycle (n * w) (n * k)) : DownsizeRun n w k where
  adapter := t.adapter.step i
  accepted := t.accepted ++ if i.tvalid && t.adapter.tready then [i.lines] else []
  delivered := t.delivered ++ if t.adapter.tvalid && i.mAxisTready then [t.adapter.out] else []

/-- Any two sides. -/
def machine (n w k : ℕ) : Clocked.Machine (DownsizeRun n w k) (AdapterCycle (n * w) (n * k)) where
  step := step
  legal := fun _ _ => True

/-- What is left of the word in the buffer. -/
def waiting (t : DownsizeRun n w k) : List (AxisBeat (n * w) (n * k)) :=
  if t.adapter.heldValid then [t.adapter.held] else []

/-- The segment on the output. -/
def shown (t : DownsizeRun n w k) : List (AxisBeat w k) := if t.adapter.tvalid then [t.adapter.out] else []

/-- The segments given, the one on the output and those still to come are those of the words accepted. -/
def Sends (t : DownsizeRun n w k) : Prop :=
  t.delivered ++ t.shown ++ t.waiting.flatMap AxisBeat.segments = t.accepted.flatMap AxisBeat.segments

variable {t : DownsizeRun n w k} {i : AdapterCycle (n * w) (n * k)}

/-- What is on the output is given where the register is free. -/
theorem delivered_of_free (hfree : t.adapter.free i = true) : (t.step i).delivered = t.delivered ++ t.shown := by
  rw [AxisDownsize.free, Bool.or_eq_true, Bool.not_eq_true'] at hfree
  rw [step, shown]
  rcases hfree with hempty | hready
  · rw [hempty, Bool.false_and]
  · rw [hready, Bool.and_true]

/-- The output register waits to be read. -/
theorem Sends.step_of_full (h : t.Sends) (hfull : t.adapter.free i = false) : (t.step i).Sends := by
  have hvalid : t.adapter.tvalid = true ∧ i.mAxisTready = false := by
    simpa [AxisDownsize.free] using hfull
  have htakes : t.adapter.takes i = false := by rw [AxisDownsize.takes, hfull, Bool.false_and]
  have hdelivered : (t.step i).delivered ++ (t.step i).shown = t.delivered ++ t.shown := by
    simp [step, shown, AxisDownsize.step, hvalid, hfull]
  have hshift : (t.step i).accepted.flatMap AxisBeat.segments = t.accepted.flatMap AxisBeat.segments ++
      (if i.tvalid && t.adapter.tready then [i.lines] else []).flatMap AxisBeat.segments := List.flatMap_append
  have hwaiting : (t.step i).waiting = t.waiting ++ if i.tvalid && t.adapter.tready then [i.lines] else [] := by
    cases hheld : t.adapter.heldValid <;> cases harrives : i.tvalid <;>
      simp [waiting, step, AxisDownsize.step, AxisDownsize.tready, hheld, harrives, hfull, htakes]
  rw [Sends, hdelivered, hshift, hwaiting, List.flatMap_append, ← List.append_assoc, h]

/-- The output register is free. -/
theorem Sends.step_of_free (h : t.Sends) (hfree : t.adapter.free i = true) : (t.step i).Sends := by
  have hread : (t.adapter.tvalid && !i.mAxisTready) = false := by
    rw [AxisDownsize.free] at hfree
    cases hvalid : t.adapter.tvalid <;> simp_all
  have htakes : t.adapter.takes i = (t.adapter.heldValid || i.tvalid) := by
    rw [AxisDownsize.takes, hfree, Bool.true_and]
  have haccepted : (t.step i).accepted.flatMap AxisBeat.segments = t.delivered ++ t.shown ++
      if t.adapter.takes i then (t.adapter.source i).segments else [] := by
    rw [step, List.flatMap_append, ← h, htakes, waiting, AxisDownsize.source, AxisDownsize.tready]
    cases hheld : t.adapter.heldValid <;> cases harrives : i.tvalid <;> simp
  have hnext : (t.step i).shown ++ (t.step i).waiting.flatMap AxisBeat.segments =
      if t.adapter.takes i then (t.adapter.source i).segments else [] := by
    cases htakes' : t.adapter.takes i with
    | false => simp [step, shown, waiting, AxisDownsize.step, hread, hfree, htakes']
    | true =>
      by_cases hlast : (t.adapter.source i).tkeep >>> k = 0#_
      · rw [if_pos rfl, AxisBeat.segments_of_last hlast]
        simp [step, shown, waiting, AxisDownsize.step, AxisDownsize.closes, hfree, htakes', hlast]
      · rw [if_pos rfl, AxisBeat.segments_of_more hlast]
        simp [step, shown, waiting, AxisDownsize.step, AxisDownsize.closes, hfree, htakes', hlast]
  rw [Sends, delivered_of_free hfree, List.append_assoc _ (t.step i).shown, hnext, haccepted]

/-- Every cycle keeps it. -/
theorem Sends.step (h : t.Sends) (i : AdapterCycle (n * w) (n * k)) : (t.step i).Sends := by
  cases hfree : t.adapter.free i with
  | false => exact h.step_of_full hfree
  | true => exact h.step_of_free hfree

/-- In every run the segments are those of the words, in order. -/
theorem sends_of_reachable {t : DownsizeRun n w k} (h : (machine n w k).Reachable (start n w k) t) : t.Sends :=
  Clocked.Machine.invariant (show (start n w k).Sends from rfl) (fun _ i ht _ => ht.step i) h

/-- A full word and one of which three bytes are kept, without a stall. -/
def twoWords : List (AdapterCycle (8 * 8) (8 * 1)) :=
  List.replicate 8 ⟨true, ⟨0x0807060504030201, 0xFF, false, false⟩, true⟩ ++
    List.replicate 4 ⟨true, ⟨0x0B0A09, 0x07, true, false⟩, true⟩

/-- They make eleven bytes. -/
theorem sends_twoWords : ((machine 8 8 1).run (start 8 8 1) twoWords).delivered.length = 11 ∧
    ((machine 8 8 1).run (start 8 8 1) twoWords).Sends :=
  ⟨by decide +kernel, sends_of_reachable ⟨twoWords, (machine 8 8 1).legal_of_forall (fun _ _ => trivial) _ _, rfl⟩⟩

end DownsizeRun

end UdpIpCore
