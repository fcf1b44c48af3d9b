import UdpIpCore.Clocked
import UdpIpCore.Rtl.UserRstHandler

/-!
# The configuration latch

The PS writes the configuration registers between the assertion and the release of the
user reset, and the controller copies them in every cycle of the reset. A flag that rises
in the cycle in which the reset is granted ends the reset after one cycle, with whatever
was written by then; otherwise the controller only ever works with the registers as they
were before or after the writes.
-/

namespace UdpIpCore

/-- The controller's part with the history of the configuration registers. -/
structure LatchRun where
  core : ResetCore
  /-- The contents of the configuration registers before the first write of a sequence and after its last one; the
  sequences before it belong to it as long as their reset was not served. -/
  whole : List ControllerConfig
  /-- The reset was asserted since the last sequence was over. -/
  served : Bool

namespace LatchRun

/-- After the power-on reset. -/
def start : LatchRun := ⟨.start, [ConfigRegs.reset.config], false⟩

/-- The PS holds the reset request, a sequence of writes is in progress. -/
def writing (t : LatchRun) : Bool := t.core.regs.userRst

/-- The write of a cycle asserts the request, a sequence begins. -/
def begins (t : LatchRun) (i : ResetCycle) : Bool := !t.writing && (t.core.regsNext i).userRst

/-- The write of a cycle releases the request, the sequence is over. -/
def releases (t : LatchRun) (i : ResetCycle) : Bool := t.writing && !(t.core.regsNext i).userRst

/-- One clock edge. -/
def step (t : LatchRun) (i : ResetCycle) : LatchRun where
  core := t.core.step i
  whole :=
    if t.begins i && t.served then [t.core.regs.config]
    else t.whole ++ if t.releases i then [(t.core.regsNext i).config] else []
  served := !(t.core.regsNext i).userRst && (t.served || (!t.writing && t.core.rstGlobal))

/-- The configuration is written only while the request is held. -/
def Framed (t : LatchRun) (i : ResetCycle) : Prop :=
  t.writing = false → (t.core.regsNext i).config = t.core.regs.config

/-- The controller's part under any sequences of writes and any transfers. -/
def machine : Clocked.Machine LatchRun ResetCycle where
  step := step
  legal := Framed

instance (t : LatchRun) (i : ResetCycle) : Decidable (machine.legal t i) := inferInstanceAs (Decidable (_ → _))

/-- Out of reset the configuration in force is never a mixture, and once the reset was served it is the
configuration that was written last. -/
structure NeverHalfApplied (t : LatchRun) : Prop where
  whole : t.core.rstGlobal = false → t.core.latched ∈ t.whole
  last : t.writing = false → t.served = true → t.core.latched = t.core.regs.config

/-- The property after each cycle. -/
def HalfAppliedNowhere (t : LatchRun) (i : ResetCycle) : Prop := (t.step i).NeverHalfApplied

/-- While the PS holds the request, no busy flag is up in a cycle of the reset unless the registers hold a whole
configuration or their last value is written in that cycle. A flag is up in the first cycle of a reset only. -/
def Calm (t : LatchRun) (i : ResetCycle) : Prop :=
  t.writing = true → t.core.handler.enable = true → t.core.rstGlobal = true → t.core.busy = true →
    t.core.regs.config ∈ t.whole ∨ t.releases i = true

instance (t : LatchRun) (i : ResetCycle) : Decidable (t.Calm i) := inferInstanceAs (Decidable (_ → _ → _ → _ → _))

/-- What holds between any two cycles. -/
structure Tracked (t : LatchRun) : Prop where
  enabled : t.core.Enabled
  never : t.NeverHalfApplied
  /-- Outside a sequence the registers hold a whole configuration. -/
  outside : t.writing = false → t.core.regs.config ∈ t.whole
  /-- So they do when the handler has not seen the request yet. -/
  fresh : t.core.handler.rstRequested = false → t.core.regs.config ∈ t.whole
  released : t.served = true → t.writing = false

/-- The power-on configuration is whole. -/
theorem tracked_start : start.Tracked where
  enabled := ResetCore.enabled_start
  never := ⟨by decide, by decide⟩
  outside := fun _ => List.mem_singleton_self _
  fresh := fun _ => List.mem_singleton_self _
  released := fun _ => rfl

section Cycle

variable {t : LatchRun} {i : ResetCycle}

/-- While a sequence is written the whole configurations stay, and at its end one is added. -/
theorem whole_step_of_writing (h : t.writing = true) :
    (t.step i).whole = t.whole ++ if t.releases i then [(t.core.regsNext i).config] else [] := by
  have hwhole : (t.step i).whole = if t.begins i && t.served then [t.core.regs.config]
    else t.whole ++ if t.releases i then [(t.core.regsNext i).config] else [] := rfl
  rw [hwhole, begins, h, Bool.not_true, Bool.false_and, Bool.false_and, if_neg (by simp)]

/-- When a sequence is over the registers hold a whole configuration. -/
theorem mem_whole_of_releases (h : t.releases i = true) : (t.core.regsNext i).config ∈ (t.step i).whole := by
  have hwriting : t.writing = true := by
    rw [releases, Bool.and_eq_true] at h
    exact h.1
  rw [whole_step_of_writing hwriting, if_pos h]
  exact List.mem_append_right _ (List.mem_singleton_self _)

/-- A whole configuration stays one, unless a served sequence is followed by the next one. -/
theorem mem_whole_step {c : ControllerConfig} (h : c ∈ t.whole) (hserved : t.served = true → c = t.core.regs.config) :
    c ∈ (t.step i).whole := by
  have hwhole : (t.step i).whole = if t.begins i && t.served then [t.core.regs.config]
    else t.whole ++ if t.releases i then [(t.core.regsNext i).config] else [] := rfl
  rw [hwhole]
  split
  · rename_i hbegins
    rw [Bool.and_eq_true] at hbegins
    rw [hserved hbegins.2]
    exact List.mem_singleton_self _
  · exact List.mem_append_left _ h

/-- The release itself changes nothing of the configuration. -/
theorem config_of_releases (h : t.releases i = true) : (t.core.regsNext i).config = t.core.regs.config := by
  rw [releases, writing, Bool.and_eq_true, Bool.not_eq_true'] at h
  refine ResetCore.config_regsNext ?_
  rw [h.1, h.2]
  exact Bool.false_ne_true

/-- What is latched in a cycle of the reset are the registers. -/
theorem latched_step : (t.step i).core.latched =
    if t.core.rstGlobal then t.core.regs.config else t.core.latched := rfl

/-- Outside a sequence the registers keep a whole configuration, and at its end they hold one. -/
theorem Tracked.outside_step (h : t.Tracked) (hframed : t.Framed i) (hwriting : (t.step i).writing = false) :
    (t.step i).core.regs.config ∈ (t.step i).whole := by
  have hregs : (t.step i).core.regs = t.core.regsNext i := rfl
  cases hbefore : t.writing with
  | false =>
    rw [hregs, hframed hbefore]
    exact mem_whole_step (h.outside hbefore) fun _ => rfl
  | true =>
    have hreleases : t.releases i = true := by
      rw [releases, hbefore]
      simpa [writing, hregs] using hwriting
    exact mem_whole_of_releases hreleases

/-- The configuration in force out of reset is whole. -/
theorem Tracked.whole_step (h : t.Tracked) (hcalm : t.Calm i) (hlow : (t.step i).core.rstGlobal = false) :
    (t.step i).core.latched ∈ (t.step i).whole := by
  have hstep : (t.step i).core = t.core.step i := rfl
  rw [latched_step]
  cases hrst : t.core.rstGlobal with
  | false =>
    rw [if_neg (by simp)]
    exact mem_whole_step (h.never.whole hrst) fun hserved => h.never.last (h.released hserved) hserved
  | true =>
    rw [if_pos rfl]
    have henable : t.core.handler.enable = true := by
      by_contra hnot
      rw [hstep, ResetCore.rstGlobal_step_of_disabled (by simpa using hnot)] at hlow
      simp at hlow
    rw [hstep, ResetCore.rstGlobal_step henable] at hlow
    cases hrequested : t.core.handler.rstRequested with
    | false => exact mem_whole_step (h.fresh hrequested) fun _ => rfl
    | true =>
      have hbusy : t.core.busy = true := by simpa [hrequested] using hlow
      cases hwriting : t.writing with
      | false => exact mem_whole_step (h.outside hwriting) fun _ => rfl
      | true =>
        rcases hcalm hwriting henable hrst hbusy with hwhole | hreleases
        · exact mem_whole_step hwhole fun _ => rfl
        · rw [← config_of_releases hreleases]
          exact mem_whole_of_releases hreleases

/-- Once the reset was served after a sequence, its last values are in force. -/
theorem Tracked.last_step (h : t.Tracked) (hframed : t.Framed i) (hserved : (t.step i).served = true) :
    (t.step i).core.latched = (t.step i).core.regs.config := by
  have hregs : (t.step i).core.regs = t.core.regsNext i := rfl
  have hnext : (t.step i).served =
      (!(t.core.regsNext i).userRst && (t.served || (!t.writing && t.core.rstGlobal))) := rfl
  rw [hnext, Bool.and_eq_true, Bool.or_eq_true, Bool.and_eq_true, Bool.not_eq_true', Bool.not_eq_true'] at hserved
  have hwriting : t.writing = false := hserved.2.elim h.released And.left
  rw [hregs, hframed hwriting, latched_step]
  rcases hserved.2 with hbefore | ⟨-, hrst⟩
  · rw [h.never.last hwriting hbefore, ite_self]
  · rw [if_pos hrst]

/-- A calm cycle keeps the configuration whole. -/
theorem Tracked.step (h : t.Tracked) (hframed : t.Framed i) (hcalm : t.Calm i) : (t.step i).Tracked where
  enabled := ResetCore.Enabled.step
  never := ⟨h.whole_step hcalm, fun _ => h.last_step hframed⟩
  outside := h.outside_step hframed
  fresh := by
    intro hrequested
    have hwriting : t.writing = false := by
      by_contra hnot
      have hnext : (t.step i).core.handler.rstRequested = true := ResetCore.rstRequested_step (by simpa [writing] using hnot)
      simp [hnext] at hrequested
    have hregs : (t.step i).core.regs = t.core.regsNext i := rfl
    rw [hregs, hframed hwriting]
    exact mem_whole_step (h.outside hwriting) fun _ => rfl
  released := by
    intro hserved
    have hnext : (t.step i).served =
        (!(t.core.regsNext i).userRst && (t.served || (!t.writing && t.core.rstGlobal))) := rfl
    rw [hnext, Bool.and_eq_true, Bool.not_eq_true'] at hserved
    exact hserved.1

/-- In a cycle that is not calm a mixture is put in force. -/
theorem not_whole_step (hcalm : ¬ t.Calm i) : ¬ t.HalfAppliedNowhere i := by
  intro hnever
  simp only [Calm, Classical.not_imp, not_or, Bool.not_eq_true] at hcalm
  obtain ⟨hwriting, henable, hrst, hbusy, hmixture, hreleases⟩ := hcalm
  have hlow : (t.step i).core.rstGlobal = false := by
    rw [show (t.step i).core = t.core.step i from rfl, ResetCore.rstGlobal_step henable, hbusy, Bool.not_true,
      Bool.and_false]
  have hmem := hnever.whole hlow
  rw [latched_step, if_pos hrst, whole_step_of_writing hwriting, hreleases, if_neg (by simp), List.append_nil] at hmem
  exact hmixture hmem

end Cycle

instance (t : LatchRun) (i : ResetCycle) : Decidable ((machine.restrict Calm).legal t i) :=
  inferInstanceAs (Decidable (machine.legal t i ∧ t.Calm i))

/-- In every run the configuration is never half applied exactly if all its cycles are calm. -/
theorem neverHalfApplied_iff_calm {inputs : List ResetCycle} (hlegal : machine.Legal start inputs) :
    machine.Throughout HalfAppliedNowhere start inputs ↔ (machine.restrict Calm).Legal start inputs := by
  refine Clocked.Machine.throughout_iff Tracked (fun t i ht hframed hcalm => ?_) (fun t i _ _ => not_whole_step)
    tracked_start hlegal
  have hnext := ht.step hframed hcalm
  exact ⟨hnext, hnext.never⟩

/-- A cycle with a register write and no transfer. -/
def writes (reg : RegAddr) (value : BitVec 32) : ResetCycle := ⟨some (reg, value), false, false, false, false, false⟩

/-- A cycle without a write, and possibly with a beat that the write DMA accepts. -/
def waits (wrBeat : Bool) : ResetCycle := ⟨none, wrBeat, false, false, false, false⟩

/-- The PS configures an address and a mask after the power-on reset, then writes both again; a beat is accepted in
the given cycle of the second sequence. -/
def reconfigured (wrBeat : Bool) : List ResetCycle :=
  [writes RegAddr.res 1, writes RegAddr.ipLoc 1, writes RegAddr.snm 1, writes RegAddr.res 0] ++
  List.replicate 4 (waits false) ++
  [writes RegAddr.res 1, writes RegAddr.ipLoc 2, waits wrBeat, waits false, writes RegAddr.snm 2, writes RegAddr.res 0]

/-- Without transfers the second configuration is applied as a whole. -/
theorem halfAppliedNowhere_reconfigured : machine.Throughout HalfAppliedNowhere start (reconfigured false) :=
  (neverHalfApplied_iff_calm (by decide)).mpr (by decide)

/-- A beat in the cycle in which the reset is granted puts the new address in force with the old mask. -/
theorem not_halfAppliedNowhere : ¬ machine.Always start HalfAppliedNowhere := by
  refine Clocked.Machine.not_always_of_run ((reconfigured true).take 11) (waits false) (by decide) (by decide) fun h => ?_
  exact absurd (h.whole (by decide)) (by decide)

end LatchRun

end UdpIpCore
