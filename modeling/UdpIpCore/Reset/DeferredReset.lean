import UdpIpCore.Reset.HeldReset

/-!
# Resets that are served late

The drivers hold the reset request while they write the registers and do not wait for the
reset. A request that meets a busy core is served at any later time, so it can fall into
the session that follows the call. It does so exactly if the core is busy from the release
of the request to the return of the call.
-/

namespace UdpIpCore

open Interaction

namespace ResetCore

/-- The controller's part under any writes and any transfers. -/
def machine : Clocked.Machine ResetCore ResetCycle where
  step := step
  legal := fun _ _ => True

/-- The register writes of a run, in order. -/
def writesOf (inputs : List ResetCycle) : List (RegAddr × BitVec 32) := inputs.filterMap ResetCycle.write

/-- The time after a call, as long as no reset is requested. -/
def session : Clocked.Machine ResetCore ResetCycle where
  step := step
  legal := fun t i => (t.regsNext i).userRst = false

/-- The reset is not asserted again before it is requested again. -/
def NotAgain (t : ResetCore) : Prop :=
  session.Always t fun s i => s.rstGlobal = false → (s.step i).rstGlobal = false

/-- The core is busy in each cycle of a run. -/
def BusyThroughout (t : ResetCore) (inputs : List ResetCycle) : Prop :=
  machine.Throughout (fun s _ => s.busy = true) t inputs

/-- A request waits for the core. -/
def Waiting (t : ResetCore) : Prop := t.handler.rstRequested = true ∧ t.rstGlobal = false

/-- Every run is legal. -/
theorem legal_run (t : ResetCore) (inputs : List ResetCycle) : machine.Legal t inputs := by
  induction inputs generalizing t with
  | nil => trivial
  | cons i rest ih => exact ⟨trivial, ih _⟩

section Cycle

variable {t : ResetCore} {i : ResetCycle}

/-- In every run. -/
theorem sound_of_reachable (h : machine.Reachable start t) : t.Sound :=
  Clocked.Machine.invariant sound_start (fun _ _ hs _ => hs.step) h

/-- A cycle without a write leaves the registers. -/
theorem regsNext_of_none (h : i.write = none) : t.regsNext i = t.regs := by
  rw [regsNext, h]

/-- A waiting request goes on waiting in a cycle of a busy core. -/
theorem Waiting.step (h : t.Waiting) (hsound : t.Sound) (hreleased : t.regs.userRst = false) (hbusy : t.busy = true) :
    (t.step i).Waiting := by
  refine ⟨?_, ?_⟩
  · rw [rstRequested_step_of_released hreleased, h.1, h.2]
    rfl
  · rw [hsound.rstGlobal_step_of_requested h.1, hbusy]
    rfl

/-- After the release no request waits once the reset has been asserted. -/
structure Settled (t : ResetCore) : Prop where
  enabled : t.Enabled
  released : t.regs.userRst = false
  calm : t.rstGlobal = false → t.handler.rstRequested = false

/-- A settled session stays settled. -/
theorem Settled.step (h : t.Settled) (hlegal : (t.regsNext i).userRst = false) : (t.step i).Settled where
  enabled := Enabled.step
  released := hlegal
  calm := by
    intro _
    rw [rstRequested_step_of_released h.released]
    cases hrst : t.rstGlobal with
    | true => rfl
    | false => rw [h.calm hrst, Bool.and_false]

/-- No reset comes in a settled session. -/
theorem Settled.low (h : t.Settled) (hlow : t.rstGlobal = false) : (t.step i).rstGlobal = false := by
  rw [rstGlobal_step (h.enabled hlow), h.calm hlow, Bool.false_and]

/-- A settled session has no reset. -/
theorem Settled.notAgain (h : t.Settled) : t.NotAgain :=
  Clocked.Machine.always_of_invariant h (fun _ _ hs hlegal => hs.step hlegal) fun _ _ hs _ hlow => hs.low hlow

/-- While the reset is asserted a released session is settled. -/
theorem settled_of_rstGlobal (hreleased : t.regs.userRst = false) (hrst : t.rstGlobal = true) : t.Settled :=
  ⟨fun hlow => by simp [hrst] at hlow, hreleased, fun hlow => by simp [hrst] at hlow⟩

/-- A cycle in which the transfers end. -/
def draining : ResetCycle := ⟨none, false, true, false, true, true⟩

/-- Two such cycles clear the busy flags. -/
theorem busy_of_drained (t : ResetCore) (hlow : t.rstGlobal = false) (hnext : (t.step draining).rstGlobal = false) :
    ((t.step draining).step draining).busy = false := by
  have hfirst : (t.step draining).flags = t.flags.step t.rstGlobal draining.events := rfl
  have hsecond : ((t.step draining).step draining).flags =
      (t.step draining).flags.step (t.step draining).rstGlobal draining.events := rfl
  rw [busy, hsecond, hnext, hfirst, hlow]
  rfl

/-- A request that waits is served when the transfers end. -/
theorem Waiting.not_notAgain (h : t.Waiting) (henabled : t.Enabled) (hreleased : t.regs.userRst = false) :
    ¬ t.NotAgain := by
  intro hnot
  obtain ⟨hrequested, hlow⟩ := h
  -- as long as the reset stays low the request goes on waiting
  have hkeep (s : ResetCore) (hs : s.regs.userRst = false) (hreq : s.handler.rstRequested = true)
      (hrst : s.rstGlobal = false) : (s.step draining).handler.rstRequested = true := by
    rw [rstRequested_step_of_released hs, hrst, hreq]
    rfl
  have hreach := Clocked.Machine.Reachable.refl session t
  have hlow₁ : (t.step draining).rstGlobal = false := hnot _ hreach draining hreleased hlow
  have hreach₁ := hreach.next (i := draining) hreleased
  have hlow₂ : ((t.step draining).step draining).rstGlobal = false := hnot _ hreach₁ draining hreleased hlow₁
  have hreach₂ := hreach₁.next (i := draining) hreleased
  have hlow₃ : (((t.step draining).step draining).step draining).rstGlobal = false :=
    hnot _ hreach₂ draining hreleased hlow₂
  have hrequested₂ := hkeep (t.step draining) hreleased (hkeep t hreleased hrequested hlow) hlow₁
  have henable₂ : ((t.step draining).step draining).handler.enable = true :=
    enable_step (enable_step (henabled hlow))
  rw [rstGlobal_step henable₂, hrequested₂, busy_of_drained t hlow hlow₁] at hlow₃
  exact absurd hlow₃ (by simp)

end Cycle

section Run

variable {t : ResetCore}

/-- Without register writes the registers stay. -/
theorem regs_run {inputs : List ResetCycle} (hquiet : ∀ i ∈ inputs, i.write = none) :
    (machine.run t inputs).regs = t.regs := by
  induction inputs generalizing t with
  | nil => rfl
  | cons i rest ih =>
    have hregs : (t.step i).regs = t.regs := regsNext_of_none (hquiet i List.mem_cons_self)
    rw [Clocked.Machine.run_cons, ih fun j hj => hquiet j (List.mem_cons_of_mem i hj)]
    exact hregs

/-- The handler stays enabled. -/
theorem Sound.run (h : t.Sound) (inputs : List ResetCycle) : (machine.run t inputs).Sound := by
  induction inputs generalizing t with
  | nil => exact h
  | cons i rest ih => exact ih h.step

/-- As long as the core is busy a waiting request waits. -/
theorem Waiting.run (h : t.Waiting) (hsound : t.Sound) (hreleased : t.regs.userRst = false) {inputs : List ResetCycle}
    (hquiet : ∀ i ∈ inputs, i.write = none) (hbusy : t.BusyThroughout inputs) : (machine.run t inputs).Waiting := by
  induction inputs generalizing t with
  | nil => exact h
  | cons i rest ih =>
    have hregs : (t.step i).regs = t.regs := regsNext_of_none (hquiet i List.mem_cons_self)
    refine ih (h.step hsound hreleased hbusy.1) hsound.step ?_ (fun j hj => hquiet j (List.mem_cons_of_mem i hj)) hbusy.2
    change (t.step i).regs.userRst = false
    rw [hregs, hreleased]

/-- A settled session stays settled without register writes. -/
theorem Settled.run (h : t.Settled) {inputs : List ResetCycle} (hquiet : ∀ i ∈ inputs, i.write = none) :
    (machine.run t inputs).Settled := by
  induction inputs generalizing t with
  | nil => exact h
  | cons i rest ih =>
    refine ih (h.step ?_) fun j hj => hquiet j (List.mem_cons_of_mem i hj)
    rw [regsNext_of_none (hquiet i List.mem_cons_self), h.released]

/-- A cycle in which the core is not busy settles a released session for good. -/
theorem Sound.settled_run (hsound : t.Sound) (hreleased : t.regs.userRst = false) {inputs : List ResetCycle}
    (hquiet : ∀ i ∈ inputs, i.write = none) (hidle : ¬ t.BusyThroughout inputs) : (machine.run t inputs).Settled := by
  induction inputs generalizing t with
  | nil => exact absurd trivial hidle
  | cons i rest ih =>
    have hregs : (t.step i).regs = t.regs := regsNext_of_none (hquiet i List.mem_cons_self)
    have hnext : (t.step i).regs.userRst = false := by rw [hregs, hreleased]
    have hrest : ∀ j ∈ rest, j.write = none := fun j hj => hquiet j (List.mem_cons_of_mem i hj)
    by_cases hbusy : t.busy = true
    · exact ih hsound.step hnext hrest fun hthroughout => hidle ⟨hbusy, hthroughout⟩
    · rw [Bool.not_eq_true] at hbusy
      refine Settled.run (t := t.step i) ?_ hrest
      cases hrequested : t.handler.rstRequested with
      | true =>
        refine settled_of_rstGlobal hnext ?_
        rw [hsound.rstGlobal_step_of_requested hrequested, hbusy, Bool.not_false]
      | false => exact Settled.step ⟨hsound.enabled, hreleased, fun _ => hrequested⟩ hnext

/-- The writes keep the reset requested. -/
def Keeping (inputs : List ResetCycle) : Prop :=
  ∀ w ∈ writesOf inputs, w.1 = RegAddr.res → w.2.getLsbD 0 = true

/-- One such write. -/
theorem userRst_regsNext {i : ResetCycle} (h : t.regs.userRst = true)
    (hkeep : ∀ w, i.write = some w → w.1 = RegAddr.res → w.2.getLsbD 0 = true) : (t.regsNext i).userRst = true := by
  rw [regsNext]
  split
  · rename_i reg value hwrite
    by_cases hreg : reg = RegAddr.res
    · rw [hreg]
      exact hkeep _ hwrite hreg
    · rw [t.regs.userRst_write_of_ne hreg, h]
  · exact h

/-- A request that is held is latched. -/
theorem requested_run {inputs : List ResetCycle} (h : t.regs.userRst = true)
    (hrequested : t.handler.rstRequested = true ∨ inputs ≠ []) (hkeep : Keeping inputs) :
    (machine.run t inputs).regs.userRst = true ∧ (machine.run t inputs).handler.rstRequested = true := by
  induction inputs generalizing t with
  | nil => exact ⟨h, hrequested.resolve_right fun hne => hne rfl⟩
  | cons i rest ih =>
    have hwrite : ∀ w, i.write = some w → w ∈ writesOf (i :: rest) := fun w hw =>
      List.mem_filterMap.mpr ⟨i, List.mem_cons_self, hw⟩
    have hnext := userRst_regsNext h fun w hw => hkeep w (hwrite w hw)
    refine ih hnext (Or.inl (rstRequested_step h)) fun w hw => ?_
    obtain ⟨j, hj, hjw⟩ := List.mem_filterMap.mp hw
    exact hkeep w (List.mem_filterMap.mpr ⟨j, List.mem_cons_of_mem i hj, hjw⟩)

/-- When a call that holds the request is about to release it, the request is latched. -/
theorem requested_of_holds {before : List ResetCycle} {release : ResetCycle}
    (hrelease : release.write = some (RegAddr.res, 0)) (h : Holds (writesOf (before ++ [release]))) :
    (machine.run t before).regs.userRst = true ∧ (machine.run t before).handler.rstRequested = true := by
  obtain ⟨body, hwrites, hbody, hkeep⟩ := h.frame
  have hlast : writesOf [release] = [(RegAddr.res, 0)] := by simp [writesOf, hrelease]
  have hbefore : writesOf before = (RegAddr.res, 1) :: body := by
    rw [writesOf, List.filterMap_append] at hwrites
    change _ ++ writesOf [release] = _ at hwrites
    rw [hlast] at hwrites
    exact List.append_cancel_right hwrites
  obtain ⟨first, i, rest, rfl, -, hi, hrest⟩ := List.filterMap_eq_cons_iff.mp hbefore
  rw [Clocked.Machine.run_append, Clocked.Machine.run_cons]
  have hheld : ((machine.run t first).regsNext i).userRst = true := by
    rw [regsNext, hi]
    rfl
  refine requested_run (t := machine.step (machine.run t first) i) hheld (Or.inr ?_) ?_
  · rintro rfl
    exact hbody hrest.symm
  · intro w hw
    rw [writesOf, hrest] at hw
    exact hkeep w hw

/-- A request that is latched when it is released. -/
theorem Sound.notAgain_released (hsound : t.Sound) (hheld : t.regs.userRst = true)
    (hrequested : t.handler.rstRequested = true) {release : ResetCycle} {after : List ResetCycle}
    (hrelease : release.write = some (RegAddr.res, 0)) (hquiet : ∀ i ∈ after, i.write = none) :
    (machine.run t (release :: after)).NotAgain ↔ ¬ t.BusyThroughout (release :: after) := by
  have hreleased : (t.step release).regs.userRst = false := by
    change (t.regsNext release).userRst = false
    rw [regsNext, hrelease]
    rfl
  have hrst : (t.step release).rstGlobal = !t.busy := hsound.rstGlobal_step_of_requested hrequested
  rw [Clocked.Machine.run_cons]
  constructor
  · intro hnot hbusy
    have hwaiting : (t.step release).Waiting := by
      refine ⟨rstRequested_step hheld, ?_⟩
      rw [hrst, hbusy.1, Bool.not_true]
    have hreturn := hwaiting.run hsound.step hreleased hquiet hbusy.2
    refine hreturn.not_notAgain (hsound.step.run after).enabled ?_ hnot
    rw [regs_run hquiet, hreleased]
  · intro hidle
    refine Settled.notAgain ?_
    by_cases hbusy : t.busy = true
    · exact hsound.step.settled_run hreleased hquiet fun hthroughout => hidle ⟨hbusy, hthroughout⟩
    · refine (settled_of_rstGlobal hreleased ?_).run hquiet
      rw [hrst, Bool.not_eq_true _ |>.mp hbusy, Bool.not_false]

/-- Whatever happened before a call that opens the device, and whatever is transferred meanwhile: no reset comes after
its return, exactly if the core is not busy in some cycle from the one that releases the request to the return. -/
theorem notAgain_iff (hreach : machine.Reachable start t) {before after : List ResetCycle} {release : ResetCycle}
    (hopens : Opens (writesOf (before ++ [release]))) (hrelease : release.write = some (RegAddr.res, 0))
    (hquiet : ∀ i ∈ after, i.write = none) :
    (machine.run t (before ++ release :: after)).NotAgain ↔
      ¬ (machine.run t before).BusyThroughout (release :: after) := by
  obtain ⟨hheld, hrequested⟩ := requested_of_holds (t := t) hrelease hopens.holds
  rw [Clocked.Machine.run_append]
  exact ((sound_of_reachable hreach).run before).notAgain_released hheld hrequested hrelease hquiet

/-- A cycle without a transfer. -/
def Still (i : ResetCycle) : Prop := i.events = ⟨false, false, false, false, false⟩

/-- `udp_core_ndo_open` while nothing is transferred. -/
theorem exists_opening : ∃ before release, Opens (writesOf (before ++ [release])) ∧
    release.write = some (RegAddr.res, 0) ∧ ∀ i ∈ before, Still i := by
  let e : Kernel.Answer :=
    ⟨⟨fun _ => ⟨false, false, true, 0, 0⟩, 0, 0, true, false, false, fun _ => 0⟩, some 0, 0⟩
  obtain ⟨cmds, htrace⟩ := Program.exists_trace (fun (s : Kernel.Host) c => s.perform e c)
    (show ∀ s c, Kernel.Host.Responds s c _ _ from fun s c => ⟨e, rfl⟩) Kernel.ndoOpen Kernel.Host.probed
  have hresult : (Kernel.ndoOpen.eval (fun (s : Kernel.Host) c => s.perform e c) .probed).1 = 0 := by
    simp [Kernel.ndoOpen, Kernel.Host.perform, e]
  rw [hresult] at htrace
  obtain ⟨body, hwrites, -, -⟩ := (holds_ndoOpen htrace).frame
  let still (w : RegAddr × BitVec 32) : ResetCycle := ⟨some w, ⟨false, false, false, false, false⟩⟩
  have hback (ws : List (RegAddr × BitVec 32)) : writesOf (ws.map still) = ws := by
    rw [writesOf, List.filterMap_map]
    exact List.filterMap_some
  refine ⟨((RegAddr.res, 1) :: body).map still, still (RegAddr.res, 0), ?_, rfl, ?_⟩
  · have hcycles : ((RegAddr.res, 1) :: body).map still ++ [still (RegAddr.res, 0)] =
        (cmds.filterMap Kernel.Cmd.write).map still := by rw [hwrites, List.map_append, List.map_singleton]
    rw [hcycles, hback]
    exact .ndoOpen htrace
  · intro i hi
    obtain ⟨w, -, rfl⟩ := List.mem_map.mp hi
    rfl

/-- Without transfers the core is never busy. -/
theorem flags_run_of_still (h : t.flags = .reset) {inputs : List ResetCycle} (hstill : ∀ i ∈ inputs, Still i) :
    (machine.run t inputs).flags = .reset := by
  induction inputs generalizing t with
  | nil => exact h
  | cons i rest ih =>
    refine ih ?_ fun j hj => hstill j (List.mem_cons_of_mem i hj)
    have hflags : (t.step i).flags = t.flags.step t.rstGlobal i.events := rfl
    change (t.step i).flags = .reset
    rw [hflags, h, hstill i List.mem_cons_self]
    cases t.rstGlobal <;> rfl

/-- Opened after the power-on reset, without transfers, the device is not reset after the call. -/
theorem notAgain_opened : ∃ before release, Opens (writesOf (before ++ [release])) ∧
    (machine.run start (before ++ [release])).NotAgain := by
  obtain ⟨before, release, hopens, hrelease, hstill⟩ := exists_opening
  refine ⟨before, release, hopens, (notAgain_iff (Clocked.Machine.Reachable.refl _ _) hopens hrelease (by simp)).mpr ?_⟩
  intro hthroughout
  have hbusy : (machine.run start before).busy = true := hthroughout.1
  rw [busy, flags_run_of_still rfl hstill] at hbusy
  exact absurd hbusy (by decide)

/-- A frame is being written. -/
structure Receiving (t : ResetCore) : Prop where
  low : t.rstGlobal = false
  enabled : t.handler.enable = true
  rxBusy : t.flags.rxBusy = true

/-- Without transfers the rest of the frame does not come and the reset is not granted. -/
theorem Receiving.run (h : t.Receiving) {inputs : List ResetCycle} (hstill : ∀ i ∈ inputs, Still i) :
    (machine.run t inputs).Receiving := by
  induction inputs generalizing t with
  | nil => exact h
  | cons i rest ih =>
    refine ih ⟨?_, enable_step h.enabled, ?_⟩ fun j hj => hstill j (List.mem_cons_of_mem i hj)
    · change (t.step i).rstGlobal = false
      rw [rstGlobal_step h.enabled, busy, BusyFlags.busy, h.rxBusy, Bool.true_or, Bool.not_true, Bool.and_false]
    · have hflags : (t.step i).flags = t.flags.step t.rstGlobal i.events := rfl
      change (t.step i).flags.rxBusy = true
      rw [hflags, h.low, hstill i List.mem_cons_self, BusyFlags.step]
      exact h.rxBusy

/-- The device is configured once after the power-on reset, and the first beat of a frame is taken. -/
def interrupted : List ResetCycle :=
  [⟨some (RegAddr.res, 1), ⟨false, false, false, false, false⟩⟩, ⟨some (RegAddr.res, 0), ⟨false, false, false, false, false⟩⟩] ++
  List.replicate 4 ⟨none, ⟨false, false, false, false, false⟩⟩ ++ [⟨none, ⟨true, false, false, false, false⟩⟩]

/-- A frame whose last beat does not come during the call postpones the reset into the session. -/
theorem not_notAgain : ¬ ∀ t, machine.Reachable start t → ∀ before release after,
    Opens (writesOf (before ++ [release])) → release.write = some (RegAddr.res, 0) → (∀ i ∈ after, i.write = none) →
    (machine.run t (before ++ release :: after)).NotAgain := by
  intro hnever
  obtain ⟨before, release, hopens, hrelease, hstill⟩ := exists_opening
  have hreach : machine.Reachable start (machine.run start interrupted) := ⟨interrupted, legal_run _ _, rfl⟩
  have hreceiving : (machine.run start interrupted).Receiving := ⟨by decide, by decide, by decide⟩
  have hnot := hnever _ hreach before release [] hopens hrelease (by simp)
  obtain ⟨hheld, hrequested⟩ := requested_of_holds (t := machine.run start interrupted) hrelease hopens.holds
  rw [Clocked.Machine.run_append, ((sound_of_reachable hreach).run before).notAgain_released hheld hrequested hrelease
    (by simp)] at hnot
  refine hnot ⟨?_, trivial⟩
  change busy _ = true
  rw [busy, BusyFlags.busy, (hreceiving.run hstill).rxBusy, Bool.true_or]

end Run

end ResetCore

end UdpIpCore
