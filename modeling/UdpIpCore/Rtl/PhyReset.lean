import UdpIpCore.Rtl.MdioMaster

/-!
# The reset of the PHY

`fpga_1g` waits after its own reset and then sends the PHY four register writes through the MDIO
master, which reset it. Each of them is offered until it is accepted.
-/

namespace UdpIpCore

/-- The registers that drive the commands, and the master. -/
structure PhyReset where
  delay : ℕ
  state : ℕ
  regAddr : BitVec 5
  data : BitVec 16
  cmdValid : Bool
  mdio : MdioRun

namespace PhyReset

/-- After reset. -/
def start : PhyReset := ⟨0xFFFFF, 0, 0, 0, false, .start⟩

/-- The command that is offered. -/
def cmd (s : PhyReset) : MdioCommand := ⟨3, s.regAddr, s.data, 0b01⟩

/-- The inputs of the master. -/
def input (s : PhyReset) (mdioI : Bool) : MdioInput := ⟨s.cmd, s.cmdValid, true, mdioI, 3⟩

/-- A write to a register is offered, and the state is the next one. -/
def offer (s : PhyReset) (regAddr : BitVec 5) (data : BitVec 16) : PhyReset :=
  { s with regAddr := regAddr, data := data, cmdValid := true, state := s.state + 1 }

/-- The registers after a cycle. -/
def next (s : PhyReset) : PhyReset :=
  let t := { s with cmdValid := s.cmdValid && !s.mdio.master.cmdReady }
  if 0 < s.delay then { t with delay := s.delay - 1 }
  else if !s.mdio.master.cmdReady then t
  else
    let t := { s with cmdValid := false }
    match s.state with
    | 0 => t.offer 0x0D 0x001F
    | 1 => t.offer 0x0E 0x001F
    | 2 => t.offer 0x0D 0x401F
    | 3 => t.offer 0x0E 0x8000
    | _ => t

/-- One clock edge. -/
def step (s : PhyReset) (mdioI : Bool) : PhyReset := { s.next with mdio := s.mdio.step (s.input mdioI) }

/-- Whatever the PHY answers. -/
def machine : Clocked.Machine PhyReset Bool := ⟨step, fun _ _ => True⟩

/-- The writes that reset the PHY: the address of its control register, and then the value, through `REGCR` and `ADDAR`. -/
def commands : List MdioCommand :=
  [⟨3, 0x0D, 0x001F, 0b01⟩, ⟨3, 0x0E, 0x001F, 0b01⟩, ⟨3, 0x0D, 0x401F, 0b01⟩, ⟨3, 0x0E, 0x8000, 0b01⟩]

/-- The command that is offered, if there is one. -/
def offered (s : PhyReset) : List MdioCommand := if s.cmdValid then [s.cmd] else []

variable {s : PhyReset} {mdioI : Bool}

/-- Before the commands. -/
theorem next_delay (hdelay : 0 < s.delay) :
    s.next = { s with cmdValid := s.cmdValid && !s.mdio.master.cmdReady, delay := s.delay - 1 } := by
  rw [next, if_pos hdelay]

/-- While the master is not ready. -/
theorem next_wait (hdelay : s.delay = 0) (hready : s.mdio.master.cmdReady = false) : s.next = s := by
  rw [next, if_neg (by omega), hready]
  simp

/-- A command is offered in place of the one that is accepted. -/
theorem next_offer (hdelay : s.delay = 0) (hready : s.mdio.master.cmdReady = true) (hstate : s.state < 4) :
    s.next.delay = 0 ∧ s.next.state = s.state + 1 ∧ commands[s.state]? = some s.next.cmd ∧ s.next.cmdValid = true := by
  rw [next, if_neg (by omega), hready]
  match h : s.state, hstate with
  | 0, _ | 1, _ | 2, _ | 3, _ => exact ⟨hdelay, by simp [offer], rfl, rfl⟩

/-- After the last of them. -/
theorem next_last (hdelay : s.delay = 0) (hready : s.mdio.master.cmdReady = true) (hstate : s.state = 4) :
    s.next = { s with cmdValid := false } := by
  rw [next, if_neg (by omega), hready, hstate]
  simp

/-- The commands that were accepted, and the one that is offered, are those of the states gone by. -/
structure Inv (s : PhyReset) : Prop where
  state : s.state ≤ 4
  commands : s.mdio.frames.map MdioFrame.cmd ++ s.offered = commands.take s.state
  delayed : 0 < s.delay → s.cmdValid = false
  timed : s.mdio.Timed 3

theorem inv_start : start.Inv := ⟨by decide, rfl, fun _ => rfl, ⟨MdioRun.inv_start, by decide⟩⟩

/-- The prescaler of the board. -/
theorem prescale_le : (s.input mdioI).prescale.toNat ≤ 3 := Nat.le_refl 3

/-- The master goes on. -/
theorem timed_step (h : s.mdio.Timed 3) : (s.mdio.step (s.input mdioI)).Timed 3 := by
  rcases h.inv.phase with ⟨f, n, hlast, hserving⟩ | ⟨hresting, hcomplete⟩
  · exact (h.step_serving hlast hserving prescale_le).1
  · exact h.step_resting hresting hcomplete prescale_le

/-- The accepted commands after a cycle. -/
theorem cmds_step (s : PhyReset) (mdioI : Bool) : (s.step mdioI).mdio.frames.map MdioFrame.cmd =
    s.mdio.frames.map MdioFrame.cmd ++ if s.mdio.master.cmdReady && s.cmdValid then [s.cmd] else [] :=
  MdioRun.cmds_step s.mdio (s.input mdioI)

/-- One cycle. -/
theorem Inv.step (h : s.Inv) (mdioI : Bool) : (s.step mdioI).Inv := by
  have hcommands := h.commands
  have hcmds := cmds_step s mdioI
  by_cases hdelay : 0 < s.delay
  · have hvalid := h.delayed hdelay
    have hoffered : (s.step mdioI).offered = [] := by
      rw [offered, PhyReset.step, next_delay hdelay]
      simp [hvalid]
    rw [offered, hvalid] at hcommands
    refine ⟨?_, ?_, fun _ => ?_, timed_step h.timed⟩
    · rw [PhyReset.step, next_delay hdelay]
      exact h.state
    · rw [hcmds, hoffered, hvalid, Bool.and_false, PhyReset.step, next_delay hdelay, List.append_nil]
      exact hcommands
    · rw [PhyReset.step, next_delay hdelay]
      simp [hvalid]
  · have hzero : s.delay = 0 := Nat.eq_zero_of_not_pos hdelay
    cases hready : s.mdio.master.cmdReady with
    | false =>
      have hnext := next_wait hzero hready
      refine ⟨?_, ?_, fun hpos => ?_, timed_step h.timed⟩
      · rw [PhyReset.step, hnext]
        exact h.state
      · rw [hcmds, hready, Bool.false_and, PhyReset.step, hnext, ← hcommands]
        exact congrArg₂ _ (List.append_nil _) rfl
      · rw [PhyReset.step, hnext] at hpos
        exact absurd hpos hdelay
    | true =>
      rw [hready, Bool.true_and] at hcmds
      by_cases hstate : s.state < 4
      · obtain ⟨hdelay', hstate', hcmd, hvalid⟩ := next_offer hzero hready hstate
        have hoffered : (s.step mdioI).offered = [s.next.cmd] := by
          rw [offered, PhyReset.step]
          exact if_pos hvalid
        refine ⟨?_, ?_, fun hpos => ?_, timed_step h.timed⟩
        · show s.next.state ≤ 4
          omega
        · show _ ++ _ = List.take s.next.state PhyReset.commands
          rw [hcmds, hoffered, hstate', List.take_add_one, hcmd, ← hcommands]
          rfl
        · exact absurd hdelay' (Nat.ne_of_gt hpos)
      · have hlast : s.state = 4 := by
          have hle := h.state
          omega
        have hnext := next_last hzero hready hlast
        refine ⟨?_, ?_, fun hpos => ?_, timed_step h.timed⟩
        · rw [PhyReset.step, hnext]
          exact h.state
        · rw [hcmds, PhyReset.step, hnext, ← hcommands]
          exact List.append_nil _
        · rw [PhyReset.step, hnext] at hpos
          exact absurd hpos hdelay

/-- A command is about to be offered. -/
structure Stage (k : ℕ) (s : PhyReset) : Prop where
  inv : s.Inv
  delay : s.delay = 0
  state : s.state = k

/-- The delay comes to an end. -/
theorem stage_zero : machine.LeadsTo 0xFFFFF (fun s => (s.Inv ∧ s.state = 0) ∧ s.delay ≤ 0xFFFFF) (Stage 0) := by
  refine Clocked.Machine.LeadsTo.of_measure delay ?_ ?_
  · intro s hs hzero
    exact ⟨hs.1, hzero, hs.2⟩
  · rintro s i ⟨hinv, hstate⟩ hnot -
    have hdelay : 0 < s.delay := Nat.pos_of_ne_zero fun hzero => hnot ⟨hinv, hzero, hstate⟩
    refine ⟨⟨hinv.step i, ?_⟩, ?_⟩
    · show s.next.state = 0
      rw [next_delay hdelay]
      exact hstate
    · show s.next.delay < s.delay
      rw [next_delay hdelay]
      exact Nat.sub_one_lt_of_lt hdelay

/-- The master becomes ready for the next command. -/
theorem ready_of_stage (k : ℕ) :
    machine.LeadsTo 526 (Stage k) fun s => s.mdio.master.cmdReady = true ∧ s.Stage k := by
  have hready := Clocked.Machine.LeadsTo.project (m := machine) (n := MdioRun.prompt 3) mdio input (fun _ _ => rfl)
    (fun _ _ _ => ⟨trivial, rfl, prescale_le⟩) (MdioRun.ready_of_timed 3)
  refine (hready.until (J := Stage k) ?_).mono (Nat.le_refl _) (fun s hs => ⟨hs.inv.timed, hs⟩) fun _ h => h
  intro s i hs hnot _
  have hnext := next_wait hs.delay (Bool.eq_false_iff.mpr hnot)
  refine ⟨hs.inv.step i, ?_, ?_⟩
  · show s.next.delay = 0
    rw [hnext]
    exact hs.delay
  · show s.next.state = k
    rw [hnext]
    exact hs.state

/-- It is offered. -/
theorem stage_succ {k : ℕ} (hk : k < 4) : machine.LeadsTo 527 (Stage k) (Stage (k + 1)) := by
  refine (ready_of_stage k).trans (Clocked.Machine.LeadsTo.of_step ?_)
  rintro s i ⟨hready, hs⟩ -
  have hstate := hs.state
  obtain ⟨hdelay, hnext, -, -⟩ := next_offer hs.delay hready (hstate ▸ hk)
  exact ⟨hs.inv.step i, hdelay, hnext.trans (congrArg Nat.succ hstate)⟩

/-- So are all of them. -/
theorem stage_of_le {k : ℕ} (hk : k ≤ 4) : machine.LeadsTo (527 * k) (Stage 0) (Stage k) := by
  induction k with
  | zero => exact .of_imp fun _ h => h
  | succ k ih => exact (ih (Nat.le_of_succ_le hk)).trans (stage_succ hk)

/-- The last of them was accepted. -/
structure Accepted (s : PhyReset) : Prop extends Stage 4 s where
  cmdValid : s.cmdValid = false

theorem Accepted.step (h : s.Accepted) (mdioI : Bool) : (s.step mdioI).Accepted := by
  have hnext : s.next = s := by
    cases hready : s.mdio.master.cmdReady with
    | false => exact next_wait h.delay hready
    | true =>
      rw [next_last h.delay hready h.state, ← h.cmdValid]
  refine ⟨⟨h.inv.step mdioI, ?_, ?_⟩, ?_⟩
  · show s.next.delay = 0
    rw [hnext]
    exact h.delay
  · show s.next.state = 4
    rw [hnext]
    exact h.state
  · show s.next.cmdValid = false
    rw [hnext]
    exact h.cmdValid

/-- It is, after the last state. -/
theorem accepted_of_stage : machine.LeadsTo 527 (Stage 4) Accepted := by
  refine (ready_of_stage 4).trans (Clocked.Machine.LeadsTo.of_step ?_)
  rintro s i ⟨hready, hs⟩ -
  have hnext := next_last hs.delay hready hs.state
  refine ⟨⟨hs.inv.step i, ?_, ?_⟩, ?_⟩
  · show s.next.delay = 0
    rw [hnext]
    exact hs.delay
  · show s.next.state = 4
    rw [hnext]
    exact hs.state
  · show s.next.cmdValid = false
    rw [hnext]

/-- All of them were sent, and the line is left alone. -/
structure Sent (s : PhyReset) : Prop extends s.Accepted where
  resting : s.mdio.master.Resting

theorem Sent.step (h : s.Sent) (mdioI : Bool) : (s.step mdioI).Sent := by
  refine ⟨h.toAccepted.step mdioI, h.resting.stay ?_⟩
  rw [MdioMaster.accepts, input, h.cmdValid, Bool.and_false]

/-- They are, after the last one was accepted. -/
theorem sent_of_accepted : machine.LeadsTo 524 Accepted Sent := by
  have hrests := Clocked.Machine.LeadsTo.project (m := machine) (n := MdioRun.prompt 3) mdio input (fun _ _ => rfl)
    (fun _ _ _ => ⟨trivial, rfl, prescale_le⟩) (MdioRun.rests_within 3)
  refine (hrests.until (J := Accepted) fun s i hs _ _ => hs.step i).mono (Nat.le_refl _)
    (fun s hs => ⟨hs.inv.timed, hs⟩) fun s h => ⟨h.2, h.1.2⟩

/-- From the reset on. -/
theorem sent_within : machine.LeadsTo (0xFFFFF + 3159) (· = start) Sent := by
  have hsent := stage_zero.trans ((stage_of_le (Nat.le_refl 4)).trans (accepted_of_stage.trans sent_of_accepted))
  refine hsent.mono (by decide) ?_ fun _ h => h
  rintro _ rfl
  exact ⟨⟨inv_start, rfl⟩, Nat.le_refl _⟩

/-- What the line has carried then. -/
theorem Sent.driven (h : s.Sent) : s.mdio.frames.flatMap MdioFrame.driven = commands.flatMap MdioCommand.edges := by
  have hcommands := h.inv.commands
  rw [offered, h.cmdValid, h.state] at hcommands
  have hall : s.mdio.frames.map MdioFrame.cmd = commands := (List.append_nil _).symm.trans hcommands
  have hcomplete : ∀ f ∈ s.mdio.frames, f.driven = f.cmd.edges := by
    intro f hf
    rcases List.mem_append.mp hf with hf | hf
    · exact (h.inv.timed.inv.past f hf).driven
    · rcases h.inv.timed.inv.phase with ⟨f', n, hlast, hserving⟩ | ⟨-, hcomplete⟩
      · exact absurd (h.resting.mdcO.symm.trans (hserving.mdcO.trans (congrArg not h.resting.cycle))) Bool.false_ne_true
      · exact (hcomplete f (Option.mem_toList.mp hf)).driven
  rw [← hall, List.flatMap_map]
  rw [List.flatMap_def, List.flatMap_def]
  exact congrArg List.flatten (List.map_congr_left hcomplete)

/-- The PHY is sent no other commands than those that reset it, in their order; about a million cycles after the reset it was
sent them all, and nothing else ever follows. -/
theorem resets_phy (inputs : List Bool) :
    (machine.run start inputs).mdio.frames.map MdioFrame.cmd <+: commands ∧
      (0xFFFFF + 3159 ≤ inputs.length →
        (machine.run start inputs).mdio.frames.flatMap MdioFrame.driven = commands.flatMap MdioCommand.edges) := by
  have hlegal := machine.legal_of_forall (fun _ _ => trivial) start inputs
  have hinv : (machine.run start inputs).Inv :=
    Clocked.Machine.invariant (m := machine) inv_start (fun s i hs _ => hs.step i) ⟨inputs, hlegal, rfl⟩
  refine ⟨?_, fun hlong => ?_⟩
  · have hfirst := List.prefix_append ((machine.run start inputs).mdio.frames.map MdioFrame.cmd)
      (machine.run start inputs).offered
    rw [hinv.commands] at hfirst
    exact hfirst.trans (List.take_prefix _ _)
  · exact (sent_within.settles (fun s i hs _ => hs.step i) rfl hlegal hlong).driven

end PhyReset

end UdpIpCore
