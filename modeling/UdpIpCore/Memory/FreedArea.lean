import UdpIpCore.Kernel.AreaCalls
import UdpIpCore.Kernel.SettingOrder
import UdpIpCore.Reset.CutTransfers

/-!
# Transfers into a freed area

`udp_core_ndo_stop` frees the DMA area right after it has requested the reset, and disables NAPI with
its last step. The PL, the steps of the call and the steps of a poll that is under way may come in any
order, so a burst or a poll that was under way at the free goes on in memory that is free.

Once the reset has been in force, the DMA engines stay away from the area: they are offered nothing
before the reset ends, and only slots from address 0 on after it.
-/

namespace UdpIpCore

open Interaction Kernel

/-- An address of the area that starts at `base`. -/
def InArea (base a : BitVec 32) : Prop := base.toNat ≤ a.toNat ∧ a.toNat < base.toNat + buffersTotalSize

instance (base a : BitVec 32) : Decidable (InArea base a) := inferInstanceAs (Decidable (_ ∧ _))

/-- The controller with its DMA engines, the driver and the receive poll. -/
structure AreaRun where
  pl : CutRun
  /-- The write bursts whose response was taken. -/
  answered : ℕ
  params : DriverParams
  /-- The area in the driver data. -/
  area : Option (BitVec 32)
  running : Bool
  /-- The area that was freed, until the address of a new one is published. -/
  freed : Option (BitVec 32)
  /-- The reset has been in force since the area was freed. -/
  shut : Bool
  /-- The reset was in force in the cycle before. -/
  held : Bool
  /-- The rest of the call in progress. -/
  progress : Option (Code Unit)
  /-- Polls may be scheduled, from `napi_enable` to `napi_disable`. -/
  napi : Bool
  /-- The rest of the poll in progress. -/
  poll : Option (NetCode (Option ℕ))

/-- What a step of the poll finds. -/
structure PollAnswer where
  status : StatusInputs
  byte : BitVec 8
  /-- A socket buffer is allocated. -/
  skb : Bool

/-- What the software does in one cycle. -/
inductive AreaEvent
  | idle
  /-- The kernel opens or stops the interface. -/
  | invoke (c : Call)
  /-- The next step of the call is answered. -/
  | answer (e : Answer)
  /-- NAPI is enabled or disabled, and the call returns. -/
  | finish
  /-- The kernel starts a poll. -/
  | schedule (budget : ℕ) (ports : List BufferIdx) (passes : ℕ)
  /-- The next step of the poll is answered. -/
  | poll (e : PollAnswer)
  /-- The poll returns. -/
  | complete

/-- One cycle; the register write of the PL is that of the software. -/
structure AreaCycle where
  event : AreaEvent
  pl : CutCycle

namespace AreaRun

/-- The driver's side. -/
def host (t : AreaRun) : Host := ⟨t.pl.core.regs, t.params, t.area, t.running⟩

/-- What the calls decide about the area. -/
def view (t : AreaRun) : AreaView := ⟨t.pl.core.regs.userRst, t.pl.core.regs.sharedMem, t.area, t.freed⟩

/-- The registers show the rings as they are. -/
def seen (t : AreaRun) (status : StatusInputs) : StatusInputs where
  bufrx := fun idx => ⟨(status.bufrx idx).pushed, (t.pl.rxRings idx).full, (t.pl.rxRings idx).empty,
    BitVec.ofNat 5 (t.pl.rxRings idx).tailIndex, BitVec.ofNat 5 (t.pl.rxRings idx).headIndex⟩
  buftxHead := BitVec.ofNat 5 t.pl.txRing.headIndex
  buftxTail := BitVec.ofNat 5 t.pl.txRing.tailIndex
  buftxEmpty := t.pl.txRing.empty
  buftxFull := t.pl.txRing.full
  buftxPopped := status.buftxPopped
  control := status.control

/-- A step of the call. -/
def perform (t : AreaRun) (e : Answer) (c : Cmd) : c.Response × Host :=
  t.host.perform { e with status := t.seen e.status } c

/-- What a step of the poll returns. -/
def pollResponse (t : AreaRun) (e : PollAnswer) : (c : NetCmd) → c.Response
  | .access (.readReg reg) => t.pl.core.regs.read (t.seen e.status) reg
  | .access (.load _) => e.byte
  | .access (.writeReg _ _) | .access (.store _ _) => ()
  | .netdevAllocSkb _ => e.skb
  | .napiGroReceive _ _ | .rxPackets _ | .napiComplete | .txPackets _ | .txDropped | .kfreeSkb => ()

/-- The register write of a cycle. -/
def write (t : AreaRun) (event : AreaEvent) : Option (RegAddr × BitVec 32) :=
  match event, t.progress, t.poll with
  | .answer _, some (.perform c _), _ => c.write
  | .poll _, _, some (.perform c _) => c.write
  | _, _, _ => none

/-- What the PL sees of a cycle. -/
def cycle (t : AreaRun) (i : AreaCycle) : CutCycle := { i.pl with write := t.write i.event }

/-- The step of the call frees the area. -/
def frees (t : AreaRun) (event : AreaEvent) : Bool :=
  match event, t.progress with
  | .answer _, some (.perform .freeMemory _) => true
  | _, _ => false

/-- The host after a cycle. -/
def hostNext (t : AreaRun) (event : AreaEvent) : Host :=
  match event, t.progress with
  | .answer e, some (.perform c _) => (t.perform e c).2
  | _, _ => t.host

/-- The freed area after a cycle. -/
def freedNext (t : AreaRun) (event : AreaEvent) : Option (BitVec 32) :=
  match event, t.progress with
  | .answer e, some (.perform c _) => (t.view.next c (t.perform e c).1).freed
  | _, _ => t.freed

/-- The call in progress after a cycle. -/
def progressNext (kstrtoul : List Char → Option ℕ) (t : AreaRun) (event : AreaEvent) : Option (Code Unit) :=
  match event, t.progress with
  | .invoke c, none => some (c.code kstrtoul)
  | .answer e, some (.perform c next) => some (next (t.perform e c).1)
  | .finish, some (.done _) => none
  | _, p => p

/-- The poll in progress after a cycle. -/
def pollNext (t : AreaRun) (event : AreaEvent) : Option (NetCode (Option ℕ)) :=
  match event, t.poll with
  | .schedule budget ports passes, none => some (napiPoll budget ports passes)
  | .poll e, some (.perform c next) => some (next (t.pollResponse e c))
  | .complete, some (.done _) => none
  | _, p => p

/-- The reset is up, and goes on. -/
def inForce (t : AreaRun) : Bool :=
  t.pl.core.rstGlobal && t.pl.core.handler.rstRequested && t.pl.core.regs.userRst && !t.pl.core.busy

/-- One clock edge. -/
def step (kstrtoul : List Char → Option ℕ) (t : AreaRun) (i : AreaCycle) : AreaRun where
  pl := t.pl.step (t.cycle i)
  answered := t.answered + (t.pl.wr.engine.decActive i.pl.slave).toNat
  params := (t.hostNext i.event).params
  area := (t.hostNext i.event).area
  running := (t.hostNext i.event).running
  freed := t.freedNext i.event
  shut := if t.frees i.event then false else t.shut || t.inForce
  held := t.inForce
  progress := t.progressNext kstrtoul i.event
  napi := match i.event with | .finish => t.running | _ => t.napi
  poll := t.pollNext i.event

/-- The kernel opens a stopped interface and stops an open one; a poll is scheduled while NAPI is enabled, and
`napi_disable` waits for the one in progress. -/
def Orderly (t : AreaRun) (event : AreaEvent) : Prop :=
  match event, t.progress, t.poll with
  | .idle, _, _ => True
  | .invoke c, none, _ => (c = .ndoOpen ∨ c = .ndoStop) ∧ c.Allowed t.host
  | .answer _, some (.perform _ _), _ => True
  | .finish, some (.done _), poll => t.running = true ∨ poll.isNone = true
  | .schedule _ _ _, _, none => t.napi = true
  | .poll _, _, some (.perform _ _) => True
  | .complete, _, some (.done _) => True
  | _, _, _ => False

/-- An area starts at a slot, and the read data come as they were asked for. -/
structure Legal (t : AreaRun) (i : AreaCycle) : Prop where
  orderly : t.Orderly i.event
  pl : t.pl.Legal (t.cycle i)

/-- Any reception and transmission, any polls, and any openings and stops. -/
def machine (kstrtoul : List Char → Option ℕ) : Clocked.Machine AreaRun AreaCycle where
  step := step kstrtoul
  legal := Legal

/-- Between two calls, with no poll in progress and no area freed. -/
structure Resting (t : AreaRun) : Prop where
  pl : CutRun.machine.Reachable .start t.pl
  progress : t.progress = none
  poll : t.poll = none
  freed : t.freed = none

/-- No burst in the freed area is issued or unfinished, and the poll does not access the area. -/
structure Untouched (t : AreaRun) (i : AreaCycle) : Prop where
  writes : ∀ base, t.freed = some base → ∀ j ∈ t.pl.wr.jobs.drop t.answered, ∀ b ∈ j.bursts, ¬ InArea base b.1
  address : ∀ base, t.freed = some base → t.pl.rd.arvalid = true → ¬ InArea base t.pl.rd.araddr
  reads : ∀ base, t.freed = some base → ∀ a ∈ t.pl.rd.bursts, ¬ InArea base a
  poll : t.freed ≠ none → ∀ e c next, i.event = .poll e → t.poll = some (.perform c next) → ¬ c.InArea

/-- Every descriptor that was accepted and has not finished lies outside the area. -/
structure Clear (t : AreaRun) (base : BitVec 32) : Prop where
  writes : ∀ desc ∈ (t.pl.wr.jobs.map WriteJob.desc).drop t.answered, ¬ InArea base desc.addr
  start : t.pl.rd.axiStart = true → ¬ InArea base t.pl.rd.addr
  address : t.pl.rd.arvalid = true → ¬ InArea base t.pl.rd.araddr
  reads : ∀ a ∈ t.pl.rd.bursts, ¬ InArea base a

/-- No descriptor in the area is accepted in a cycle. -/
structure Refuses (t : AreaRun) (i : AreaCycle) (base : BitVec 32) : Prop where
  write : t.pl.wrAccepts (t.cycle i) = true → ¬ InArea base t.pl.wrCtrl.nextSlotAddr
  read : t.pl.rdAccepts = true → ¬ InArea base t.pl.rdCtrl.nextSlotAddr

/-- The area is freed with no transfer in it under way and no poll amid a packet. Until the reset is in force no
descriptor in it is accepted, nor later if it reaches below the addresses the PL works with then. No poll finds a
packet before the next area is published; while the reset is in force none can. -/
structure Careful (t : AreaRun) (i : AreaCycle) : Prop where
  clear : t.frees i.event = true → ∀ base, t.area = some base → t.Clear base
  idle : t.frees i.event = true → ∀ p, t.poll = some p → NetCode.Idle p
  refuses : ∀ base, t.freedNext i.event = some base →
    t.frees i.event = true ∨ t.shut = false ∨ base.toNat < buffersTotalSize → t.Refuses i base
  finds : t.freed ≠ none → t.held = false → ∀ e c next, i.event = .poll e → t.poll = some (.perform c next) →
    ¬ c.ShowsEmpty (t.pollResponse e c) → NetCode.Idle (next (t.pollResponse e c))

/-- The reset is in force, and no descriptor is offered. -/
structure Held (t : AreaRun) : Prop where
  inForce : t.inForce = true
  wr : t.pl.wrCtrl.valid = false
  rd : t.pl.rdCtrl.valid = false

/-- The PL works with the slots from address 0 on. -/
structure Blank (t : AreaRun) : Prop where
  register : t.pl.core.regs.sharedMem = 0
  base : t.pl.sharedMemBase = 0
  wr : t.pl.wrCtrl.valid = true → t.pl.wrCtrl.nextSlotAddr.toNat < buffersTotalSize
  rd : t.pl.rdCtrl.valid = true → t.pl.rdCtrl.nextSlotAddr.toNat < buffersTotalSize

/-- What holds between any two cycles. -/
structure Inv (t : AreaRun) : Prop where
  slots : t.pl.Slots
  covered : t.view.Covered
  rest : ∀ p, t.progress = some p → ∃ b, p.Safe (Program.keeping AreaView.Responds) AreaView.Covers
    (fun _ q => q.2.Covered) (b, t.view)
  modest : ∀ p, t.poll = some p → p.Within NetCmd.Modest
  clear : ∀ base, t.freed = some base → t.Clear base
  idle : t.freed ≠ none → ∀ p, t.poll = some p → NetCode.Idle p
  shut : t.freed ≠ none → t.shut = true → t.Held ∨ t.Blank
  held : t.freed ≠ none → t.held = true → ∀ idx, (t.pl.rxRings idx).empty = true

section Cycle

variable {t : AreaRun} {i : AreaCycle} {kstrtoul : List Char → Option ℕ} {base : BitVec 32}

/-- The next step of the call is answered. -/
structure Answers (t : AreaRun) (event : AreaEvent) (e : Answer) (c : Cmd) (next : c.Response → Code Unit) : Prop where
  event : event = .answer e
  progress : t.progress = some (.perform c next)

/-- A cycle in which the call takes no step. -/
structure Pauses (kstrtoul : List Char → Option ℕ) (t : AreaRun) (event : AreaEvent) : Prop where
  host : t.hostNext event = t.host
  freed : t.freedNext event = t.freed
  frees : t.frees event = false
  progress : ∀ p, t.progressNext kstrtoul event = some p →
    t.progress = some p ∨ ∃ c, event = .invoke c ∧ t.progress = none ∧ p = c.code kstrtoul
  write : t.write event = none ∨ ∃ e c next, event = .poll e ∧ t.poll = some (.perform c next) ∧ t.write event = c.write

/-- In each cycle the call takes a step or pauses. -/
theorem answers_or_pauses (kstrtoul : List Char → Option ℕ) (t : AreaRun) (event : AreaEvent) :
    (∃ e c next, t.Answers event e c next) ∨ Pauses kstrtoul t event := by
  obtain ⟨pl, answered, params, area, running, freed, shut, held, progress, napi, poll⟩ := t
  cases event with
  | idle => exact Or.inr ⟨rfl, rfl, rfl, fun _ hp => Or.inl hp, Or.inl rfl⟩
  | invoke c =>
    cases progress with
    | none => exact Or.inr ⟨rfl, rfl, rfl, fun _ hp => Or.inr ⟨c, rfl, rfl, (Option.some.inj hp).symm⟩, Or.inl rfl⟩
    | some p => exact Or.inr ⟨rfl, rfl, rfl, fun _ hp => Or.inl hp, Or.inl rfl⟩
  | answer e =>
    cases progress with
    | none => exact Or.inr ⟨rfl, rfl, rfl, fun _ hp => Or.inl hp, Or.inl rfl⟩
    | some p =>
      cases p with
      | done a => exact Or.inr ⟨rfl, rfl, rfl, fun _ hp => Or.inl hp, Or.inl rfl⟩
      | perform c next => exact Or.inl ⟨e, c, next, rfl, rfl⟩
  | finish =>
    refine Or.inr ⟨rfl, rfl, rfl, fun p hp => ?_, Or.inl rfl⟩
    cases progress with
    | none => exact Or.inl hp
    | some q =>
      cases q with
      | done a => exact absurd hp.symm (Option.some_ne_none p)
      | perform c next => exact Or.inl hp
  | schedule budget ports passes => exact Or.inr ⟨rfl, rfl, rfl, fun _ hp => Or.inl hp, Or.inl rfl⟩
  | poll e =>
    refine Or.inr ⟨rfl, rfl, rfl, fun _ hp => Or.inl hp, ?_⟩
    cases poll with
    | none => exact Or.inl rfl
    | some p =>
      cases p with
      | done a => exact Or.inl rfl
      | perform c next => exact Or.inr ⟨e, c, next, rfl, rfl, rfl⟩
  | complete => exact Or.inr ⟨rfl, rfl, rfl, fun _ hp => Or.inl hp, Or.inl rfl⟩

/-- A step of the call acts on the view. -/
theorem Answers.view {e : Answer} {c : Cmd} {next : c.Response → Code Unit} (h : t.Answers i.event e c next) :
    (t.step kstrtoul i).view = t.view.next c (t.perform e c).1 := by
  obtain ⟨pl, answered, params, area, running, freed, shut, held, progress, napi, poll⟩ := t
  obtain ⟨event, plc⟩ := i
  obtain ⟨hevent, hprogress⟩ := h
  obtain rfl : event = .answer e := hevent
  obtain rfl : progress = some (.perform c next) := hprogress
  cases c <;> rfl

/-- The registers after a cycle. -/
theorem regs_step : (t.step kstrtoul i).pl.core.regs =
    (t.write i.event).elim t.pl.core.regs fun w => t.pl.core.regs.write w.1 w.2 := by
  have hnext : (t.step kstrtoul i).pl.core.regs = t.pl.core.regsNext (t.pl.resetCycle (t.cycle i)) := rfl
  have hwrite : (t.pl.resetCycle (t.cycle i)).write = t.write i.event := rfl
  rw [hnext, ResetCore.regsNext, hwrite]
  cases t.write i.event <;> rfl

/-- No other cycle does. -/
theorem Pauses.view (h : Pauses kstrtoul t i.event) (hmodest : ∀ p, t.poll = some p → p.Within NetCmd.Modest) :
    (t.step kstrtoul i).view = t.view := by
  have hview : (t.step kstrtoul i).view = ⟨(t.step kstrtoul i).pl.core.regs.userRst,
    (t.step kstrtoul i).pl.core.regs.sharedMem, (t.hostNext i.event).area, t.freedNext i.event⟩ := rfl
  have hwrite : ∀ w ∈ t.write i.event, w.1 ≠ RegAddr.res ∧ w.1 ≠ RegAddr.shmem := by
    rcases h.write with hnone | ⟨e, c, next, -, hpoll, hc⟩
    · simp [hnone]
    · rw [hc]
      exact (hmodest _ hpoll).1
  have hregs : (t.step kstrtoul i).pl.core.regs.userRst = t.pl.core.regs.userRst ∧
      (t.step kstrtoul i).pl.core.regs.sharedMem = t.pl.core.regs.sharedMem := by
    rw [regs_step]
    cases hw : t.write i.event with
    | none => exact ⟨rfl, rfl⟩
    | some w =>
      obtain ⟨hres, hshmem⟩ := hwrite w hw
      exact ⟨if_neg hres, if_neg hshmem⟩
  rw [hview, hregs.1, hregs.2, h.host, h.freed]
  rfl

/-- The call goes on with the answer. -/
theorem Answers.progressNext {e : Answer} {c : Cmd} {next : c.Response → Code Unit} (h : t.Answers i.event e c next) :
    t.progressNext kstrtoul i.event = some (next (t.perform e c).1) := by
  unfold AreaRun.progressNext
  rw [h.event, h.progress]

/-- What is freed by the step. -/
theorem Answers.freedNext {e : Answer} {c : Cmd} {next : c.Response → Code Unit} (h : t.Answers i.event e c next) :
    t.freedNext i.event = (t.view.next c (t.perform e c).1).freed := by
  unfold AreaRun.freedNext
  rw [h.event, h.progress]

/-- The area is covered after each cycle, and the rest of the call keeps it so. -/
theorem Inv.view_step (h : t.Inv) (hlegal : t.Legal i) :
    AreaView.Covers (t.view, (t.step kstrtoul i).view) ∧ ∀ p, (t.step kstrtoul i).progress = some p →
      ∃ b, p.Safe (Program.keeping AreaView.Responds) AreaView.Covers (fun _ q => q.2.Covered)
        (b, (t.step kstrtoul i).view) := by
  have hprogress : (t.step kstrtoul i).progress = t.progressNext kstrtoul i.event := rfl
  rcases answers_or_pauses kstrtoul t i.event with ⟨e, c, next, hanswers⟩ | hpauses
  · obtain ⟨b, hsafe⟩ := h.rest _ hanswers.progress
    have hresponds : Program.keeping AreaView.Responds (b, t.view) c (t.perform e c).1
        (t.view, (t.step kstrtoul i).view) := ⟨rfl, hanswers.view⟩
    cases hsafe with
    | perform hinv hnext =>
      refine ⟨hinv _ _ hresponds, fun p hp => ⟨t.view, ?_⟩⟩
      rw [hprogress, hanswers.progressNext] at hp
      rw [← Option.some.inj hp]
      exact hnext _ _ hresponds
  · rw [hpauses.view h.modest]
    refine ⟨AreaView.covers_refl h.covered, fun p hp => ?_⟩
    rcases hpauses.progress p hp with hsame | ⟨c, hinvoke, hnone, hcode⟩
    · exact h.rest p hsame
    · have horderly := hlegal.orderly
      unfold Orderly at horderly
      rw [hinvoke, hnone] at horderly
      rw [hcode]
      exact ⟨t.view, safe_call_area horderly.1 h.covered⟩

/-- The poll after a cycle. -/
theorem pollNext_cases {p : NetCode (Option ℕ)} (hp : t.pollNext i.event = some p) :
    t.poll = some p ∨ (∃ budget ports passes, p = napiPoll budget ports passes) ∨
      ∃ e c next, i.event = .poll e ∧ t.poll = some (.perform c next) ∧ p = next (t.pollResponse e c) := by
  obtain ⟨pl, answered, params, area, running, freed, shut, held, progress, napi, poll⟩ := t
  obtain ⟨event, plc⟩ := i
  cases event with
  | idle | invoke | answer | finish => exact Or.inl hp
  | schedule budget ports passes =>
    cases poll with
    | none => exact Or.inr (Or.inl ⟨budget, ports, passes, (Option.some.inj hp).symm⟩)
    | some q => exact Or.inl hp
  | poll e =>
    cases poll with
    | none => exact Or.inl hp
    | some q =>
      cases q with
      | done a => exact Or.inl hp
      | perform c next => exact Or.inr (Or.inr ⟨e, c, next, rfl, rfl, (Option.some.inj hp).symm⟩)
  | complete =>
    cases poll with
    | none => exact Or.inl hp
    | some q =>
      cases q with
      | done a => exact absurd hp.symm (Option.some_ne_none p)
      | perform c next => exact Or.inl hp

/-- What is freed after a cycle that frees nothing was freed before. -/
theorem freed_of_freedNext (hfrees : t.frees i.event = false) (hbase : t.freedNext i.event = some base) :
    t.freed = some base := by
  rcases answers_or_pauses (fun _ => none) t i.event with ⟨e, c, next, hanswers⟩ | hpauses
  · rw [hanswers.freedNext] at hbase
    unfold frees at hfrees
    rw [hanswers.event, hanswers.progress] at hfrees
    cases c with
    | writeRegister reg value =>
      change (if reg = RegAddr.shmem ∧ t.area = some value then none else t.freed) = some base at hbase
      split at hbase
      · exact absurd hbase.symm (Option.some_ne_none base)
      · exact hbase
    | freeMemory => exact absurd hfrees (by simp)
    | readRegister | allocMemory | params | setParams | in4Pton | setRunning => exact hbase
  · rw [← hpauses.freed]
    exact hbase

/-- What is freed after a cycle that frees. -/
theorem freed_of_frees (hfrees : t.frees i.event = true) (hbase : t.freedNext i.event = some base) :
    t.area = some base ∨ t.freed = some base := by
  rcases answers_or_pauses (fun _ => none) t i.event with ⟨e, c, next, hanswers⟩ | hpauses
  · rw [hanswers.freedNext] at hbase
    unfold frees at hfrees
    rw [hanswers.event, hanswers.progress] at hfrees
    cases c with
    | freeMemory =>
      change t.area.or t.freed = some base at hbase
      exact (Option.or_eq_some_iff.mp hbase).imp_right And.right
    | readRegister | writeRegister | allocMemory | params | setParams | in4Pton | setRunning =>
      exact absurd hfrees (by simp)
  · rw [hpauses.frees] at hfrees
    exact absurd hfrees Bool.false_ne_true

/-- The poll stays modest. -/
theorem Inv.modest_step (h : t.Inv) {p : NetCode (Option ℕ)} (hp : t.pollNext i.event = some p) :
    p.Within NetCmd.Modest := by
  rcases pollNext_cases hp with hsame | ⟨budget, ports, passes, rfl⟩ | ⟨e, c, next, -, hpoll, rfl⟩
  · exact h.modest p hsame
  · exact NetCode.modest_napiPoll budget ports passes
  · exact (h.modest _ hpoll).2 _

/-- A poll that looks at an empty ring is shown so. -/
theorem showsEmpty_of_empty (hempty : ∀ idx, (t.pl.rxRings idx).empty = true) (e : PollAnswer) (c : NetCmd) :
    c.ShowsEmpty (t.pollResponse e c) := by
  cases c with
  | access c =>
    cases c with
    | readReg reg =>
      intro hring
      obtain ⟨idx, hidx⟩ := Option.isSome_iff_exists.mp hring
      have hread : t.pollResponse e (.access (.readReg reg)) =
          ConfigRegs.rxWord (t.pl.core.regs.bufrxTemp idx) ((t.seen e.status).bufrx idx) := by
        simp only [pollResponse, ConfigRegs.read, hidx]
      rw [hread, ConfigRegs.getLsbD_rxWord_empty]
      exact hempty idx
    | load | writeReg | store => trivial
  | netdevAllocSkb | napiGroReceive | rxPackets | napiComplete | txPackets | txDropped | kfreeSkb => trivial

/-- The reset empties the rings. -/
theorem empty_of_inForce (hforce : t.inForce = true) (idx : BufferIdx) : ((t.step kstrtoul i).pl.rxRings idx).empty = true := by
  simp only [inForce, Bool.and_eq_true] at hforce
  change ((t.pl.rxRings idx).stepRst t.pl.core.rstGlobal _ _).empty = true
  rw [hforce.1.1.1]
  rfl

/-- A poll that is idle stays so while it finds no packet. -/
theorem Inv.idle_step (h : t.Inv) (hcareful : t.Careful i) (hfreed : t.freedNext i.event ≠ none)
    {p : NetCode (Option ℕ)} (hp : t.pollNext i.event = some p) : NetCode.Idle p := by
  obtain ⟨base, hbase⟩ := Option.ne_none_iff_exists'.mp hfreed
  have hbefore (q : NetCode (Option ℕ)) (hq : t.poll = some q) : NetCode.Idle q := by
    cases hfrees : t.frees i.event with
    | true => exact hcareful.idle hfrees q hq
    | false => exact h.idle (by rw [freed_of_freedNext hfrees hbase]; exact Option.some_ne_none base) q hq
  rcases pollNext_cases hp with hsame | ⟨budget, ports, passes, rfl⟩ | ⟨e, c, next, hevent, hpoll, rfl⟩
  · exact hbefore p hsame
  · exact NetCode.idle_napiPoll budget ports passes
  · have hfrees : t.frees i.event = false := by rw [hevent]; rfl
    have hfreed : t.freed ≠ none := by
      rw [freed_of_freedNext hfrees hbase]
      exact Option.some_ne_none base
    by_cases hempty : c.ShowsEmpty (t.pollResponse e c)
    · exact (hbefore _ hpoll).2 _ hempty
    · refine hcareful.finds hfreed (Bool.eq_false_iff.mpr fun hheld => ?_) e c next hevent hpoll hempty
      exact hempty (showsEmpty_of_empty (h.held hfreed hheld) e c)

/-- The read DMA takes the address of a slot as it is. -/
theorem shiftRight_shiftLeft {addr : BitVec 32} (h : addr.toNat % bufferElemMaxSize = 0) : addr >>> 3 <<< 3 = addr := by
  have helem : bufferElemMaxSize = 2048 := rfl
  rw [helem] at h
  have hlt := addr.isLt
  apply BitVec.eq_of_toNat_eq
  rw [BitVec.toNat_shiftLeft, BitVec.toNat_ushiftRight, Nat.shiftRight_eq_div_pow, Nat.shiftLeft_eq]
  omega

/-- The transfers under way lie outside the area after a cycle that accepts no descriptor in it. -/
theorem Clear.step (h : t.Clear base) (hslots : t.pl.Slots) (hrefuses : t.Refuses i base) :
    (t.step kstrtoul i).Clear base where
  writes := by
    intro desc hdesc
    have hdescs := DmaWrRun.descs_step (i := t.pl.wrCycle (t.cycle i)) hslots.wr.serves
    have hnext : (t.step kstrtoul i).pl.wr = t.pl.wr.step (t.pl.wrCycle (t.cycle i)) := rfl
    have hanswered : (t.step kstrtoul i).answered =
        t.answered + (t.pl.wr.engine.decActive i.pl.slave).toNat := rfl
    rw [hnext, hdescs, hanswered, ← List.drop_drop, List.drop_append] at hdesc
    rcases List.mem_append.mp (List.mem_of_mem_drop hdesc) with hold | hnew
    · exact h.writes desc hold
    · have haccepted := List.mem_of_mem_drop hnew
      split at haccepted
      · rename_i haccepts
        rw [List.mem_singleton.mp haccepted]
        exact hrefuses.write haccepts
      · exact absurd haccepted List.not_mem_nil
  start := by
    intro hstart
    have hnext : (t.step kstrtoul i).pl.rd.axiStart =
        if t.pl.rd.axiStart then t.pl.rd.arvalid else t.pl.rd.accepts t.pl.rdCtrl.valid := rfl
    have haddr : (t.step kstrtoul i).pl.rd.addr = if t.pl.rd.accepts t.pl.rdCtrl.valid
        then t.pl.rdCtrl.nextSlotAddr >>> 3 <<< 3 else t.pl.rd.addr := rfl
    rw [hnext] at hstart
    rw [haddr]
    cases haccepts : t.pl.rd.accepts t.pl.rdCtrl.valid with
    | true =>
      rw [if_pos rfl, shiftRight_shiftLeft hslots.rdSlot]
      exact hrefuses.read haccepts
    | false =>
      rw [if_neg Bool.false_ne_true]
      refine h.start ?_
      by_contra hnot
      rw [if_neg hnot, haccepts] at hstart
      exact Bool.false_ne_true hstart
  address := by
    intro harvalid
    have hnext : (t.step kstrtoul i).pl.rd.arvalid = if t.pl.rd.axiStart && !t.pl.rd.arvalid then true
        else t.pl.rd.arvalid && !i.pl.rd.arready := rfl
    have haddr : (t.step kstrtoul i).pl.rd.araddr = if t.pl.rd.axiStart && !t.pl.rd.arvalid then t.pl.rd.addr
        else t.pl.rd.araddr := rfl
    rw [hnext] at harvalid
    rw [haddr]
    cases hasks : (t.pl.rd.axiStart && !t.pl.rd.arvalid) with
    | true =>
      rw [if_pos rfl]
      exact h.start (Bool.and_eq_true_iff.mp hasks).1
    | false =>
      rw [hasks, if_neg Bool.false_ne_true] at harvalid
      rw [if_neg Bool.false_ne_true]
      exact h.address (Bool.and_eq_true_iff.mp harvalid).1
  reads := by
    intro a ha
    have hnext : (t.step kstrtoul i).pl.rd.bursts =
        (if t.pl.rd.rlastHs i.pl.rd then t.pl.rd.bursts.tail else t.pl.rd.bursts) ++
          (if t.pl.rd.arvalid && i.pl.rd.arready then [t.pl.rd.araddr] else []) := rfl
    rw [hnext, List.mem_append] at ha
    rcases ha with hold | hnew
    · split at hold
      · exact h.reads a (List.mem_of_mem_tail hold)
      · exact h.reads a hold
    · split at hnew
      · rename_i hasks
        rw [List.mem_singleton.mp hnew]
        exact h.address (Bool.and_eq_true_iff.mp hasks).1
      · exact absurd hnew List.not_mem_nil

/-- While no descriptor is offered, or those of other addresses, none in the area is accepted. -/
theorem refuses_of_shut (h : t.Held ∨ t.Blank) (hbase : buffersTotalSize ≤ base.toNat) : t.Refuses i base where
  write := by
    intro haccepts hin
    have hvalid : t.pl.wrCtrl.valid = true := (Bool.and_eq_true_iff.mp haccepts).2
    rcases h with hheld | hblank
    · rw [hheld.wr] at hvalid
      exact Bool.false_ne_true hvalid
    · exact absurd (Nat.lt_of_lt_of_le (hblank.wr hvalid) hbase) (Nat.not_lt.mpr hin.1)
  read := by
    intro haccepts hin
    have hvalid : t.pl.rdCtrl.valid = true := (Bool.and_eq_true_iff.mp haccepts).2
    rcases h with hheld | hblank
    · rw [hheld.rd] at hvalid
      exact Bool.false_ne_true hvalid
    · exact absurd (Nat.lt_of_lt_of_le (hblank.rd hvalid) hbase) (Nat.not_lt.mpr hin.1)

/-- No transfer in the freed area comes to be under way. -/
theorem Inv.clear_step (h : t.Inv) (hcareful : t.Careful i) (hbase : t.freedNext i.event = some base) :
    (t.step kstrtoul i).Clear base := by
  have hclear : t.Clear base := by
    cases hfrees : t.frees i.event with
    | true =>
      rcases freed_of_frees hfrees hbase with harea | hfreed
      · exact hcareful.clear hfrees base harea
      · exact h.clear base hfreed
    | false => exact h.clear base (freed_of_freedNext hfrees hbase)
  refine hclear.step h.slots ?_
  by_cases hcondition : t.frees i.event = true ∨ t.shut = false ∨ base.toNat < buffersTotalSize
  · exact hcareful.refuses base hbase hcondition
  · obtain ⟨hfrees, hrest⟩ := not_or.mp hcondition
    obtain ⟨hshut, hlow⟩ := not_or.mp hrest
    have hfreed := freed_of_freedNext (by simpa using hfrees) hbase
    exact refuses_of_shut (h.shut (by rw [hfreed]; exact Option.some_ne_none base) (by simpa using hshut)) (Nat.le_of_not_lt hlow)

/-- Every slot of an area at address 0 lies below the size of an area. -/
theorem toNat_wrSlot_lt (idx : BufferIdx) {headIndex : ℕ} (h : headIndex < bufferRxLength) :
    (DmaWriteControl.slotAddr 0 idx headIndex).toNat < buffersTotalSize := by
  have hidx := idx.isLt
  have hzero : (0 : BitVec 32).toNat = 0 := rfl
  simp only [DmaWriteControl.slotAddr, hzero, bufferRxLength, bufferElemMaxSize, buffersTotalSize, bufferSizeBytes, maxUdpPorts,
    BitVec.toNat_add, BitVec.toNat_mul, BitVec.toNat_setWidth, BitVec.toNat_ofNat] at h ⊢
  omega

/-- So does every slot of its TX ring. -/
theorem toNat_rdSlot_lt {tailIndex : ℕ} (h : tailIndex < bufferTxLength) :
    (DmaReadControl.slotAddr 0 tailIndex).toNat < buffersTotalSize := by
  have hzero : (0 : BitVec 32).toNat = 0 := rfl
  simp only [DmaReadControl.slotAddr, hzero, bufferTxLength, bufferRxLength, bufferElemMaxSize, buffersTotalSize, bufferSizeBytes,
    maxUdpPorts, BitVec.toNat_add, BitVec.toNat_mul, BitVec.toNat_ofNat] at h ⊢
  omega

/-- The latched address after a cycle. -/
theorem base_step : (t.step kstrtoul i).pl.sharedMemBase =
    if t.pl.core.rstGlobal then t.pl.core.regs.sharedMem else t.pl.sharedMemBase := by
  have hnext : (t.step kstrtoul i).pl.sharedMemBase = (if t.pl.core.rstGlobal then t.pl.core.regs.config
    else t.pl.core.latched).sharedMemBaseAddress := rfl
  rw [hnext]
  split <;> rfl

/-- A reset in force stays so while it is requested. After its release the PL works from address 0 on, if the register
is cleared. -/
theorem shut_of_inForce (hforce : t.inForce = true)
    (hcovered : (t.step kstrtoul i).pl.core.regs.userRst = true ∨ (t.step kstrtoul i).pl.core.regs.sharedMem = 0) :
    (t.step kstrtoul i).Held ∨ (t.step kstrtoul i).Blank := by
  simp only [inForce, Bool.and_eq_true, Bool.not_eq_true'] at hforce
  obtain ⟨⟨⟨hrst, hrequested⟩, huser⟩, hbusy⟩ := hforce
  have hwr : (t.step kstrtoul i).pl.wrCtrl.valid = false := by
    change (if t.pl.core.rstGlobal || !t.pl.wr.engine.descReady then false else _) = false
    rw [hrst, Bool.true_or, if_pos rfl]
  have hrd : (t.step kstrtoul i).pl.rdCtrl.valid = false := by
    change (if t.pl.core.rstGlobal || t.pl.rdCtrl.locked then false else _) = false
    rw [hrst, Bool.true_or, if_pos rfl]
  cases hnext : (t.step kstrtoul i).pl.core.regs.userRst with
  | true =>
    have hrstNext : (t.step kstrtoul i).pl.core.rstGlobal = true := by
      change (if !t.pl.core.handler.enable then true else t.pl.core.handler.rstRequested && !t.pl.core.busy) = true
      rw [hrequested, hbusy]
      exact ite_self true
    have hrequestedNext : (t.step kstrtoul i).pl.core.handler.rstRequested = true :=
      ResetCore.rstRequested_step huser
    have hbusyNext : (t.step kstrtoul i).pl.core.busy = false := by
      change (t.pl.core.flags.step t.pl.core.rstGlobal _).busy = false
      rw [hrst, BusyFlags.busy_step_of_reset]
    refine Or.inl ⟨?_, hwr, hrd⟩
    rw [inForce, hrstNext, hrequestedNext, hnext, hbusyNext]
    rfl
  | false =>
    have hcleared : (t.step kstrtoul i).pl.core.regs.sharedMem = 0 := by
      rcases hcovered with huserNext | hcleared
      · rw [hnext] at huserNext
        exact absurd huserNext Bool.false_ne_true
      · exact hcleared
    have hconfig : (t.step kstrtoul i).pl.core.regs.config = t.pl.core.regs.config := by
      refine ResetCore.config_regsNext ?_
      change (t.step kstrtoul i).pl.core.regs.userRst ≠ t.pl.core.regs.userRst
      rw [hnext, huser]
      exact Bool.false_ne_true
    have hsame : t.pl.core.regs.sharedMem = 0 := by
      have haddr := congrArg ControllerConfig.sharedMemBaseAddress hconfig
      exact haddr.symm.trans hcleared
    exact Or.inr
      { register := hcleared
        base := by rw [base_step, hrst, if_pos rfl, hsame]
        wr := fun hvalid => absurd (hwr.symm.trans hvalid) Bool.false_ne_true
        rd := fun hvalid => absurd (hrd.symm.trans hvalid) Bool.false_ne_true }

/-- The PL goes on from address 0 while the register is cleared. -/
theorem Blank.step (h : t.Blank) (hslots : t.pl.Slots) (hregister : (t.step kstrtoul i).pl.core.regs.sharedMem = 0) :
    (t.step kstrtoul i).Blank where
  register := hregister
  base := by rw [base_step, h.register, h.base, ite_self]
  wr := fun _ => by
    have haddr : (t.step kstrtoul i).pl.wrCtrl.nextSlotAddr = DmaWriteControl.slotAddr t.pl.sharedMemBase
        i.pl.bufferSelectIdx (t.pl.rxRings i.pl.bufferSelectIdx).headIndex := rfl
    rw [haddr, h.base]
    exact toNat_wrSlot_lt _ (hslots.heads _)
  rd := fun _ => by
    have haddr : (t.step kstrtoul i).pl.rdCtrl.nextSlotAddr = DmaReadControl.slotAddr t.pl.sharedMemBase
        t.pl.txRing.tailIndex := rfl
    rw [haddr, h.base]
    exact toNat_rdSlot_lt hslots.tail

/-- Once the reset has been in force, the PL stays away from a freed area. -/
theorem Inv.shut_step (h : t.Inv) (hlegal : t.Legal i) (hfreed : (t.step kstrtoul i).freed ≠ none)
    (hshut : (t.step kstrtoul i).shut = true) : (t.step kstrtoul i).Held ∨ (t.step kstrtoul i).Blank := by
  have hnext : (t.step kstrtoul i).shut = if t.frees i.event then false else t.shut || t.inForce := rfl
  have hview : AreaView.Covers (t.view, (t.step kstrtoul i).view) := (h.view_step hlegal).1
  have hcovers := hview hfreed
  cases hfrees : t.frees i.event with
  | true =>
    rw [hnext, hfrees, if_pos rfl] at hshut
    exact absurd hshut Bool.false_ne_true
  | false =>
    rw [hnext, hfrees, if_neg Bool.false_ne_true, Bool.or_eq_true] at hshut
    obtain ⟨base, hbase⟩ := Option.ne_none_iff_exists'.mp hfreed
    have hbefore : t.freed ≠ none := by
      rw [freed_of_freedNext hfrees hbase]
      exact Option.some_ne_none base
    by_cases hforce : t.inForce = true
    · exact shut_of_inForce hforce hcovers.1
    · rcases h.shut hbefore (hshut.resolve_right hforce) with hheld | hblank
      · exact absurd hheld.inForce hforce
      · refine Or.inr (hblank.step h.slots ?_)
        rcases hcovers.2 with hsame | hcleared
        · exact hsame.trans hblank.register
        · exact hcleared

/-- What holds is kept by every cycle that meets the condition. -/
theorem Inv.step (h : t.Inv) (hlegal : t.Legal i) (hcareful : t.Careful i) : (t.step kstrtoul i).Inv where
  slots := h.slots.step hlegal.pl
  covered := (h.view_step hlegal).1.covered
  rest := (h.view_step hlegal).2
  modest := fun _ hp => h.modest_step hp
  clear := fun _ hbase => h.clear_step hcareful hbase
  idle := fun hfreed _ hp => h.idle_step hcareful hfreed hp
  shut := h.shut_step hlegal
  held := fun _ => empty_of_inForce

/-- A burst starts where its descriptor does. -/
theorem addr_of_mem_bursts {s : DmaWrRun} (h : s.Tracked) {j : WriteJob} (hj : j ∈ s.jobs) {b : BitVec 32 × ℕ}
    (hb : b ∈ j.bursts) : b.1 = j.desc.addr := by
  have hburst {k : ℕ} (hbursting : AxiDmaWr.Bursting j k) : b.1 = j.desc.addr := by
    rw [hbursting.bursts, List.mem_singleton] at hb
    rw [hb]
  rw [DmaWrRun.jobs, List.mem_append, Option.mem_toList] at hj
  rcases hj with hfinished | hcurrent
  · exact hburst (h.served j hfinished).toBursting
  · have hserves := h.serves
    rw [hcurrent] at hserves
    cases hstate : s.engine.state with
    | idle => simp [AxiDmaWr.Serves, hstate] at hserves
    | start =>
      simp only [AxiDmaWr.Serves, hstate] at hserves
      rw [hserves.fresh] at hb
      exact absurd hb List.not_mem_nil
    | write =>
      simp only [AxiDmaWr.Serves, hstate] at hserves
      exact hburst hserves.2.toBursting
    | finishBurst =>
      simp only [AxiDmaWr.Serves, hstate] at hserves
      obtain ⟨-, k, -, hin⟩ := hserves
      exact hburst hin.toBursting
    | dropData =>
      simp only [AxiDmaWr.Serves, hstate] at hserves
      exact hburst hserves.2.2.2

/-- In such a state the freed area is left alone. -/
theorem Inv.untouched (h : t.Inv) : t.Untouched i where
  writes := by
    intro base hbase j hj b hb
    rw [addr_of_mem_bursts h.slots.wr (List.mem_of_mem_drop hj) hb]
    refine (h.clear base hbase).writes j.desc ?_
    rw [← List.map_drop]
    exact List.mem_map_of_mem hj
  address := fun base hbase => (h.clear base hbase).address
  reads := fun base hbase => (h.clear base hbase).reads
  poll := fun hfreed _ _ _ _ hpoll => (h.idle hfreed _ hpoll).1

/-- Between two calls. -/
theorem Resting.inv (h : t.Resting) : t.Inv where
  slots := Clocked.Machine.invariant CutRun.slots_start (fun _ _ hs hi => hs.step hi) h.pl
  covered := fun hfreed => absurd h.freed hfreed
  rest := fun p hp => absurd (h.progress.symm.trans hp) (Option.some_ne_none p).symm
  modest := fun p hp => absurd (h.poll.symm.trans hp) (Option.some_ne_none p).symm
  clear := fun base hbase => absurd (h.freed.symm.trans hbase) (Option.some_ne_none base).symm
  idle := fun hfreed => absurd h.freed hfreed
  shut := fun hfreed => absurd h.freed hfreed
  held := fun hfreed => absurd h.freed hfreed

end Cycle

/-- From the free on nothing is written to the area or read from it until the next one is published, in every run in
which the area is freed with nothing in it under way, no descriptor in it is accepted before the reset is in force, and no
poll finds a packet. -/
theorem untouched_of_careful (kstrtoul : List Char → Option ℕ) {t : AreaRun} (h : t.Resting) :
    ((machine kstrtoul).restrict Careful).Always t Untouched :=
  Clocked.Machine.always_of_invariant h.inv (fun _ _ hinv hi => hinv.step hi.1 hi.2) fun _ _ hinv _ => hinv.untouched

/-- The interface is open on the area from 0x10000000 on. -/
def opened : AreaRun where
  pl := CutRun.machine.run .start CutRun.boot
  answered := 0
  params := .initial
  area := some 0x10000000
  running := true
  freed := none
  shut := false
  held := false
  progress := none
  napi := true
  poll := none

/-- A step of the software while a beat waits at the write DMA, or none does. -/
def during (axis : Option Beat) (event : AreaEvent) : AreaCycle := ⟨event, CutRun.offers axis⟩

/-- An answer to a register write. -/
def written : AreaEvent := .answer ⟨Operation.quiet, none, 0⟩

/-- The PL was taken out of the reset. -/
theorem resting_opened : opened.Resting := ⟨⟨CutRun.boot, by decide +kernel, rfl⟩, rfl, rfl, rfl⟩

instance (t : AreaRun) (i : AreaCycle) (base : BitVec 32) : Decidable (t.Refuses i base) :=
  decidable_of_iff ((t.pl.wrAccepts (t.cycle i) = true → ¬ InArea base t.pl.wrCtrl.nextSlotAddr) ∧
    (t.pl.rdAccepts = true → ¬ InArea base t.pl.rdCtrl.nextSlotAddr))
    ⟨fun h => ⟨h.1, h.2⟩, fun h => ⟨h.write, h.read⟩⟩

instance (t : CutRun) (i : CutCycle) : Decidable (t.Legal i) := inferInstanceAs (Decidable (CutRun.machine.legal t i))

/-- The DMA engines have no transfer. -/
def Still (t : AreaRun) : Prop :=
  t.pl.wr.jobs.length ≤ t.answered ∧ t.pl.rd.axiStart = false ∧ t.pl.rd.arvalid = false ∧ t.pl.rd.bursts.length = 0

instance (t : AreaRun) : Decidable t.Still := inferInstanceAs (Decidable (_ ∧ _ ∧ _ ∧ _))

/-- No transfer lies in an area then. -/
theorem clear_of_still {t : AreaRun} (h : t.Still) (base : BitVec 32) : t.Clear base := by
  obtain ⟨hjobs, hstart, hvalid, hbursts⟩ := h
  constructor
  · rw [List.drop_of_length_le (by rw [List.length_map]; exact hjobs)]
    simp
  · simp [hstart]
  · simp [hvalid]
  · simp [List.length_eq_zero_iff.mp hbursts]

/-- The condition before anything is freed. -/
theorem careful_of_unfreed {t : AreaRun} {i : AreaCycle} (hfreed : t.freed = none) (hfrees : t.frees i.event = false) :
    t.Careful i where
  clear := fun h => absurd (hfrees.symm.trans h) Bool.false_ne_true
  idle := fun h => absurd (hfrees.symm.trans h) Bool.false_ne_true
  refuses := fun base hbase => by
    have hbefore := freed_of_freedNext hfrees hbase
    exact absurd (hfreed.symm.trans hbefore) (Option.some_ne_none base).symm
  finds := fun h => absurd hfreed h

/-- The condition when an area is freed, and while the reset is in force after it. -/
theorem careful_of_held {t : AreaRun} {i : AreaCycle} (hstill : t.Still) (hidle : ∀ p, t.poll = some p → NetCode.Idle p)
    (hheld : t.held = true) (hrefuses : (t.freedNext i.event).all (fun base => decide (t.Refuses i base)) = true) :
    t.Careful i where
  clear := fun _ base _ => clear_of_still hstill base
  idle := fun _ => hidle
  refuses := fun base hbase _ => by
    rw [hbase] at hrefuses
    exact of_decide_eq_true hrefuses
  finds := fun _ h => absurd (hheld.symm.trans h) Bool.false_ne_true.symm

/-- A stop that waits for the reset before it frees the area. It comes while a frame is written, and with a poll in
progress. -/
def waits : List AreaCycle := List.replicate 5 (during (CutRun.beat false) .idle) ++
  [during (CutRun.beat false) (.schedule 64 [5] 1), during (CutRun.beat false) (.invoke .ndoStop),
    during (CutRun.beat false) written, during (CutRun.beat true) .idle] ++
  List.replicate 4 (during none .idle)

/-- The step of the poll that reads the control word of the ring. -/
def looks : AreaCycle := during none (.poll ⟨Operation.quiet, 0, true⟩)

/-- The run up to the free. -/
theorem legal_waits : ((machine fun _ => none).restrict Careful).Legal opened waits := by
  refine ⟨⟨⟨trivial, ?_⟩, careful_of_unfreed rfl rfl⟩, ⟨⟨trivial, ?_⟩, careful_of_unfreed rfl rfl⟩,
    ⟨⟨trivial, ?_⟩, careful_of_unfreed rfl rfl⟩, ⟨⟨trivial, ?_⟩, careful_of_unfreed rfl rfl⟩,
    ⟨⟨trivial, ?_⟩, careful_of_unfreed rfl rfl⟩, ⟨⟨rfl, ?_⟩, careful_of_unfreed rfl rfl⟩,
    ⟨⟨⟨Or.inr rfl, rfl⟩, ?_⟩, careful_of_unfreed rfl rfl⟩, ⟨⟨trivial, ?_⟩, careful_of_unfreed rfl rfl⟩,
    ⟨⟨trivial, ?_⟩, careful_of_unfreed rfl rfl⟩, ⟨⟨trivial, ?_⟩, careful_of_unfreed rfl rfl⟩,
    ⟨⟨trivial, ?_⟩, careful_of_unfreed rfl rfl⟩, ⟨⟨trivial, ?_⟩, careful_of_unfreed rfl rfl⟩,
    ⟨⟨trivial, ?_⟩, careful_of_unfreed rfl rfl⟩, trivial⟩
  all_goals decide +kernel

/-- The area is freed then, with the poll still in progress. -/
def stopped : AreaRun := (machine fun _ => none).run opened (waits ++ [during none written])

/-- The frame was written, and the poll goes on beside the freed area. -/
theorem untouched_stopped : stopped.freed = some 0x10000000 ∧ stopped.pl.wr.jobs.length = 1 ∧
    stopped.poll = some (napiPoll 64 [5] 1) ∧ stopped.Untouched looks := by
  have hidle (p : NetCode (Option ℕ)) (hp : some (napiPoll 64 [5] 1) = some p) : NetCode.Idle p := by
    rw [← Option.some.inj hp]
    exact NetCode.idle_napiPoll 64 [5] 1
  refine ⟨by decide +kernel, by decide +kernel, rfl,
    untouched_of_careful _ resting_opened _ ⟨waits ++ [during none written], ?_, rfl⟩ _ ⟨⟨trivial, ?_⟩, ?_⟩⟩
  · refine (Clocked.Machine.legal_append _ _ _ _).mpr ⟨legal_waits, ⟨⟨trivial, ?_⟩, ?_⟩, trivial⟩
    · decide +kernel
    · exact careful_of_held (by decide +kernel) hidle (by decide +kernel) (by decide +kernel)
  · decide +kernel
  · exact careful_of_held (by decide +kernel) hidle (by decide +kernel) (by decide +kernel)

/-- Five beats of a frame of six are written, and the interface is stopped. -/
def receives : List AreaCycle := List.replicate 5 (during (CutRun.beat false) .idle) ++
  [during (CutRun.beat false) (.invoke .ndoStop), during (CutRun.beat false) written, during (CutRun.beat false) written]

/-- The stop frees the area under a burst: the reset it has requested waits for the burst. -/
theorem not_untouched : ¬ ∀ t : AreaRun, t.Resting → (machine fun _ => none).Always t Untouched := by
  intro hall
  have hlegal : (machine fun _ => none).Legal opened receives := by
    refine ⟨⟨trivial, ?_⟩, ⟨trivial, ?_⟩, ⟨trivial, ?_⟩, ⟨trivial, ?_⟩, ⟨trivial, ?_⟩, ⟨⟨Or.inr rfl, rfl⟩, ?_⟩,
      ⟨trivial, ?_⟩, ⟨trivial, ?_⟩, trivial⟩
    all_goals decide +kernel
  have huntouched := hall opened resting_opened _ ⟨receives, hlegal, rfl⟩ (during (CutRun.beat true) .idle)
    ⟨trivial, by decide +kernel⟩
  have hfreed : ((machine fun _ => none).run opened receives).freed = some 0x10000000 := by decide +kernel
  have hburst : ∃ j ∈ ((machine fun _ => none).run opened receives).pl.wr.jobs.drop
      ((machine fun _ => none).run opened receives).answered, ∃ b ∈ j.bursts, InArea 0x10000000 b.1 := by
    decide +kernel
  obtain ⟨j, hj, b, hb, hin⟩ := hburst
  exact huntouched.writes _ hfreed j hj b hb hin

end AreaRun

end UdpIpCore
