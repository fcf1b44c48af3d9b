import UdpIpCore.Kernel.SettingOrder
import UdpIpCore.Reset.HeldReset

/-!
# The settings in force

Every call of the kernel driver that writes the configuration holds the reset request
around its writes, except the one that sets the MAC address. So the controller works with
the registers whenever no call is in progress and no request waits, as long as the MAC
registers only change while a reset is still to come.
-/

namespace UdpIpCore

open Interaction Kernel

/-- The driver and the controller's part that takes part in a reset. -/
structure DriverRun where
  host : Host
  handler : UserRstHandler
  flags : BusyFlags
  latched : ControllerConfig
  /-- The rest of the call in progress. -/
  progress : Option (Code Unit)

/-- What the driver does in one cycle. -/
inductive DriverEvent
  | idle
  | invoke (c : Call)
  /-- The next step of the call is answered. -/
  | answer (e : Answer)
  /-- The call returns. -/
  | finish

/-- One cycle of both. -/
structure DriverCycle where
  event : DriverEvent
  transfers : TransferEvents

namespace DriverRun

/-- After probe. -/
def start : DriverRun := ⟨.probed, .reset, .reset, ConfigRegs.reset.config, none⟩

/-- The controller's part with the registers the driver writes. -/
def core (t : DriverRun) : ResetCore := ⟨t.host.regs, t.handler, t.flags, t.latched⟩

/-- The register write of a cycle. -/
def write (t : DriverRun) (event : DriverEvent) : Option (RegAddr × BitVec 32) :=
  match event, t.progress with
  | .answer _, some (.perform c _) => c.write
  | _, _ => none

/-- The controller's view of a cycle. -/
def resetCycle (t : DriverRun) (i : DriverCycle) : ResetCycle := ⟨t.write i.event, i.transfers⟩

/-- The host after a cycle. -/
def hostNext (t : DriverRun) (event : DriverEvent) : Host :=
  match event, t.progress with
  | .answer e, some (.perform c _) => (t.host.perform e c).2
  | _, _ => t.host

/-- The call in progress after a cycle. -/
def progressNext (kstrtoul : List Char → Option ℕ) (t : DriverRun) (event : DriverEvent) : Option (Code Unit) :=
  match event, t.progress with
  | .invoke c, none => some (c.code kstrtoul)
  | .answer e, some (.perform c next) => some (next (t.host.perform e c).1)
  | .finish, some (.done _) => none
  | _, p => p

/-- One clock edge. -/
def step (kstrtoul : List Char → Option ℕ) (t : DriverRun) (i : DriverCycle) : DriverRun where
  host := t.hostNext i.event
  handler := (t.core.step (t.resetCycle i)).handler
  flags := (t.core.step (t.resetCycle i)).flags
  latched := (t.core.step (t.resetCycle i)).latched
  progress := t.progressNext kstrtoul i.event

/-- The calls come one after the other. -/
def Legal (t : DriverRun) (i : DriverCycle) : Prop :=
  match i.event, t.progress with
  | .idle, _ => True
  | .invoke c, none => c.Allowed t.host
  | .answer _, some (.perform _ _) => True
  | .finish, some (.done _) => True
  | _, _ => False

instance (s : Host) : (c : Call) → Decidable (c.Allowed s)
  | .ndoOpen => inferInstanceAs (Decidable (_ = _))
  | .ndoStop => inferInstanceAs (Decidable (_ = _))
  | .devlinkSetU16 _ _ | .devlinkSetString _ _ | .setMacAddress _ | .inetaddr _ _ _ _ => inferInstanceAs (Decidable True)

instance (t : DriverRun) (i : DriverCycle) : Decidable (t.Legal i) :=
  match t, i with
  | ⟨host, _, _, _, progress⟩, ⟨event, _⟩ =>
    match event, progress with
    | .idle, _ => inferInstanceAs (Decidable True)
    | .invoke c, none => inferInstanceAs (Decidable (c.Allowed host))
    | .invoke _, some _ => inferInstanceAs (Decidable False)
    | .answer _, none => inferInstanceAs (Decidable False)
    | .answer _, some (.done _) => inferInstanceAs (Decidable False)
    | .answer _, some (.perform _ _) => inferInstanceAs (Decidable True)
    | .finish, none => inferInstanceAs (Decidable False)
    | .finish, some (.done _) => inferInstanceAs (Decidable True)
    | .finish, some (.perform _ _) => inferInstanceAs (Decidable False)

/-- The driver and the controller under any calls and any transfers. -/
def machine (kstrtoul : List Char → Option ℕ) : Clocked.Machine DriverRun DriverCycle where
  step := step kstrtoul
  legal := Legal

/-- If no call is in progress and no reset is pending, the controller works with the registers. -/
def InForce (t : DriverRun) : Prop :=
  t.progress = none → t.handler.rstRequested = false → t.latched = t.host.regs.config

/-- A write that changes the MAC address comes while a reset is requested or held since the power-on, or while a request
waits that will still be served. -/
def MacBeforeReset (t : DriverRun) (i : DriverCycle) : Prop :=
  ∀ w ∈ t.write i.event, (t.host.regs.write w.1 w.2).localMac ≠ t.host.regs.localMac →
    t.host.regs.userRst = true ∨ t.handler.enable = false ∨
      t.handler.rstRequested = true ∧ (t.core.rstGlobal = false ∨ t.core.busy = false)

instance (t : DriverRun) (i : DriverCycle) : Decidable (t.MacBeforeReset i) :=
  @Option.decidableForallMem (RegAddr × BitVec 32) (fun w => (t.host.regs.write w.1 w.2).localMac ≠ t.host.regs.localMac →
    t.host.regs.userRst = true ∨ t.handler.enable = false ∨
      t.handler.rstRequested = true ∧ (t.core.rstGlobal = false ∨ t.core.busy = false))
    (fun _ => inferInstance) (t.write i.event)

instance (kstrtoul : List Char → Option ℕ) (t : DriverRun) (i : DriverCycle) : Decidable ((machine kstrtoul).legal t i) :=
  inferInstanceAs (Decidable (t.Legal i))

instance (kstrtoul : List Char → Option ℕ) (t : DriverRun) (i : DriverCycle) :
    Decidable (((machine kstrtoul).restrict MacBeforeReset).legal t i) :=
  inferInstanceAs (Decidable (t.Legal i ∧ t.MacBeforeReset i))

/-- A step is taken with the reset requested, or changes nothing but the MAC address. -/
def Framing (q : Host × Host) : Prop :=
  q.1.regs.userRst = true ∨ ∃ mac, q.2.regs.config = { q.1.regs.config with localMac := mac }

section Calls

variable {s b : Host} {kstrtoul : List Char → Option ℕ}

/-- A step that leaves the registers. -/
theorem framing_of_regs {s' : Host} (h : s'.regs = s.regs) : Framing (s, s') :=
  Or.inr ⟨s.regs.localMac, by rw [h]; rfl⟩

/-- A step whose effect on the registers is known. -/
theorem safe_framed {c : Cmd} {post : c.Response → Host × Host → Prop}
    (h : ∀ e : Answer, Framing (s, (s.perform e c).2) ∧ post (s.perform e c).1 (s, (s.perform e c).2)) :
    (Program.command (R := Cmd.Response) c).Safe (Program.keeping Host.Responds) Framing post (b, s) := by
  refine Program.Safe.command_keeping fun r s' hr => ?_
  obtain ⟨e, he⟩ := hr
  obtain ⟨rfl, rfl⟩ := Prod.mk.inj he
  exact h e

/-- A step with the reset requested. -/
theorem safe_held {c : Cmd} {post : c.Response → Host × Host → Prop} (hs : s.regs.userRst = true)
    (hpost : ∀ e : Answer, post (s.perform e c).1 (s, (s.perform e c).2)) :
    (Program.command (R := Cmd.Response) c).Safe (Program.keeping Host.Responds) Framing post (b, s) :=
  safe_framed fun e => ⟨Or.inl hs, hpost e⟩

/-- A part of a call that keeps the reset requested. -/
theorem Framing.of_safe {α : Type} {p : Code α} {post : α → Host → Prop} (hs : s.regs.userRst = true)
    (h : p.Safe Host.Responds (fun s => s.regs.userRst = true) post s) :
    p.Safe (Program.keeping Host.Responds) Framing (fun a q => q.2.regs.userRst = true ∧ post a q.2) (b, s) :=
  h.keeping hs fun _ _ _ _ hheld _ => Or.inl hheld

/-- The reset is requested. -/
theorem safe_assert {post : Unit → Host × Host → Prop}
    (hpost : post () (s, s.written RegAddr.res 1)) :
    (writeRegister RegAddr.res 1).Safe (Program.keeping Host.Responds) Framing post (b, s) :=
  safe_framed (c := .writeRegister _ _) fun _ => ⟨Or.inr ⟨s.regs.localMac, rfl⟩, hpost⟩

/-- The device is notified within one request. -/
theorem framed_notifyChange : notifyChange.Safe (Program.keeping Host.Responds) Framing (fun _ _ => True) (b, s) := by
  have hinv (s : Host) (hs : s.regs.userRst = true) : s.regs.userRst = true := hs
  refine Program.Safe.bind (safe_assert ?_)
  have hclear := safe_clearSockets (s := s.written RegAddr.res 1) hinv ⟨⟨rfl, rfl, rfl, rfl⟩, rfl⟩
  refine Program.Safe.bind ((Framing.of_safe rfl hclear).mono fun _ q₁ hq₁ => ?_)
  obtain ⟨b₁, s₁⟩ := q₁
  refine Program.Safe.bind (safe_held (c := .params) hq₁.1 fun _ => ?_)
  have hopen := @safe_openSockets s₁ _ s₁ hinv s₁.params.listed ⟨hq₁.1, rfl, rfl, rfl⟩
  refine Program.Safe.bind ((Framing.of_safe hq₁.1 hopen).mono fun _ q₂ hq₂ => ?_)
  obtain ⟨b₂, s₂⟩ := q₂
  refine Program.Safe.bind (safe_held (c := .writeRegister _ _) hq₂.1 fun _ => ?_)
  refine Program.Safe.bind (safe_held (c := .writeRegister _ _) hq₂.1 fun _ => ?_)
  refine Program.Safe.bind (safe_held (c := .in4Pton _) hq₂.1 fun _ => ?_)
  refine Program.Safe.bind (safe_held (c := .writeRegister _ _) hq₂.1 fun _ => ?_)
  exact safe_held (c := .writeRegister _ _) hq₂.1 fun _ => trivial

/-- The parameters are stored, and the device is notified. -/
theorem framed_devlinkSet (update : DriverParams → Option DriverParams) :
    (devlinkSet update).Safe (Program.keeping Host.Responds) Framing (fun _ _ => True) (b, s) := by
  refine Program.Safe.bind (safe_framed (c := .params) fun _ => ⟨framing_of_regs rfl, ?_⟩)
  dsimp only [Host.perform]
  cases update s.params with
  | none => exact .done trivial
  | some p =>
    refine Program.Safe.bind (safe_framed (c := .setParams p) fun _ => ⟨framing_of_regs rfl, ?_⟩)
    exact Program.Safe.bind (framed_notifyChange.mono fun _ _ _ => .done trivial)

/-- The interface is opened within one request, or the request stays if there is no area. -/
theorem framed_ndoOpen : Kernel.ndoOpen.Safe (Program.keeping Host.Responds) Framing (fun _ _ => True) (b, s) := by
  have hinv (s : Host) (hs : s.regs.userRst = true) : s.regs.userRst = true := hs
  refine Program.Safe.bind (safe_assert ?_)
  refine Program.Safe.bind (safe_held (c := .allocMemory) rfl fun e => ?_)
  change Program.Safe _ _ _ (match e.area with | none => _ | some _ => _) _
  cases e.area with
  | none => exact .done trivial
  | some physDmaArea =>
    refine Program.Safe.bind (safe_held (c := .params) rfl fun _ => ?_)
    refine Program.Safe.bind (safe_held (c := .writeRegister _ _) rfl fun _ => ?_)
    refine Program.Safe.bind (safe_held (c := .writeRegister _ _) rfl fun _ => ?_)
    refine Program.Safe.bind (safe_held (c := .writeRegister _ _) rfl fun _ => ?_)
    refine Program.Safe.bind ((Framing.of_safe rfl (safe_emptyBuffers hinv ⟨⟨rfl, rfl, rfl, rfl⟩, rfl⟩)).mono fun _ q₁ hq₁ => ?_)
    obtain ⟨b₁, s₁⟩ := q₁
    have hopen := @safe_openSockets s₁ _ s₁ hinv s.params.listed ⟨hq₁.1, rfl, rfl, rfl⟩
    refine Program.Safe.bind ((Framing.of_safe hq₁.1 hopen).mono fun _ q₂ hq₂ => ?_)
    obtain ⟨b₂, s₂⟩ := q₂
    refine Program.Safe.bind (safe_held (c := .writeRegister _ _) hq₂.1 fun _ => ?_)
    refine Program.Safe.bind (safe_held (c := .writeRegister _ _) hq₂.1 fun _ => ?_)
    refine Program.Safe.bind (safe_held (c := .writeRegister _ _) hq₂.1 fun _ => ?_)
    exact Program.Safe.bind (safe_held (c := .writeRegister _ _) hq₂.1 fun _ => .done trivial)

/-- The interface is stopped within one request. -/
theorem framed_ndoStop : Kernel.ndoStop.Safe (Program.keeping Host.Responds) Framing (fun _ _ => True) (b, s) := by
  have hinv (s : Host) (hs : s.regs.userRst = true) : s.regs.userRst = true := hs
  refine Program.Safe.bind (safe_assert ?_)
  refine Program.Safe.bind (safe_held (c := .freeMemory) rfl fun _ => ?_)
  refine Program.Safe.bind (safe_held (c := .writeRegister _ _) rfl fun _ => ?_)
  refine Program.Safe.bind ((Framing.of_safe rfl (safe_emptyBuffers hinv ⟨⟨rfl, rfl, rfl, rfl⟩, rfl⟩)).mono fun _ q₁ hq₁ => ?_)
  obtain ⟨b₁, s₁⟩ := q₁
  refine Program.Safe.bind (safe_held (c := .writeRegister _ _) hq₁.1 fun _ => ?_)
  refine Program.Safe.bind (safe_held (c := .writeRegister _ _) hq₁.1 fun _ => ?_)
  refine Program.Safe.bind (safe_held (c := .writeRegister _ _) hq₁.1 fun _ => ?_)
  exact Program.Safe.bind (safe_held (c := .writeRegister _ _) hq₁.1 fun _ => .done trivial)

/-- Setting the MAC address changes nothing else. -/
theorem framed_setMacAddress (mac : BitVec 48) :
    (ndoSetMacAddress mac).Safe (Program.keeping Host.Responds) Framing (fun _ _ => True) (b, s) := by
  unfold ndoSetMacAddress
  split
  · exact .done trivial
  · refine Program.Safe.bind (safe_framed (c := .writeRegister _ _) fun _ => ⟨Or.inr ⟨_, rfl⟩, ?_⟩)
    exact Program.Safe.bind (safe_framed (c := .writeRegister _ _) fun _ => ⟨Or.inr ⟨_, rfl⟩, .done trivial⟩)

/-- An address is written within one request. -/
theorem framed_notifierCall (event : NetdevEvent) (ifaAddress ifaMask : BitVec 32) (gateway : Option (BitVec 32)) :
    (notifierCall event ifaAddress ifaMask gateway).Safe (Program.keeping Host.Responds) Framing (fun _ _ => True) (b, s) := by
  have hwrites (gw4 : BitVec 32) {b s : Host} : (notifierWrites event ifaAddress ifaMask gw4).Safe
      (Program.keeping Host.Responds) Framing (fun _ _ => True) (b, s) := by
    cases event with
    | up =>
      refine Program.Safe.bind (safe_assert ?_)
      refine Program.Safe.bind (safe_held (c := .writeRegister _ _) rfl fun _ => ?_)
      refine Program.Safe.bind (safe_held (c := .writeRegister _ _) rfl fun _ => ?_)
      refine Program.Safe.bind (safe_held (c := .writeRegister _ _) rfl fun _ => ?_)
      exact safe_held (c := .writeRegister _ _) rfl fun _ => trivial
    | down => exact safe_assert trivial
    | other => exact .done trivial
  refine Program.Safe.bind (Program.Safe.bind (safe_framed (c := .params) fun _ => ⟨framing_of_regs rfl, ?_⟩))
  cases gateway with
  | some gw4 => exact .done (hwrites gw4)
  | none => exact safe_framed (c := .in4Pton _) fun _ => ⟨framing_of_regs rfl, hwrites _⟩

/-- Each step of a call is taken with the reset requested, or changes nothing but the MAC address. -/
theorem framed_call (c : Call) :
    (c.code kstrtoul).Safe (Program.keeping Host.Responds) Framing (fun _ _ => True) (b, s) := by
  cases c with
  | ndoOpen =>
    refine Program.Safe.bind (safe_framed (c := .setRunning true) fun _ => ⟨framing_of_regs rfl, ?_⟩)
    refine Program.Safe.bind (framed_ndoOpen.mono fun ret q _ => ?_)
    split
    · exact .done trivial
    · exact safe_framed (c := .setRunning false) fun _ => ⟨framing_of_regs rfl, trivial⟩
  | ndoStop =>
    refine Program.Safe.bind (framed_ndoStop.mono fun _ q _ => ?_)
    exact safe_framed (c := .setRunning false) fun _ => ⟨framing_of_regs rfl, trivial⟩
  | devlinkSetU16 => exact Program.Safe.bind ((framed_devlinkSet _).mono fun _ _ _ => .done trivial)
  | devlinkSetString => exact Program.Safe.bind ((framed_devlinkSet _).mono fun _ _ _ => .done trivial)
  | setMacAddress mac => exact Program.Safe.bind ((framed_setMacAddress mac).mono fun _ _ _ => .done trivial)
  | inetaddr event ifaAddress ifaMask gateway => exact framed_notifierCall event ifaAddress ifaMask gateway

end Calls

section Cycle

variable {t : DriverRun} {i : DriverCycle} {kstrtoul : List Char → Option ℕ}

/-- The controller sees the register write of the driver. -/
theorem core_step : (t.step kstrtoul i).core = t.core.step (t.resetCycle i) := by
  have hregs : (t.hostNext i.event).regs = t.core.regsNext (t.resetCycle i) := by
    unfold hostNext ResetCore.regsNext resetCycle write
    cases i.event with
    | idle | invoke c | finish => rfl
    | answer e =>
      cases t.progress with
      | none => rfl
      | some p =>
        cases p with
        | done => rfl
        | perform c next => cases c <;> rfl
  have hcore : (t.step kstrtoul i).core = { t.core.step (t.resetCycle i) with regs := (t.hostNext i.event).regs } := rfl
  rw [hcore, hregs]
  rfl

/-- The configuration that is not in force yet will be latched: the reset is requested, waits or is held. -/
structure Tracked (t : DriverRun) : Prop where
  sound : t.core.Sound
  coming : t.handler.rstRequested = true ∨ t.core.rstGlobal = true ∨ t.latched = t.host.regs.config
  inForce : t.InForce
  /-- The rest of the call keeps to its frame. -/
  framed : ∀ p, t.progress = some p → ∃ b, p.Safe (Program.keeping Host.Responds) Framing (fun _ _ => True) (b, t.host)

theorem tracked_start : start.Tracked where
  sound := ResetCore.sound_start
  coming := Or.inr (Or.inl rfl)
  inForce := fun _ _ => rfl
  framed := fun _ h => absurd h (by simp [start])

/-- What the driver does in one cycle: it starts a call, takes a step of one, or leaves the registers. -/
theorem driver_cases (kstrtoul : List Char → Option ℕ) (t : DriverRun) (i : DriverCycle) :
    (∃ c : Call, (t.step kstrtoul i).host = t.host ∧ (t.step kstrtoul i).progress = some (c.code kstrtoul)) ∨
    (∃ e c next, t.progress = some (.perform c next) ∧ (t.step kstrtoul i).host = (t.host.perform e c).2 ∧
      (t.step kstrtoul i).progress = some (next (t.host.perform e c).1)) ∨
    (t.step kstrtoul i).host = t.host ∧
      ((t.step kstrtoul i).progress = none ∨ (t.step kstrtoul i).progress = t.progress) := by
  have hhost : (t.step kstrtoul i).host = t.hostNext i.event := rfl
  have hnext : (t.step kstrtoul i).progress = t.progressNext kstrtoul i.event := rfl
  rw [hhost, hnext]
  unfold hostNext progressNext
  cases i.event with
  | idle => exact Or.inr (Or.inr ⟨rfl, Or.inr rfl⟩)
  | invoke c =>
    cases t.progress with
    | none => exact Or.inl ⟨c, rfl, rfl⟩
    | some p => exact Or.inr (Or.inr ⟨rfl, Or.inr rfl⟩)
  | answer e =>
    cases t.progress with
    | none => exact Or.inr (Or.inr ⟨rfl, Or.inr rfl⟩)
    | some p =>
      cases p with
      | done => exact Or.inr (Or.inr ⟨rfl, Or.inr rfl⟩)
      | perform c next => exact Or.inr (Or.inl ⟨e, c, next, rfl, rfl, rfl⟩)
  | finish =>
    cases t.progress with
    | none => exact Or.inr (Or.inr ⟨rfl, Or.inl rfl⟩)
    | some p =>
      cases p with
      | done => exact Or.inr (Or.inr ⟨rfl, Or.inl rfl⟩)
      | perform c next => exact Or.inr (Or.inr ⟨rfl, Or.inr rfl⟩)

/-- The write of a cycle is framed, and so is the rest of the call. -/
theorem Tracked.framed_step (h : t.Tracked) : Framing (t.host, (t.step kstrtoul i).host) ∧
    ∀ p, (t.step kstrtoul i).progress = some p →
      ∃ b, p.Safe (Program.keeping Host.Responds) Framing (fun _ _ => True) (b, (t.step kstrtoul i).host) := by
  obtain ⟨c, hhost, hprogress⟩ | ⟨e, c, next, hbefore, hhost, hprogress⟩ | ⟨hhost, hprogress⟩ := driver_cases kstrtoul t i
  · rw [hhost, hprogress]
    exact ⟨framing_of_regs rfl, fun p hp => ⟨t.host, Option.some.inj hp ▸ framed_call c⟩⟩
  · obtain ⟨b, hsafe⟩ := h.framed _ hbefore
    have hr : Program.keeping Host.Responds (b, t.host) c (t.host.perform e c).1 (t.host, (t.host.perform e c).2) :=
      ⟨rfl, e, rfl⟩
    rw [hhost, hprogress]
    cases hsafe with
    | perform hinv hnext => exact ⟨hinv _ _ hr, fun p hp => ⟨t.host, Option.some.inj hp ▸ hnext _ _ hr⟩⟩
  · rw [hhost]
    refine ⟨framing_of_regs rfl, fun p hp => ?_⟩
    rcases hprogress with hnone | hsame
    · exact absurd (hnone.symm.trans hp) (by simp)
    · exact h.framed p (hsame ▸ hp)

/-- Where a value is written outside the reset, the reset is still to come. -/
theorem Tracked.coming_step (h : t.Tracked) (hmac : t.MacBeforeReset i) :
    (t.step kstrtoul i).handler.rstRequested = true ∨ (t.step kstrtoul i).core.rstGlobal = true ∨
      (t.step kstrtoul i).latched = (t.step kstrtoul i).host.regs.config := by
  have hcore : (t.step kstrtoul i).core = t.core.step (t.resetCycle i) := core_step
  have hregs : (t.step kstrtoul i).host.regs = t.core.regsNext (t.resetCycle i) := congrArg ResetCore.regs hcore
  cases hbefore : t.host.regs.userRst with
  | true => exact Or.inl (ResetCore.rstRequested_step (i := t.resetCycle i) (t := t.core) hbefore)
  | false =>
    have hrequested : (t.step kstrtoul i).handler.rstRequested = (!t.core.rstGlobal && t.handler.rstRequested) :=
      ResetCore.rstRequested_step_of_released (i := t.resetCycle i) (t := t.core) hbefore
    have hlatched : (t.step kstrtoul i).latched = if t.core.rstGlobal then t.host.regs.config else t.latched := rfl
    by_cases hsame : (t.step kstrtoul i).host.regs.config = t.host.regs.config
    · rw [hrequested, hlatched, hsame]
      cases hrst : t.core.rstGlobal with
      | true => exact Or.inr (Or.inr rfl)
      | false =>
        rcases h.coming with hwaiting | hheld | hlatched
        · exact Or.inl hwaiting
        · exact absurd (hrst.symm.trans hheld) Bool.false_ne_true
        · exact Or.inr (Or.inr hlatched)
    · have hframing : Framing (t.host, (t.step kstrtoul i).host) := h.framed_step.1
      obtain hheld | ⟨mac, hmacOnly⟩ := hframing
      · exact absurd (hbefore.symm.trans hheld) Bool.false_ne_true
      have hchanged : (t.step kstrtoul i).host.regs.localMac ≠ t.host.regs.localMac := by
        intro heq
        have hmacEq : mac = t.host.regs.localMac := (congrArg ControllerConfig.localMac hmacOnly).symm.trans heq
        exact hsame (by rw [hmacOnly, hmacEq]; rfl)
      rw [hrequested, hcore]
      cases hwrite : t.write i.event with
      | none =>
        have hkept : (t.step kstrtoul i).host.regs = t.host.regs := by
          rw [hregs]
          unfold ResetCore.regsNext resetCycle
          rw [hwrite]
          rfl
        exact absurd (congrArg ConfigRegs.localMac hkept) hchanged
      | some w =>
        have hwritten : (t.step kstrtoul i).host.regs = t.host.regs.write w.1 w.2 := by
          rw [hregs]
          unfold ResetCore.regsNext resetCycle
          rw [hwrite]
          rfl
        rw [hwritten] at hchanged
        rcases hmac w hwrite hchanged with hheld | hdisabled | ⟨hwaiting, hserved⟩
        · exact absurd (hbefore.symm.trans hheld) Bool.false_ne_true
        · exact Or.inr (Or.inl (ResetCore.rstGlobal_step_of_disabled hdisabled))
        · rw [hwaiting, h.sound.rstGlobal_step_of_requested hwaiting]
          rcases hserved with hrst | hbusy
          · exact Or.inl (by rw [hrst]; rfl)
          · exact Or.inr (Or.inl (by rw [hbusy]; rfl))

/-- A cycle after which no call is in progress leaves the registers. -/
theorem host_of_progress (hnone : (t.step kstrtoul i).progress = none) : (t.step kstrtoul i).host = t.host := by
  obtain ⟨c, -, hprogress⟩ | ⟨e, c, next, -, -, hprogress⟩ | ⟨hhost, -⟩ := driver_cases kstrtoul t i
  · exact absurd (hnone.symm.trans hprogress) (by simp)
  · exact absurd (hnone.symm.trans hprogress) (by simp)
  · exact hhost

/-- When the registers rest, what is coming is in force once no reset is pending. -/
theorem Tracked.inForce_step (h : t.Tracked) : (t.step kstrtoul i).InForce := by
  intro hnone hcalm
  have hlatched : (t.step kstrtoul i).latched = if t.core.rstGlobal then t.host.regs.config else t.latched := rfl
  rw [host_of_progress hnone, hlatched]
  cases hrst : t.core.rstGlobal with
  | true => rfl
  | false =>
    rcases h.coming with hwaiting | hheld | hinForce
    · cases hbefore : t.host.regs.userRst with
      | true => exact absurd (hcalm.symm.trans (ResetCore.rstRequested_step (t := t.core) (i := t.resetCycle i) hbefore)) Bool.false_ne_true
      | false =>
        have hrequested : (t.step kstrtoul i).handler.rstRequested = (!t.core.rstGlobal && t.handler.rstRequested) :=
          ResetCore.rstRequested_step_of_released (t := t.core) (i := t.resetCycle i) hbefore
        rw [hrst, hwaiting] at hrequested
        exact absurd (hcalm.symm.trans hrequested) Bool.false_ne_true
    · exact absurd (hrst.symm.trans hheld) Bool.false_ne_true
    · exact hinForce

/-- Each cycle keeps track. -/
theorem Tracked.step (h : t.Tracked) (hmac : t.MacBeforeReset i) : (t.step kstrtoul i).Tracked where
  sound := by
    rw [core_step]
    exact h.sound.step
  coming := h.coming_step hmac
  inForce := h.inForce_step
  framed := h.framed_step.2

end Cycle

/-- In every run in which the MAC address only changes before a reset, the controller works with the registers whenever no
call is in progress and no reset is pending. -/
theorem inForce_of_macBeforeReset {kstrtoul : List Char → Option ℕ} {t : DriverRun}
    (h : ((machine kstrtoul).restrict MacBeforeReset).Reachable start t) : t.InForce :=
  (Clocked.Machine.invariant (m := (machine kstrtoul).restrict MacBeforeReset) tracked_start
    (fun _ _ ht hi => ht.step hi.2) h).inForce

/-- A cycle of the driver without transfers. -/
def quietly (event : DriverEvent) : DriverCycle := ⟨event, ⟨false, false, false, false, false⟩⟩

/-- The call is started, its steps are answered, and it returns. -/
def calls (c : Call) (steps : ℕ) : List DriverCycle :=
  quietly (.invoke c) :: List.replicate steps (quietly (.answer ⟨Operation.quiet, none, 0⟩)) ++ [quietly .finish]

/-- A MAC address, then an IP address, and the reset is served. -/
def configured : List DriverCycle :=
  calls (.setMacAddress 0x020000000001) 2 ++ calls (.inetaddr .up 0xc0a80132 0xffffff00 (some 0xc0a801fe)) 6 ++
    List.replicate 3 (quietly .idle)

/-- Both are in force. -/
theorem inForce_configured : ((machine fun _ => none).run start configured).latched =
    ((machine fun _ => none).run start configured).host.regs.config :=
  inForce_of_macBeforeReset ⟨configured, by decide, rfl⟩ rfl (by decide)

/-- The MAC address is set on a device that is out of reset. -/
theorem not_inForce : ¬ ∀ t, (machine fun _ => none).Reachable start t → t.InForce := by
  intro hall
  have hlegal : (machine fun _ => none).Legal start (configured ++ calls (.setMacAddress 0x020000000002) 2) := by decide
  exact absurd (hall _ ⟨_, hlegal, rfl⟩ rfl (by decide)) (by decide)

end DriverRun

end UdpIpCore
