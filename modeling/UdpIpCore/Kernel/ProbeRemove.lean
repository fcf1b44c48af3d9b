import UdpIpCore.Clocked
import UdpIpCore.Kernel.Driver
import UdpIpCore.Ledger

/-!
# Probe and remove

`udp_core_probe` acquires the resources of the driver one after the other, and all its failures
go through `udp_core_remove`, which releases what the driver data seem to name. Each call of the
kernel is an entry of a ledger. The ledger stays exact only where nothing is left to
`udp_core_remove`, or all of it.
-/

namespace UdpIpCore

namespace Kernel

open Interaction Ledger

/-- What the driver acquires. -/
inductive Resource
  | devlink
  | devlinkRegistration
  | devlinkParams
  | region
  | irq
  | netdev
  | netdevRegistration
  | notifier
  | napi
deriving DecidableEq

/-- What a function of the kernel returns as a pointer: NULL, an `ERR_PTR` or an object. -/
inductive Pointer
  | null
  | err
  | object
deriving DecidableEq

/-- `struct udp_core_drv_data`, as far as the clean-up looks at it. -/
structure DrvData where
  region : Pointer
  /-- `irq_descriptor.irqn`. -/
  irqn : Int

/-- The calls of the kernel. -/
inductive ProbeCmd
  /-- `devlink_alloc` does not return NULL. -/
  | devlinkAlloc
  | devlinkRegister
  | devlinkParamsRegister
  | platformSetDrvdata (p : DrvData)
  | platformGetDrvdata
  /-- `devm_platform_ioremap_resource` and `devm_regmap_init_mmio` do not return an `ERR_PTR`. -/
  | devmPlatformIoremapResource
  | devmRegmapInitMmio
  | devlinkRegionCreate
  | platformIrqCount
  | platformGetIrq
  | requestIrq (irqn : Int)
  /-- `alloc_etherdev` does not return NULL. -/
  | allocEtherdev
  | registerNetdev
  | registerInetaddrNotifier
  | netifNapiAdd
  /-- The function of the kernel that releases a resource. -/
  | release (r : Resource)

/-- What a call returns. -/
abbrev ProbeCmd.Response : ProbeCmd → Type
  | devlinkAlloc | devmPlatformIoremapResource | devmRegmapInitMmio | allocEtherdev => Bool
  | devlinkRegister | devlinkParamsRegister | platformIrqCount | platformGetIrq | requestIrq _ | registerNetdev => Int
  | platformGetDrvdata => Option DrvData
  | devlinkRegionCreate => Pointer
  | platformSetDrvdata _ | registerInetaddrNotifier | netifNapiAdd | release _ => Unit

/-- A function of the driver that is called at probe or remove. -/
abbrev ProbeCode := Program ProbeCmd ProbeCmd.Response

/-- `-EIO`. -/
def eio : Int := -5

/-- The functions that release a resource. -/
def devlinkFree : ProbeCode Unit := Program.command (ProbeCmd.release .devlink)
def devlinkUnregister : ProbeCode Unit := Program.command (ProbeCmd.release .devlinkRegistration)
def devlinkParamsUnregister : ProbeCode Unit := Program.command (ProbeCmd.release .devlinkParams)
def devlinkRegionDestroy : ProbeCode Unit := Program.command (ProbeCmd.release .region)
def freeIrq : ProbeCode Unit := Program.command (ProbeCmd.release .irq)
def freeNetdev : ProbeCode Unit := Program.command (ProbeCmd.release .netdev)
def unregisterNetdev : ProbeCode Unit := Program.command (ProbeCmd.release .netdevRegistration)
def unregisterInetaddrNotifier : ProbeCode Unit := Program.command (ProbeCmd.release .notifier)
def netifNapiDel : ProbeCode Unit := Program.command (ProbeCmd.release .napi)

/-- A field of the driver data is written. -/
def updateDrvdata (f : DrvData → DrvData) : ProbeCode Unit := do
  match ← Program.command ProbeCmd.platformGetDrvdata with
  | none => return
  | some p => Program.command (ProbeCmd.platformSetDrvdata (f p))

/-- `udp_core_devlink_init`. -/
def devlinkInit : ProbeCode Int := do
  if (← Program.command ProbeCmd.devlinkAlloc) = false then return einval
  if (← Program.command ProbeCmd.devlinkRegister) ≠ 0 then
    devlinkFree
    return einval
  if (← Program.command ProbeCmd.devlinkParamsRegister) ≠ 0 then
    devlinkUnregister
    devlinkFree
    return einval
  return 0

/-- `udp_core_devmem_init`. -/
def devmemInit : ProbeCode Int := do
  if (← Program.command ProbeCmd.devmPlatformIoremapResource) = false then return eio
  if (← Program.command ProbeCmd.devmRegmapInitMmio) = false then return einval
  return 0

/-- `udp_core_devlink_init_region`. -/
def devlinkInitRegion : ProbeCode Int := do
  let region ← Program.command ProbeCmd.devlinkRegionCreate
  updateDrvdata fun p => { p with region := region }
  if region = .null then return einval
  return 0

/-- `udp_core_register_irq`. -/
def registerIrq : ProbeCode Int := do
  let irqn ← Program.command ProbeCmd.platformGetIrq
  if irqn < 0 then return irqn
  let req ← Program.command (ProbeCmd.requestIrq irqn)
  if req ≠ 0 then return req
  return irqn

/-- `udp_core_irq_deinit`. -/
def irqDeinit : ProbeCode Unit := do
  match ← Program.command ProbeCmd.platformGetDrvdata with
  | none => return
  | some p => if p.irqn ≠ 0 then freeIrq

/-- `udp_core_irq_init`. -/
def irqInit : ProbeCode Int := do
  if (← Program.command ProbeCmd.platformIrqCount) < 1 then return einval
  let irqn ← registerIrq
  updateDrvdata fun p => { p with irqn := irqn }
  if irqn < 0 then
    irqDeinit
    return einval
  return 0

/-- `udp_core_netdev_init`. -/
def netdevInit : ProbeCode Int := do
  if (← Program.command ProbeCmd.allocEtherdev) = false then return enomem
  let retval ← Program.command ProbeCmd.registerNetdev
  if retval < 0 then
    freeNetdev
    return retval
  Program.command ProbeCmd.registerInetaddrNotifier
  Program.command ProbeCmd.netifNapiAdd
  return 0

/-- `udp_core_netdev_deinit`, which does not look whether there is a network device. -/
def netdevDeinit : ProbeCode Unit := do
  match ← Program.command ProbeCmd.platformGetDrvdata with
  | none => return
  | some _ =>
    unregisterInetaddrNotifier
    netifNapiDel
    unregisterNetdev
    freeNetdev

/-- `udp_core_devlink_deinit`. -/
def devlinkDeinit : ProbeCode Unit := do
  match ← Program.command ProbeCmd.platformGetDrvdata with
  | none => return
  | some p =>
    if p.region ≠ .null then devlinkRegionDestroy
    devlinkParamsUnregister
    devlinkUnregister
    devlinkFree

/-- `udp_core_remove`. -/
def remove : ProbeCode Unit := do
  netdevDeinit
  irqDeinit
  devlinkDeinit

/-- `init_fail` of `udp_core_probe`. -/
def initFail (retval : Int) : ProbeCode Int := do
  remove
  return retval

/-- `udp_core_probe`. -/
def probe : ProbeCode Int := do
  let retval ← devlinkInit
  if retval < 0 then initFail retval
  else
    Program.command (ProbeCmd.platformSetDrvdata ⟨.null, 0⟩)
    let retval ← devmemInit
    if retval < 0 then initFail retval
    else
      let retval ← devlinkInitRegion
      if retval < 0 then initFail retval
      else
        let retval ← irqInit
        if retval < 0 then initFail retval
        else
          let retval ← netdevInit
          if retval < 0 then initFail retval
          else return 0

/-- An attempt: a probe, and the remove if it succeeds. -/
def attempt : ProbeCode Unit := do
  let retval ← probe
  if retval = 0 then remove

/-- What the kernel answers in an attempt. -/
structure Answers where
  devlinkAlloc : Bool
  devlinkRegister : Int
  devlinkParamsRegister : Int
  devmPlatformIoremapResource : Bool
  devmRegmapInitMmio : Bool
  devlinkRegionCreate : Pointer
  platformIrqCount : Int
  platformGetIrq : Int
  requestIrq : Int
  allocEtherdev : Bool
  registerNetdev : Int

/-- The driver data of the platform device, and the ledger. -/
structure Pdev where
  drvdata : Option DrvData
  log : List (Entry Resource)

namespace Pdev

/-- An entry is made, if the call was successful. -/
def enter (s : Pdev) (successful : Bool) (entry : Entry Resource) : Pdev :=
  if successful then { s with log := s.log ++ [entry] } else s

/-- One call of the kernel. -/
def execute (k : Answers) (s : Pdev) : (c : ProbeCmd) → c.Response × Pdev
  | .devlinkAlloc => (k.devlinkAlloc, s.enter k.devlinkAlloc (.acquire .devlink))
  | .devlinkRegister => (k.devlinkRegister, s.enter (k.devlinkRegister == 0) (.acquire .devlinkRegistration))
  | .devlinkParamsRegister =>
    (k.devlinkParamsRegister, s.enter (k.devlinkParamsRegister == 0) (.acquire .devlinkParams))
  | .platformSetDrvdata p => ((), { s with drvdata := some p })
  | .platformGetDrvdata => (s.drvdata, s)
  | .devmPlatformIoremapResource => (k.devmPlatformIoremapResource, s)
  | .devmRegmapInitMmio => (k.devmRegmapInitMmio, s)
  | .devlinkRegionCreate => (k.devlinkRegionCreate, s.enter (k.devlinkRegionCreate == .object) (.acquire .region))
  | .platformIrqCount => (k.platformIrqCount, s)
  | .platformGetIrq => (k.platformGetIrq, s)
  | .requestIrq _ => (k.requestIrq, s.enter (k.requestIrq == 0) (.acquire .irq))
  | .allocEtherdev => (k.allocEtherdev, s.enter k.allocEtherdev (.acquire .netdev))
  | .registerNetdev => (k.registerNetdev, s.enter (decide (0 ≤ k.registerNetdev)) (.acquire .netdevRegistration))
  | .registerInetaddrNotifier => ((), s.enter true (.acquire .notifier))
  | .netifNapiAdd => ((), s.enter true (.acquire .napi))
  | .release r => ((), s.enter true (.release r))

/-- The platform device after an attempt; the driver core clears the driver data. -/
def attempted (s : Pdev) (k : Answers) : Pdev := ⟨none, (attempt.eval (execute k) s).2.log⟩

/-- A sequence of attempts. -/
def attempts : Clocked.Machine Pdev Answers where
  step := attempted
  legal := fun _ _ => True

/-- After the attempt every resource was released exactly once, and nothing else was released. -/
def Unwound (s : Pdev) (k : Answers) : Prop := Exact (s.attempted k).log

end Pdev

namespace Answers

/-- `udp_core_devlink_init` fails. -/
def DevlinkFails (k : Answers) : Prop :=
  k.devlinkAlloc = false ∨ k.devlinkRegister ≠ 0 ∨ k.devlinkParamsRegister ≠ 0

/-- No call fails. -/
structure Succeeds (k : Answers) : Prop where
  devlinkAlloc : k.devlinkAlloc = true
  devlinkRegister : k.devlinkRegister = 0
  devlinkParamsRegister : k.devlinkParamsRegister = 0
  devmPlatformIoremapResource : k.devmPlatformIoremapResource = true
  devmRegmapInitMmio : k.devmRegmapInitMmio = true
  devlinkRegionCreate : k.devlinkRegionCreate = .object
  platformIrqCount : 1 ≤ k.platformIrqCount
  platformGetIrq : 0 < k.platformGetIrq
  requestIrq : k.requestIrq = 0
  allocEtherdev : k.allocEtherdev = true
  registerNetdev : 0 ≤ k.registerNetdev

end Answers

open Pdev

section Unwinding

variable {k : Answers} {s : Pdev} {p : DrvData} {log : List (Entry Resource)}

/-- An entry of a successful call. -/
theorem enter_true (entry : Entry Resource) : s.enter true entry = { s with log := s.log ++ [entry] } := rfl

/-- A call that fails leaves no entry. -/
theorem enter_false (entry : Entry Resource) : s.enter false entry = s := rfl

/-- The releases of `udp_core_remove`, with those of the interrupt and the region if they seem to be there. -/
def removed (irq region : Bool) : List (Entry Resource) :=
  [Entry.release Resource.notifier, Entry.release Resource.napi, Entry.release Resource.netdevRegistration,
      Entry.release Resource.netdev] ++
    (if irq then [Entry.release Resource.irq] else []) ++ (if region then [Entry.release Resource.region] else []) ++
    [Entry.release Resource.devlinkParams, Entry.release Resource.devlinkRegistration, Entry.release Resource.devlink]

/-- `udp_core_remove` releases whatever the driver data seem to name. -/
theorem eval_remove : (remove.eval (execute k) ⟨some p, log⟩).2 =
    ⟨some p, log ++ removed (p.irqn != 0) (p.region != .null)⟩ := by
  unfold remove netdevDeinit irqDeinit devlinkDeinit
  by_cases hirq : p.irqn = 0 <;> by_cases hregion : p.region = .null <;>
    simp [removed, execute, Pdev.enter, hirq, hregion, unregisterInetaddrNotifier, netifNapiDel, unregisterNetdev,
      freeNetdev, freeIrq, devlinkRegionDestroy, devlinkParamsUnregister, devlinkUnregister, devlinkFree]

/-- Without driver data it does nothing. -/
theorem eval_remove_none : (remove.eval (execute k) ⟨none, log⟩).2 = ⟨none, log⟩ := by
  simp [remove, netdevDeinit, irqDeinit, devlinkDeinit, execute]

/-- `udp_core_devlink_init` cleans up after itself. -/
theorem eval_devlinkInit_of_fails (h : k.DevlinkFails) : ∃ entries, Exact entries ∧
    devlinkInit.eval (execute k) ⟨none, log⟩ = (einval, ⟨none, log ++ entries⟩) := by
  unfold devlinkInit
  by_cases halloc : k.devlinkAlloc = false
  · refine ⟨[], exact_nil, ?_⟩
    simp [execute, halloc, enter_false]
  by_cases hregister : k.devlinkRegister = 0
  · have hparams : k.devlinkParamsRegister ≠ 0 := (h.resolve_left halloc).resolve_left fun hne => hne hregister
    refine ⟨[.acquire .devlink, .acquire .devlinkRegistration, .release .devlinkRegistration, .release .devlink],
      by decide, ?_⟩
    simp [execute, halloc, hregister, hparams, Pdev.enter, devlinkFree, devlinkUnregister]
  · refine ⟨[.acquire .devlink, .release .devlink], by decide, ?_⟩
    simp [execute, halloc, hregister, Pdev.enter, devlinkFree]

/-- What it acquires if it does not fail. -/
theorem eval_devlinkInit (h : ¬ k.DevlinkFails) : devlinkInit.eval (execute k) s =
    (0, { s with log := s.log ++ [.acquire .devlink, .acquire .devlinkRegistration, .acquire .devlinkParams] }) := by
  simp only [Answers.DevlinkFails, not_or, Bool.not_eq_false, ne_eq, not_not] at h
  obtain ⟨halloc, hregister, hparams⟩ := h
  unfold devlinkInit
  simp [execute, halloc, hregister, hparams, Pdev.enter]

/-- The driver data are set, and the notifier was not registered. -/
def Grown (log : List (Entry Resource)) (s : Pdev) : Prop :=
  ∃ p mid, s = ⟨some p, log ++ mid⟩ ∧ Entry.acquire Resource.notifier ∉ mid

/-- Any other entry may follow. -/
theorem Grown.enter (h : Grown log s) (entry : Entry Resource) (hentry : Entry.acquire Resource.notifier ≠ entry)
    (successful : Bool) : Grown log (s.enter successful entry) := by
  obtain ⟨p, mid, rfl, hmid⟩ := h
  cases successful with
  | false => exact ⟨p, mid, rfl, hmid⟩
  | true =>
    refine ⟨p, mid ++ [entry], ?_, ?_⟩
    · rw [enter_true, List.append_assoc]
    · rw [List.mem_append, List.mem_singleton, not_or]
      exact ⟨hmid, hentry⟩

/-- The driver data may be written. -/
theorem Grown.updateDrvdata (h : Grown log s) (f : DrvData → DrvData) :
    Grown log ((updateDrvdata f).eval (execute k) s).2 := by
  obtain ⟨p, mid, rfl, hmid⟩ := h
  exact ⟨f p, mid, rfl, hmid⟩

/-- No function registers the notifier, unless it succeeds and is the last one. -/
theorem Grown.devmemInit (h : Grown log s) : Grown log (devmemInit.eval (execute k) s).2 := by
  have hsame : (Kernel.devmemInit.eval (execute k) s).2 = s := by
    unfold Kernel.devmemInit
    cases hmap : k.devmPlatformIoremapResource <;> cases hregmap : k.devmRegmapInitMmio <;> simp [execute, hmap, hregmap]
  rwa [hsame]

theorem Grown.devlinkInitRegion (h : Grown log s) : Grown log (devlinkInitRegion.eval (execute k) s).2 := by
  have hentered := h.enter (.acquire .region) (by decide) (k.devlinkRegionCreate == .object)
  have hupdated := hentered.updateDrvdata (k := k) fun p => { p with region := k.devlinkRegionCreate }
  unfold Kernel.devlinkInitRegion
  by_cases hnull : k.devlinkRegionCreate = .null
  · simpa [execute, hnull] using hupdated
  · simpa [execute, hnull] using hupdated

theorem Grown.registerIrq (h : Grown log s) : Grown log (registerIrq.eval (execute k) s).2 := by
  have hentered := h.enter (.acquire .irq) (by decide) (k.requestIrq == 0)
  unfold Kernel.registerIrq
  by_cases hirqn : k.platformGetIrq < 0
  · simpa [execute, hirqn] using h
  · by_cases hreq : k.requestIrq = 0 <;> simpa [execute, hirqn, hreq] using hentered

theorem Grown.irqDeinit (h : Grown log s) : Grown log (irqDeinit.eval (execute k) s).2 := by
  have hentered := h.enter (.release .irq) (by decide) true
  obtain ⟨p, mid, rfl, hmid⟩ := h
  unfold Kernel.irqDeinit
  by_cases hirqn : p.irqn = 0
  · simpa [execute, hirqn] using ⟨p, mid, rfl, hmid⟩
  · simpa [execute, hirqn, freeIrq] using hentered

theorem Grown.irqInit (h : Grown log s) : Grown log (irqInit.eval (execute k) s).2 := by
  have hupdated := h.registerIrq (k := k) |>.updateDrvdata (k := k)
    fun p => { p with irqn := (Kernel.registerIrq.eval (execute k) s).1 }
  unfold Kernel.irqInit
  by_cases hcount : k.platformIrqCount < 1
  · simpa [execute, hcount] using h
  · by_cases hirqn : (Kernel.registerIrq.eval (execute k) s).1 < 0
    · simpa [execute, hcount, hirqn] using hupdated.irqDeinit (k := k)
    · simpa [execute, hcount, hirqn] using hupdated

theorem Grown.netdevInit (h : Grown log s) (hfails : (netdevInit.eval (execute k) s).1 < 0) :
    Grown log (netdevInit.eval (execute k) s).2 := by
  unfold Kernel.netdevInit at hfails ⊢
  cases halloc : k.allocEtherdev with
  | false => simpa [execute, halloc, enter_false] using h
  | true =>
    have hfreed := (h.enter (.acquire .netdev) (by decide) true).enter (.release .netdev) (by decide) true
    by_cases hregister : k.registerNetdev < 0
    · simpa [execute, halloc, hregister, freeNetdev, enter_false, Int.not_le.mpr hregister] using hfreed
    · simp [execute, halloc, hregister] at hfails

/-- Each function fails, or the calls it checks did not. -/
theorem devmemInit_cases : (devmemInit.eval (execute k) s).1 < 0 ∨
    k.devmPlatformIoremapResource = true ∧ k.devmRegmapInitMmio = true ∧ devmemInit.eval (execute k) s = (0, s) := by
  unfold devmemInit
  cases hmap : k.devmPlatformIoremapResource <;> cases hregmap : k.devmRegmapInitMmio <;>
    simp [execute, hmap, hregmap, eio, einval]

/-- An `ERR_PTR` for the region is stored like a region. -/
theorem devlinkInitRegion_cases : (devlinkInitRegion.eval (execute k) ⟨some p, log⟩).1 < 0 ∨
    k.devlinkRegionCreate ≠ .null ∧ devlinkInitRegion.eval (execute k) ⟨some p, log⟩ =
      (0, ⟨some { p with region := k.devlinkRegionCreate },
        log ++ if k.devlinkRegionCreate = .object then [.acquire .region] else []⟩) := by
  unfold devlinkInitRegion
  cases hregion : k.devlinkRegionCreate <;>
    simp [execute, hregion, einval, updateDrvdata, Pdev.enter]

/-- A negative result, the interrupt number, or what `request_irq` returned. -/
theorem registerIrq_cases : (registerIrq.eval (execute k) s).1 < 0 ∨
    k.requestIrq = 0 ∧ 0 ≤ k.platformGetIrq ∧
      registerIrq.eval (execute k) s = (k.platformGetIrq, { s with log := s.log ++ [.acquire .irq] }) ∨
    0 < k.requestIrq ∧ registerIrq.eval (execute k) s = (k.requestIrq, s) := by
  unfold registerIrq
  by_cases hirqn : k.platformGetIrq < 0
  · left
    simp [execute, hirqn]
  · by_cases hreq : k.requestIrq = 0
    · right; left
      simpa [execute, hirqn, hreq, enter_true] using Int.not_lt.mp hirqn
    · obtain hneg | hpos := Int.lt_or_gt_of_ne hreq
      · left
        simpa [execute, hirqn, hreq] using hneg
      · right; right
        simpa [execute, hirqn, hreq, Pdev.enter] using hpos

theorem irqInit_cases : (irqInit.eval (execute k) ⟨some p, log⟩).1 < 0 ∨ 1 ≤ k.platformIrqCount ∧
    (k.requestIrq = 0 ∧ 0 ≤ k.platformGetIrq ∧ irqInit.eval (execute k) ⟨some p, log⟩ =
        (0, ⟨some { p with irqn := k.platformGetIrq }, log ++ [.acquire .irq]⟩) ∨
      0 < k.requestIrq ∧ irqInit.eval (execute k) ⟨some p, log⟩ = (0, ⟨some { p with irqn := k.requestIrq }, log⟩)) := by
  unfold irqInit
  by_cases hcount : k.platformIrqCount < 1
  · simp [execute, hcount, einval]
  · obtain hfails | ⟨hreq, hirqn, heval⟩ | ⟨hreq, heval⟩ := @registerIrq_cases k ⟨some p, log⟩
    · simp [execute, hcount, hfails, einval]
    · simp [execute, hcount, heval, hreq, updateDrvdata, Int.not_lt.mpr hirqn, hirqn]
      omega
    · have hnonneg : ¬ k.requestIrq < 0 := by omega
      simp [execute, hcount, heval, hreq, updateDrvdata, hnonneg]
      omega

theorem netdevInit_cases : (netdevInit.eval (execute k) s).1 < 0 ∨
    k.allocEtherdev = true ∧ 0 ≤ k.registerNetdev ∧ netdevInit.eval (execute k) s = (0, { s with log :=
      s.log ++ [.acquire .netdev, .acquire .netdevRegistration, .acquire .notifier, .acquire .napi] }) := by
  unfold netdevInit
  cases halloc : k.allocEtherdev with
  | false => simp [execute, halloc, enomem]
  | true =>
    by_cases hregister : k.registerNetdev < 0
    · simp [execute, halloc, hregister]
    · simp [execute, halloc, hregister, Pdev.enter, Int.not_lt.mp hregister]

/-- Whatever is left to `udp_core_remove` before the network device exists, it releases a notifier that is not there. -/
theorem not_exact_remove (hlog : Exact log) (h : Grown log s) : ¬ Exact (remove.eval (execute k) s).2.log := by
  obtain ⟨p, mid, rfl, hmid⟩ := h
  rw [eval_remove, List.append_assoc, exact_append_iff hlog]
  exact not_exact_of_not_mem hmid

/-- A probe that fails is cleaned up, and there is nothing to remove. -/
theorem attempted_of_probe {retval : Int} {s' : Pdev} (h : probe.eval (execute k) s = (retval, s')) (hret : retval < 0) :
    s.attempted k = ⟨none, s'.log⟩ := by
  simp [attempted, attempt, h, Int.ne_of_lt hret]

/-- Nothing is left to `udp_core_remove` where `udp_core_devlink_init` fails. -/
theorem unwound_of_devlinkFails (hlog : Exact log) (h : k.DevlinkFails) : Unwound ⟨none, log⟩ k := by
  obtain ⟨entries, hentries, heval⟩ := @eval_devlinkInit_of_fails k log h
  have hprobe : probe.eval (execute k) ⟨none, log⟩ = (einval, ⟨none, log ++ entries⟩) := by
    simp [probe, heval, initFail, eval_remove_none, einval]
  rw [Unwound, attempted_of_probe hprobe (by decide), exact_append_iff hlog]
  exact hentries

/-- A probe that succeeds is removed later. -/
theorem attempted_of_returns {log' : List (Entry Resource)} (h : probe.eval (execute k) s = (0, ⟨some p, log'⟩)) :
    s.attempted k = ⟨none, log' ++ removed (p.irqn != 0) (p.region != .null)⟩ := by
  simp [attempted, attempt, h, eval_remove]

/-- The ledger of an attempt in which no call fails. -/
theorem attempted_of_succeeds (h : k.Succeeds) : attempted ⟨none, log⟩ k = ⟨none, log ++
    [.acquire .devlink, .acquire .devlinkRegistration, .acquire .devlinkParams, .acquire .region, .acquire .irq,
      .acquire .netdev, .acquire .netdevRegistration, .acquire .notifier, .acquire .napi] ++
    removed true true⟩ := by
  have hinit : ¬ k.DevlinkFails := by
    simp [Answers.DevlinkFails, h.devlinkAlloc, h.devlinkRegister, h.devlinkParamsRegister]
  have hcount := h.platformIrqCount
  have hirqn := h.platformGetIrq
  have hnetdev := h.registerNetdev
  have hprobe : probe.eval (execute k) ⟨none, log⟩ = (0, ⟨some ⟨.object, k.platformGetIrq⟩, log ++
      [.acquire .devlink, .acquire .devlinkRegistration, .acquire .devlinkParams, .acquire .region, .acquire .irq,
        .acquire .netdev, .acquire .netdevRegistration, .acquire .notifier, .acquire .napi]⟩) := by
    simp [probe, eval_devlinkInit hinit, devmemInit, devlinkInitRegion, irqInit, registerIrq, netdevInit, execute,
      updateDrvdata, Pdev.enter, h.devmPlatformIoremapResource, h.devmRegmapInitMmio, h.devlinkRegionCreate, h.requestIrq,
      h.allocEtherdev, hcount, hirqn, hnetdev, Int.not_lt.mpr, Int.le_of_lt]
  have hseems : (k.platformGetIrq != 0) = true := bne_iff_ne.mpr (Int.ne_of_gt hirqn)
  rw [attempted_of_returns hprobe, hseems]
  rfl

/-- All is left to it where nothing fails. -/
theorem unwound_of_succeeds (hlog : Exact log) (h : k.Succeeds) : Unwound ⟨none, log⟩ k := by
  rw [Unwound, attempted_of_succeeds h, List.append_assoc, exact_append_iff hlog]
  decide

/-- A probe that was not refused by devlink: what a function leaves to `udp_core_remove` when it fails, or all of it. -/
theorem probe_cases {s₁ : Pdev} (hinit : devlinkInit.eval (execute k) ⟨none, log⟩ = (0, s₁))
    (hgrown : Grown log { s₁ with drvdata := some ⟨.null, 0⟩ }) :
    (∃ retval s', retval < 0 ∧ Grown log s' ∧
      probe.eval (execute k) ⟨none, log⟩ = (retval, (remove.eval (execute k) s').2)) ∨
    ∃ s₂ s₃ s₄ s₅, devmemInit.eval (execute k) { s₁ with drvdata := some ⟨.null, 0⟩ } = s₂ ∧
      devlinkInitRegion.eval (execute k) s₂.2 = s₃ ∧ irqInit.eval (execute k) s₃.2 = s₄ ∧
      netdevInit.eval (execute k) s₄.2 = s₅ ∧ ¬ s₂.1 < 0 ∧ ¬ s₃.1 < 0 ∧ ¬ s₄.1 < 0 ∧ ¬ s₅.1 < 0 ∧
      probe.eval (execute k) ⟨none, log⟩ = (0, s₅.2) := by
  have hmem := hgrown.devmemInit (k := k)
  have hregion := hmem.devlinkInitRegion (k := k)
  have hirq := hregion.irqInit (k := k)
  have hnetdev := hirq.netdevInit (k := k)
  generalize h₂ : devmemInit.eval (execute k) { s₁ with drvdata := some ⟨.null, 0⟩ } = s₂ at *
  generalize h₃ : devlinkInitRegion.eval (execute k) s₂.2 = s₃ at *
  generalize h₄ : irqInit.eval (execute k) s₃.2 = s₄ at *
  generalize h₅ : netdevInit.eval (execute k) s₄.2 = s₅ at *
  have hset : execute k s₁ (.platformSetDrvdata ⟨.null, 0⟩) = ((), { s₁ with drvdata := some ⟨.null, 0⟩ }) := rfl
  by_cases hret₂ : s₂.1 < 0
  · exact Or.inl ⟨s₂.1, s₂.2, hret₂, hmem, by simp [probe, hinit, hset, h₂, hret₂, initFail]⟩
  by_cases hret₃ : s₃.1 < 0
  · exact Or.inl ⟨s₃.1, s₃.2, hret₃, hregion, by simp [probe, hinit, hset, h₂, hret₂, h₃, hret₃, initFail]⟩
  by_cases hret₄ : s₄.1 < 0
  · exact Or.inl ⟨s₄.1, s₄.2, hret₄, hirq, by simp [probe, hinit, hset, h₂, hret₂, h₃, hret₃, h₄, hret₄, initFail]⟩
  by_cases hret₅ : s₅.1 < 0
  · exact Or.inl ⟨s₅.1, s₅.2, hret₅, hnetdev hret₅,
      by simp [probe, hinit, hset, h₂, hret₂, h₃, hret₃, h₄, hret₄, h₅, hret₅, initFail]⟩
  · exact Or.inr ⟨s₂, s₃, s₄, s₅, rfl, h₃, h₄, h₅, hret₂, hret₃, hret₄, hret₅,
      by simp [probe, hinit, hset, h₂, hret₂, h₃, hret₃, h₄, hret₄, h₅, hret₅]⟩

/-- An attempt that gets past `udp_core_devlink_init` and is unwound exactly did not fail at all. -/
theorem succeeds_of_unwound (hlog : Exact log) (h : ¬ k.DevlinkFails) (hunwound : Unwound ⟨none, log⟩ k) :
    k.Succeeds := by
  have hinit := eval_devlinkInit (s := ⟨none, log⟩) h
  simp only [Answers.DevlinkFails, not_or, Bool.not_eq_false, ne_eq, not_not] at h
  obtain ⟨halloc, hregister, hparams⟩ := h
  obtain ⟨retval, s', hret, hgrown, hprobe⟩ | ⟨s₂, s₃, s₄, s₅, h₂, h₃, h₄, h₅, hret₂, hret₃, hret₄, hret₅, hprobe⟩ :=
    probe_cases hinit ⟨_, _, rfl, by decide⟩
  · rw [Unwound, attempted_of_probe hprobe hret] at hunwound
    exact absurd hunwound (not_exact_remove hlog hgrown)
  obtain ⟨hmap, hregmap, hmem⟩ := devmemInit_cases.resolve_left (h₂ ▸ hret₂)
  obtain rfl := h₂.symm.trans hmem
  obtain ⟨hnull, hregion⟩ := devlinkInitRegion_cases.resolve_left (h₃ ▸ hret₃)
  obtain rfl := h₃.symm.trans hregion
  obtain ⟨hcount, hirq⟩ := irqInit_cases.resolve_left (h₄ ▸ hret₄)
  obtain ⟨hether, hreg, hnetdev⟩ := netdevInit_cases.resolve_left (h₅ ▸ hret₅)
  obtain rfl := h₅.symm.trans hnetdev
  obtain ⟨hreq, hirqn, hirq⟩ | ⟨hreq, hirq⟩ := hirq
  · obtain rfl := h₄.symm.trans hirq
    rw [Unwound, attempted_of_returns hprobe] at hunwound
    simp only [List.append_assoc, exact_append_iff hlog] at hunwound
    cases hzero : k.platformGetIrq != 0 with
    | false =>
      -- number 0 is taken for no interrupt
      cases hcreate : k.devlinkRegionCreate <;> rw [hcreate, hzero] at hunwound <;> exact absurd hunwound (by decide)
    | true =>
      cases hcreate : k.devlinkRegionCreate with
      | null => exact absurd hcreate hnull
      | err =>
        rw [hcreate, hzero] at hunwound
        exact absurd hunwound (by decide)
      | object =>
        have hne : k.platformGetIrq ≠ 0 := bne_iff_ne.mp hzero
        exact ⟨halloc, hregister, hparams, hmap, hregmap, hcreate, hcount, by omega, hreq, hether, hreg⟩
  · obtain rfl := h₄.symm.trans hirq
    rw [Unwound, attempted_of_returns hprobe] at hunwound
    simp only [List.append_assoc, exact_append_iff hlog] at hunwound
    have hseems : (k.requestIrq != 0) = true := bne_iff_ne.mpr (Int.ne_of_gt hreq)
    cases hcreate : k.devlinkRegionCreate <;> rw [hcreate, hseems] at hunwound <;> exact absurd hunwound (by decide)

/-- One attempt. -/
theorem unwound_iff (hlog : Exact log) : Unwound ⟨none, log⟩ k ↔ k.DevlinkFails ∨ k.Succeeds := by
  constructor
  · intro hunwound
    by_cases hdevlink : k.DevlinkFails
    · exact Or.inl hdevlink
    · exact Or.inr (succeeds_of_unwound hlog hdevlink hunwound)
  · rintro (hdevlink | hsucceeds)
    · exact unwound_of_devlinkFails hlog hdevlink
    · exact unwound_of_succeeds hlog hsucceeds

/-- In every sequence of attempts each of them is unwound exactly, if and only if each fails within
`udp_core_devlink_init` or does not fail at all. -/
theorem unwound_throughout_iff (ks : List Answers) :
    attempts.Throughout Unwound ⟨none, []⟩ ks ↔ ∀ k ∈ ks, k.DevlinkFails ∨ k.Succeeds := by
  have hlegal := attempts.legal_of_forall (fun _ _ => trivial) ⟨none, []⟩ ks
  have hruns : attempts.Throughout Unwound ⟨none, []⟩ ks ↔
      (attempts.restrict fun _ k => k.DevlinkFails ∨ k.Succeeds).Legal ⟨none, []⟩ ks := by
    refine Clocked.Machine.throughout_iff (fun s => s.drvdata = none ∧ Exact s.log) ?_ ?_ ⟨rfl, exact_nil⟩ hlegal
    · rintro ⟨drvdata, log⟩ k ⟨rfl, hlog⟩ - hcondition
      have hunwound := (unwound_iff hlog).mpr hcondition
      exact ⟨⟨rfl, hunwound⟩, hunwound⟩
    · rintro ⟨drvdata, log⟩ k ⟨rfl, hlog⟩ - hcondition hunwound
      exact hcondition ((unwound_iff hlog).mp hunwound)
  rw [hruns]
  exact Clocked.Machine.legal_iff_forall _ (fun _ _ => and_iff_right trivial) _ _

instance : Decidable (Unwound s k) := inferInstanceAs (Decidable (Exact _))

/-- The interrupt is in use. -/
def busyIrq : Answers := ⟨true, 0, 0, true, true, .object, 1, 57, -16, true, 0⟩

/-- It is freed twice, and a network device that was never allocated is freed. -/
theorem not_unwound_throughout : ¬ ∀ ks, attempts.Throughout Unwound ⟨none, []⟩ ks := by
  intro hall
  exact absurd (hall [busyIrq]).1 (by decide)

end Unwinding

end Kernel

end UdpIpCore
