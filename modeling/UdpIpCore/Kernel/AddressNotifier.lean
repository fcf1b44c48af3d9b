import UdpIpCore.Kernel.SettingOrder

/-!
# The address notifier

The kernel tells the driver about every change of an IPv4 address of any device.
`udp_core_notifier_call` looks udpip0 up by its name, which takes a reference, and reads the
private data of the device of the event before it compares the two. If udpip0 gets an address,
`update_arp_table` enters the gateway into the ARP table, and the entry refers to udpip0 from then
on. The calls are told apart by what they did; the kernel's own steps on udpip0 may come between
two of them.
-/

namespace UdpIpCore

namespace Kernel

open Interaction

/-- A pointer to a `struct net_device`. -/
abbrev NetDevice := ℕ

/-- A pointer to a `struct platform_device`. -/
abbrev PlatformDevice := ℕ

/-- `struct in_ifaddr`, as far as the driver reads it. -/
structure InIfaddr where
  /-- `ifa_dev`, and `dev` in it. -/
  ifaDev : Option (Option NetDevice)
  ifaAddress : BitVec 32
  ifaMask : BitVec 32

/-- `NOTIFY_DONE` and `NOTIFY_OK`. -/
def notifyDone : Int := 0
def notifyOk : Int := 1

/-- A pointer to a `struct neighbour`. -/
inductive Neighbour
  | null
  /-- The error pointer of `neigh_create`, which is not NULL. -/
  | error
  | entry
deriving DecidableEq

/-- The single steps of a notification. -/
inductive NotifierCmd
  /-- `dev_get_by_name` of `IF_NAME`, which takes a reference. -/
  | devGetByName
  /-- `dev_put`. -/
  | devPut (dev : NetDevice)
  /-- The private data of a device are read as a `struct udp_core_netdev_priv`, for `pfdev`. -/
  | privPfdev (dev : NetDevice)
  /-- `platform_get_drvdata`, for `ndev`. -/
  | getDrvdata (pfdev : PlatformDevice)
  /-- `udp_core_find_default_gateway`. -/
  | findDefaultGateway (dev : NetDevice) (ifaAddress : BitVec 32)
  /-- A step of the driver on its device. -/
  | driver (c : Cmd)
  /-- `mac_pton` into a variable that keeps an arbitrary value if the text is not an address. -/
  | macPton (gwMac : List Char)
  /-- `neigh_lookup` in the ARP table. -/
  | neighLookup (resolvedIp : BitVec 32) (ndev : NetDevice)
  /-- `neigh_create`, which takes a reference for a new entry. -/
  | neighCreate (resolvedIp : BitVec 32) (ndev : NetDevice)
  /-- `neigh_update`. -/
  | neighUpdate (neigh : Neighbour) (resolvedMac : BitVec 48)
  /-- `neigh_release`. -/
  | neighRelease (neigh : Neighbour)

/-- What a step returns. -/
abbrev NotifierCmd.Response : NotifierCmd → Type
  | devGetByName => Option NetDevice
  | devPut _ => Unit
  | privPfdev _ => Option PlatformDevice
  | getDrvdata _ => NetDevice
  | findDefaultGateway _ _ => Option (BitVec 32)
  | driver c => c.Response
  | macPton _ => BitVec 48
  | neighLookup _ _ | neighCreate _ _ => Neighbour
  | neighUpdate _ _ | neighRelease _ => Unit

/-- A function of the notifier. -/
abbrev NotifierCode := Program NotifierCmd NotifierCmd.Response

/-- The device an event is about, unless a pointer on the way is NULL. -/
def deviceOf (ptr : Option InIfaddr) : Option NetDevice := ptr.bind fun if4 => if4.ifaDev.join

/-- `update_arp_table` looks for an entry, and creates one if there is none. -/
def findNeighbour (resolvedIp : BitVec 32) (ndev : NetDevice) : NotifierCode Neighbour := do
  match ← Program.command (NotifierCmd.neighLookup resolvedIp ndev) with
  | .null => Program.command (NotifierCmd.neighCreate resolvedIp ndev)
  | neigh => return neigh

/-- It updates what it got, unless that is NULL. False if it does not return, since `neigh_update` follows an error
pointer. -/
def updateNeighbour (neigh : Neighbour) (resolvedMac : BitVec 48) : NotifierCode Bool :=
  match neigh with
  | .null => return true
  | .error => do
    Program.command (NotifierCmd.neighUpdate .error resolvedMac)
    return false
  | .entry => do
    Program.command (NotifierCmd.neighUpdate .entry resolvedMac)
    Program.command (NotifierCmd.neighRelease .entry)
    return true

section Code

variable (inAton : List Char → BitVec 32)

/-- `update_arp_table`. -/
def updateArpTable (pdev : PlatformDevice) : NotifierCode Bool := do
  let ndev ← Program.command (NotifierCmd.getDrvdata pdev)
  let p ← Program.command (NotifierCmd.driver .params)
  let resolvedMac ← Program.command (NotifierCmd.macPton p.gwMac)
  let neigh ← findNeighbour (inAton p.gwIp) ndev
  updateNeighbour neigh resolvedMac

/-- Only `NETDEV_UP` updates the ARP table. -/
def notifyArp (event : NetdevEvent) (pfdev : PlatformDevice) : NotifierCode Bool :=
  match event with
  | .up => updateArpTable inAton pfdev
  | .down | .other => return true

/-- The end of `udp_core_notifier_call`, once the registers are written. -/
def notifyEnd (event : NetdevEvent) (target : NetDevice) (pfdev : PlatformDevice) : NotifierCode (Option Int) := do
  match ← notifyArp inAton event pfdev with
  | true =>
    Program.command (NotifierCmd.devPut target)
    return some notifyOk
  | false => return none

/-- `udp_core_notifier_call`, for an event of udpip0. -/
def notifyOwn (event : NetdevEvent) (if4 : InIfaddr) (dev target : NetDevice) (pfdev : PlatformDevice) :
    NotifierCode (Option Int) := do
  let gateway ← Program.command (NotifierCmd.findDefaultGateway dev if4.ifaAddress)
  (notifierCall event if4.ifaAddress if4.ifaMask gateway).lift NotifierCmd.driver fun _ r => r
  notifyEnd inAton event target pfdev

/-- `udp_core_notifier_call`, and what it returns, if it does. -/
def udpCoreNotifierCall (event : NetdevEvent) (ptr : Option InIfaddr) : NotifierCode (Option Int) :=
  match ptr with
  | none => return some notifyDone
  | some if4 =>
    match if4.ifaDev.join with
    | none => return some notifyDone
    | some dev => do
      match ← Program.command NotifierCmd.devGetByName with
      | none => return some notifyDone
      | some target =>
        match ← Program.command (NotifierCmd.privPfdev dev) with
        | none => return some notifyDone
        | some pfdev =>
          let _ ← Program.command (NotifierCmd.getDrvdata pfdev)
          if dev ≠ target then
            Program.command (NotifierCmd.devPut target)
            return some notifyDone
          else notifyOwn inAton event if4 dev target pfdev

end Code

/-- The `struct net_device` of udpip0 with its private data. -/
structure Udpip0 where
  netdev : NetDevice
  /-- The name is in the table of the kernel. -/
  listed : Bool
  pfdev : Option PlatformDevice
  refs : ℕ
  /-- The references that others hold. -/
  others : ℕ
  /-- The addresses on it that the ARP table has an entry for, each with a reference of its own. -/
  neighbours : List (BitVec 32)

/-- The driver and its device, and udpip0 from its allocation until it is freed. -/
structure NotifierHost where
  host : Host
  udpip0 : Option Udpip0

/-- What a step of a notification may be answered. -/
structure NotifierAnswer where
  /-- What lies in the private data of another device. -/
  pfdev : Option PlatformDevice
  /-- What is found behind another platform device. -/
  ndev : NetDevice
  gateway : Option (BitVec 32)
  driver : Answer
  resolvedMac : BitVec 48
  /-- The ARP table has, or gets, an entry. -/
  neigh : Bool

namespace NotifierHost

/-- The device that is found by its name. -/
def found (s : NotifierHost) : Option Udpip0 := s.udpip0.filter Udpip0.listed

/-- The reference count of udpip0. -/
def refs (s : NotifierHost) : Option ℕ := s.udpip0.map Udpip0.refs

/-- The reference count of a device is changed. -/
def counted (s : NotifierHost) (dev : NetDevice) (f : ℕ → ℕ) : NotifierHost :=
  { s with udpip0 := s.udpip0.map fun d => if d.netdev = dev then { d with refs := f d.refs } else d }

/-- The private data of a device, which hold anything unless it is udpip0. -/
def privAt (s : NotifierHost) (dev : NetDevice) (foreign : Option PlatformDevice) : Option PlatformDevice :=
  match s.udpip0 with
  | none => foreign
  | some d => if d.netdev = dev then d.pfdev else foreign

/-- The network device behind a platform device, which is anything unless it is that of the driver. -/
def ndevAt (s : NotifierHost) (pfdev : PlatformDevice) (foreign : NetDevice) : NetDevice :=
  match s.udpip0 with
  | none => foreign
  | some d => if d.pfdev = some pfdev then d.netdev else foreign

/-- The ARP table has an entry for an address on a device. -/
def lookedUp (s : NotifierHost) (resolvedIp : BitVec 32) (ndev : NetDevice) (foreign : Bool) : Bool :=
  match s.udpip0 with
  | none => foreign
  | some d => if d.netdev = ndev then decide (resolvedIp ∈ d.neighbours) else foreign

/-- The ARP table gets an entry for an address on a device. -/
def entered (s : NotifierHost) (resolvedIp : BitVec 32) (ndev : NetDevice) : NotifierHost :=
  { s with udpip0 := s.udpip0.map fun d =>
      if d.netdev = ndev then { d with refs := d.refs + 1, neighbours := resolvedIp :: d.neighbours } else d }

/-- One step of a notification. -/
def perform (s : NotifierHost) (e : NotifierAnswer) : (c : NotifierCmd) → c.Response × NotifierHost
  | .devGetByName =>
    match s.found with
    | none => (none, s)
    | some d => (some d.netdev, s.counted d.netdev (· + 1))
  | .devPut dev => ((), s.counted dev (· - 1))
  | .privPfdev dev => (s.privAt dev e.pfdev, s)
  | .getDrvdata pfdev => (s.ndevAt pfdev e.ndev, s)
  | .findDefaultGateway _ _ => (e.gateway, s)
  | .driver c => ((s.host.perform e.driver c).1, { s with host := (s.host.perform e.driver c).2 })
  | .macPton _ => (e.resolvedMac, s)
  | .neighLookup resolvedIp ndev => (if s.lookedUp resolvedIp ndev e.neigh then .entry else .null, s)
  | .neighCreate resolvedIp ndev => if e.neigh then (.entry, s.entered resolvedIp ndev) else (.error, s)
  | .neighUpdate _ _ | .neighRelease _ => ((), s)

/-- A step may have any of its answers. -/
def Responds (s : NotifierHost) (c : NotifierCmd) (r : c.Response) (s' : NotifierHost) : Prop :=
  ∃ e : NotifierAnswer, s.perform e c = (r, s')

/-- A device other than udpip0. -/
def IsOther (s : NotifierHost) (dev : NetDevice) : Prop := ∀ d, s.udpip0 = some d → d.netdev ≠ dev

/-- udpip0 has its platform device. -/
def Initialised (s : NotifierHost) : Prop := ∀ d, s.udpip0 = some d → d.pfdev.isSome = true

/-- A call leaves the reference count, and neither reads the private data of another device nor writes a register on
its account. -/
structure Sound (s : NotifierHost) (ptr : Option InIfaddr) (cmds : List NotifierCmd) (s' : NotifierHost) : Prop where
  balanced : s'.refs = s.refs
  unread : ∀ dev, deviceOf ptr = some dev → s.IsOther dev → NotifierCmd.privPfdev dev ∉ cmds
  unwritten : ∀ dev, deviceOf ptr = some dev → s.IsOther dev → ∀ reg value,
    NotifierCmd.driver (.writeRegister reg value) ∉ cmds

/-- Unless a pointer is NULL or udpip0 is not registered, the event is about udpip0, and if it gets an address, the ARP
table has an entry for the gateway. -/
def Concerned (inAton : List Char → BitVec 32) (s : NotifierHost) (event : NetdevEvent) (ptr : Option InIfaddr) : Prop :=
  ∀ dev d, deviceOf ptr = some dev → s.found = some d →
    d.netdev = dev ∧ (event = .up → inAton s.host.params.gwIp ∈ d.neighbours)

end NotifierHost

open NotifierHost

variable (inAton : List Char → BitVec 32)

/-- How a call for an event of udpip0 ends. -/
inductive Ending (event : NetdevEvent) (d : Udpip0) (pfdev : PlatformDevice) (s : NotifierHost) :
    List NotifierCmd → Option Int → NotifierHost → Prop
  /-- It gets no address. -/
  | put (hevent : event ≠ .up) : Ending event d pfdev s [.devPut d.netdev] (some notifyOk) s
  /-- The gateway has an entry. -/
  | known (resolvedMac : BitVec 48) (hevent : event = .up) (hknown : inAton s.host.params.gwIp ∈ d.neighbours) :
      Ending event d pfdev s
        [.getDrvdata pfdev, .driver .params, .macPton s.host.params.gwMac,
          .neighLookup (inAton s.host.params.gwIp) d.netdev, .neighUpdate .entry resolvedMac, .neighRelease .entry,
          .devPut d.netdev]
        (some notifyOk) s
  /-- The gateway gets one. -/
  | entered (resolvedMac : BitVec 48) (hevent : event = .up) (hnew : inAton s.host.params.gwIp ∉ d.neighbours) :
      Ending event d pfdev s
        [.getDrvdata pfdev, .driver .params, .macPton s.host.params.gwMac,
          .neighLookup (inAton s.host.params.gwIp) d.netdev, .neighCreate (inAton s.host.params.gwIp) d.netdev,
          .neighUpdate .entry resolvedMac, .neighRelease .entry, .devPut d.netdev]
        (some notifyOk) (s.entered (inAton s.host.params.gwIp) d.netdev)
  /-- No entry can be made, and the call does not return. -/
  | lost (resolvedMac : BitVec 48) (hevent : event = .up) (hnew : inAton s.host.params.gwIp ∉ d.neighbours) :
      Ending event d pfdev s
        [.getDrvdata pfdev, .driver .params, .macPton s.host.params.gwMac,
          .neighLookup (inAton s.host.params.gwIp) d.netdev, .neighCreate (inAton s.host.params.gwIp) d.netdev,
          .neighUpdate .error resolvedMac]
        none (s.counted d.netdev (· + 1))

/-- What a call can do: its steps, its result and the state it leaves. -/
inductive Outcome (event : NetdevEvent) (ptr : Option InIfaddr) (s : NotifierHost) :
    List NotifierCmd → Option Int → NotifierHost → Prop
  /-- A pointer is NULL. -/
  | silent (hdev : deviceOf ptr = none) : Outcome event ptr s [] (some notifyDone) s
  /-- udpip0 is not registered. -/
  | unfound (dev : NetDevice) (hdev : deviceOf ptr = some dev) (hfound : s.found = none) :
      Outcome event ptr s [.devGetByName] (some notifyDone) s
  /-- The private data have NULL for the platform device, and the reference is kept. -/
  | leaked (dev : NetDevice) (d : Udpip0) (hdev : deviceOf ptr = some dev) (hfound : s.found = some d)
      (hnull : d.netdev = dev → d.pfdev = none) :
      Outcome event ptr s [.devGetByName, .privPfdev dev] (some notifyDone) (s.counted d.netdev (· + 1))
  /-- The event is about another device. -/
  | other (dev : NetDevice) (d : Udpip0) (pfdev : PlatformDevice) (hdev : deviceOf ptr = some dev)
      (hfound : s.found = some d) (hne : d.netdev ≠ dev) :
      Outcome event ptr s [.devGetByName, .privPfdev dev, .getDrvdata pfdev, .devPut d.netdev] (some notifyDone) s
  /-- The event is about udpip0. -/
  | own (if4 : InIfaddr) (d : Udpip0) (pfdev : PlatformDevice) (gateway : Option (BitVec 32)) (cs : List Cmd)
      (host : Host) (rest : List NotifierCmd) (ret : Option Int) (s' : NotifierHost) (hptr : ptr = some if4)
      (hdev : deviceOf ptr = some d.netdev) (hfound : s.found = some d) (hpfdev : d.pfdev = some pfdev)
      (htrace : Program.Trace Host.Responds (notifierCall event if4.ifaAddress if4.ifaMask gateway) s.host cs () host)
      (hparams : host.params = s.host.params) (hend : Ending inAton event d pfdev { s with host := host } rest ret s') :
      Outcome event ptr s
        (.devGetByName :: .privPfdev d.netdev :: .getDrvdata pfdev :: .findDefaultGateway d.netdev if4.ifaAddress ::
          (cs.map .driver ++ rest))
        ret s'

section Calls

variable {inAton : List Char → BitVec 32} {s s' : NotifierHost} {d : Udpip0} {event : NetdevEvent}
  {ptr : Option InIfaddr} {cmds : List NotifierCmd} {pfdev : PlatformDevice} {ret : Option Int}

/-- udpip0, found by its name. -/
theorem udpip0_of_found (h : s.found = some d) : s.udpip0 = some d := (Option.filter_eq_some_iff.mp h).1

/-- A reference that is taken and dropped. -/
theorem counted_counted (dev : NetDevice) : (s.counted dev (· + 1)).counted dev (· - 1) = s := by
  obtain ⟨host, udpip0⟩ := s
  cases udpip0 with
  | none => rfl
  | some d =>
    by_cases h : d.netdev = dev
    · subst h
      simp [counted]
    · simp [counted, h]

/-- An entry that is made meanwhile. -/
theorem counted_entered (dev : NetDevice) (ip : BitVec 32) :
    ((s.counted dev (· + 1)).entered ip dev).counted dev (· - 1) = s.entered ip dev := by
  obtain ⟨host, udpip0⟩ := s
  cases udpip0 with
  | none => rfl
  | some d =>
    by_cases h : d.netdev = dev
    · subst h
      simp [counted, entered]
    · simp [counted, entered, h]

/-- The private data do not depend on the reference count. -/
theorem privAt_counted (dev dev' : NetDevice) (f : ℕ → ℕ) (foreign : Option PlatformDevice) :
    (s.counted dev f).privAt dev' foreign = s.privAt dev' foreign := by
  obtain ⟨host, udpip0⟩ := s
  cases udpip0 with
  | none => rfl
  | some d => by_cases h : d.netdev = dev <;> simp [counted, privAt, h]

/-- The private data of udpip0. -/
theorem privAt_of_found (hfound : s.found = some d) (foreign : Option PlatformDevice) :
    s.privAt d.netdev foreign = d.pfdev := by
  rw [privAt, udpip0_of_found hfound]
  exact if_pos rfl

/-- What is found in the ARP table, or entered into it. -/
theorem trace_findNeighbour {ip : BitVec 32} {neigh : Neighbour} (hd : s.udpip0 = some d)
    (h : Program.Trace Responds (findNeighbour ip d.netdev) s cmds neigh s') :
    ip ∈ d.neighbours ∧ neigh = .entry ∧ cmds = [.neighLookup ip d.netdev] ∧ s' = s ∨
      ip ∉ d.neighbours ∧ cmds = [.neighLookup ip d.netdev, .neighCreate ip d.netdev] ∧
        (neigh = .entry ∧ s' = s.entered ip d.netdev ∨ neigh = .error ∧ s' = s) := by
  obtain ⟨_, found, s₁, rfl, ⟨e, he⟩, h₁⟩ := h.split_command
  obtain ⟨hlookup, rfl⟩ := Prod.mk.inj he
  have hlooked : s.lookedUp ip d.netdev e.neigh = decide (ip ∈ d.neighbours) := by
    rw [lookedUp, hd]
    exact if_pos rfl
  rw [hlooked] at hlookup
  by_cases hmem : ip ∈ d.neighbours
  · rw [decide_eq_true hmem, if_pos rfl] at hlookup
    subst hlookup
    obtain ⟨rfl, rfl, rfl⟩ := h₁.of_pure
    exact Or.inl ⟨hmem, rfl, rfl, rfl⟩
  · rw [decide_eq_false hmem, if_neg Bool.false_ne_true] at hlookup
    subst hlookup
    obtain ⟨rfl, e', he'⟩ := Program.Trace.of_command h₁
    refine Or.inr ⟨hmem, rfl, ?_⟩
    rw [perform] at he'
    split at he'
    · obtain ⟨rfl, rfl⟩ := Prod.mk.inj he'
      exact Or.inl ⟨rfl, rfl⟩
    · obtain ⟨rfl, rfl⟩ := Prod.mk.inj he'
      exact Or.inr ⟨rfl, rfl⟩

/-- An entry is updated and released. -/
theorem trace_updateNeighbour {neigh : Neighbour} {resolvedMac : BitVec 48} {returned : Bool} (hneigh : neigh ≠ .null)
    (h : Program.Trace Responds (updateNeighbour neigh resolvedMac) s cmds returned s') : s' = s ∧
      (neigh = .entry ∧ returned = true ∧ cmds = [.neighUpdate .entry resolvedMac, .neighRelease .entry] ∨
        neigh = .error ∧ returned = false ∧ cmds = [.neighUpdate .error resolvedMac]) := by
  cases neigh with
  | null => exact absurd rfl hneigh
  | error =>
    obtain ⟨_, _, s₁, rfl, ⟨e, he⟩, h₁⟩ := Program.Trace.split_command h
    obtain ⟨-, rfl⟩ := Prod.mk.inj he
    obtain ⟨rfl, rfl, rfl⟩ := h₁.of_pure
    exact ⟨rfl, Or.inr ⟨rfl, rfl, rfl⟩⟩
  | entry =>
    obtain ⟨_, _, s₁, rfl, ⟨e, he⟩, h₁⟩ := Program.Trace.split_command h
    obtain ⟨-, rfl⟩ := Prod.mk.inj he
    obtain ⟨_, _, s₂, rfl, ⟨e', he'⟩, h₂⟩ := h₁.split_command
    obtain ⟨-, rfl⟩ := Prod.mk.inj he'
    obtain ⟨rfl, rfl, rfl⟩ := h₂.of_pure
    exact ⟨rfl, Or.inl ⟨rfl, rfl, rfl⟩⟩

/-- What the ARP table is asked about the gateway. -/
theorem trace_updateArpTable {returned : Bool} (hd : s.udpip0 = some d) (hpfdev : d.pfdev = some pfdev)
    (h : Program.Trace Responds (updateArpTable inAton pfdev) s cmds returned s') :
    ∃ resolvedMac neigh s₁ looking updating,
      cmds = .getDrvdata pfdev :: .driver .params :: .macPton s.host.params.gwMac :: (looking ++ updating) ∧
      Program.Trace Responds (findNeighbour (inAton s.host.params.gwIp) d.netdev) s looking neigh s₁ ∧
      Program.Trace Responds (updateNeighbour neigh resolvedMac) s₁ updating returned s' := by
  obtain ⟨_, ndev, s₁, rfl, ⟨e, he⟩, h₁⟩ := h.split_command
  obtain ⟨hndev, rfl⟩ := Prod.mk.inj he
  obtain rfl : d.netdev = ndev := by
    rw [← hndev, ndevAt, hd]
    exact (if_pos hpfdev).symm
  obtain ⟨_, p, s₂, rfl, ⟨e₁, he₁⟩, h₂⟩ := h₁.split_command
  obtain ⟨rfl, rfl⟩ := Prod.mk.inj he₁
  obtain ⟨_, resolvedMac, s₃, rfl, ⟨e₂, he₂⟩, h₃⟩ := h₂.split_command
  obtain ⟨-, rfl⟩ := Prod.mk.inj he₂
  obtain ⟨looking, updating, neigh, s₄, rfl, hfind, hupdate⟩ := h₃.split
  exact ⟨resolvedMac, neigh, s₄, looking, updating, rfl, hfind, hupdate⟩

/-- The end of a call for an event of udpip0. -/
theorem ending_of_trace (hd : s.udpip0 = some d) (hpfdev : d.pfdev = some pfdev)
    (h : Program.Trace Responds (notifyEnd inAton event d.netdev pfdev) (s.counted d.netdev (· + 1)) cmds ret s') :
    Ending inAton event d pfdev s cmds ret s' := by
  have hput {t : NotifierHost} {rest : List NotifierCmd} (h : Program.Trace Responds (do
      Program.command (NotifierCmd.devPut d.netdev)
      return some notifyOk) t rest ret s') :
      rest = [.devPut d.netdev] ∧ ret = some notifyOk ∧ s' = t.counted d.netdev (· - 1) := by
    obtain ⟨_, _, s₁, rfl, ⟨e, he⟩, h₁⟩ := h.split_command
    obtain ⟨-, rfl⟩ := Prod.mk.inj he
    obtain ⟨rfl, rfl, rfl⟩ := h₁.of_pure
    exact ⟨rfl, rfl, rfl⟩
  obtain ⟨asked, rest, returned, s₁, rfl, harp, hend⟩ := Program.Trace.split h
  have hother (hevent : event ≠ .up)
      (harp : Program.Trace Responds (pure true) (s.counted d.netdev (· + 1)) asked returned s₁) :
      Ending inAton event d pfdev s (asked ++ rest) ret s' := by
    obtain ⟨rfl, rfl, rfl⟩ := harp.of_pure
    obtain ⟨rfl, rfl, rfl⟩ := hput hend
    rw [counted_counted]
    exact .put hevent
  cases event with
  | down | other => exact hother (by simp) harp
  | up =>
    have hcounted : (s.counted d.netdev (· + 1)).udpip0 = some { d with refs := d.refs + 1 } := by
      rw [counted, hd, Option.map_some, if_pos rfl]
    obtain ⟨resolvedMac, neigh, s₂, looking, updating, rfl, hfind, hupdate⟩ := trace_updateArpTable hcounted hpfdev harp
    obtain ⟨hknown, rfl, rfl, rfl⟩ | ⟨hnew, rfl, hmade⟩ := trace_findNeighbour hcounted hfind
    · obtain ⟨rfl, ⟨-, rfl, rfl⟩ | ⟨h, -⟩⟩ := trace_updateNeighbour (by decide) hupdate
      · obtain ⟨rfl, rfl, rfl⟩ := hput hend
        rw [counted_counted]
        exact .known resolvedMac rfl hknown
      · exact Neighbour.noConfusion h
    · obtain ⟨rfl, rfl⟩ | ⟨rfl, rfl⟩ := hmade
      · obtain ⟨rfl, ⟨-, rfl, rfl⟩ | ⟨h, -⟩⟩ := trace_updateNeighbour (by decide) hupdate
        · obtain ⟨rfl, rfl, rfl⟩ := hput hend
          rw [counted_entered]
          exact .entered resolvedMac rfl hnew
        · exact Neighbour.noConfusion h
      · obtain ⟨rfl, ⟨h, -⟩ | ⟨-, rfl, rfl⟩⟩ := trace_updateNeighbour (by decide) hupdate
        · exact Neighbour.noConfusion h
        · obtain ⟨rfl, rfl, rfl⟩ := hend.of_pure
          exact .lost resolvedMac rfl hnew

/-- The driver data stay. -/
theorem params_of_notifierCall {if4 : InIfaddr} {gateway : Option (BitVec 32)} {cs : List Cmd} {host host' : Host}
    (h : Program.Trace Host.Responds (notifierCall event if4.ifaAddress if4.ifaMask gateway) host cs () host') :
    host'.params = host.params := by
  have hwrites (gw4 : BitVec 32) : (notifierWrites event if4.ifaAddress if4.ifaMask gw4).Safe Host.Responds
      (fun _ => True) (fun _ host' => host'.params = host.params) host := by
    cases event with
    | up =>
      refine Program.Safe.bind (safe_write trivial (Program.Safe.bind (safe_write trivial ?_)))
      refine Program.Safe.bind (safe_write trivial (Program.Safe.bind (safe_write trivial ?_)))
      exact safe_write trivial rfl
    | down => exact safe_write trivial rfl
    | other => exact .done rfl
  have hsafe : (notifierCall event if4.ifaAddress if4.ifaMask gateway).Safe Host.Responds (fun _ => True)
      (fun _ host' => host'.params = host.params) host := by
    refine Program.Safe.bind (Program.Safe.bind (safe_params trivial ?_))
    cases gateway with
    | some gw4 => exact .done (hwrites gw4)
    | none => exact safe_in4Pton trivial hwrites
  exact (hsafe.of_trace h).1

/-- The rest of a call for an event of udpip0. -/
theorem trace_notifyOwn {if4 : InIfaddr} {dev : NetDevice} (hd : s.udpip0 = some d) (hpfdev : d.pfdev = some pfdev)
    (h : Program.Trace Responds (notifyOwn inAton event if4 dev d.netdev pfdev) (s.counted d.netdev (· + 1)) cmds ret
      s') : ∃ gateway cs host rest, cmds = .findDefaultGateway dev if4.ifaAddress :: (cs.map .driver ++ rest) ∧
      Program.Trace Host.Responds (notifierCall event if4.ifaAddress if4.ifaMask gateway) s.host cs () host ∧
      host.params = s.host.params ∧ Ending inAton event d pfdev { s with host := host } rest ret s' := by
  obtain ⟨_, gateway, s₁, rfl, ⟨e, he⟩, h₁⟩ := h.split_command
  obtain ⟨-, rfl⟩ := Prod.mk.inj he
  obtain ⟨_, _, _, s₂, rfl, hlift, h₂⟩ := h₁.split
  -- the steps of the driver leave udpip0 as it is
  have hview (host : Host) (c : Cmd) (r : c.Response) (t : NotifierHost)
      (hr : Responds { s.counted d.netdev (· + 1) with host := host } (.driver c) r t) :
      ∃ host', t = { s.counted d.netdev (· + 1) with host := host' } ∧ Host.Responds host c r host' := by
    obtain ⟨e, he⟩ := hr
    obtain ⟨hr, rfl⟩ := Prod.mk.inj he
    exact ⟨_, rfl, e.driver, Prod.ext hr rfl⟩
  obtain ⟨cs, host, rfl, rfl, htrace⟩ := hlift.of_lift (fun host => { s.counted d.netdev (· + 1) with host := host }) hview
  refine ⟨gateway, cs, host, _, rfl, htrace, params_of_notifierCall htrace, ?_⟩
  exact ending_of_trace hd hpfdev h₂

/-- Every call has one of the outcomes. -/
theorem outcome_of_trace (h : Program.Trace Responds (udpCoreNotifierCall inAton event ptr) s cmds ret s') :
    Outcome inAton event ptr s cmds ret s' := by
  cases ptr with
  | none =>
    obtain ⟨rfl, rfl, rfl⟩ := h.of_pure
    exact .silent rfl
  | some if4 =>
    have hdevice : deviceOf (some if4) = if4.ifaDev.join := rfl
    rw [udpCoreNotifierCall] at h
    cases hdev : if4.ifaDev.join with
    | none =>
      simp only [hdev] at h
      obtain ⟨rfl, rfl, rfl⟩ := h.of_pure
      exact .silent (hdevice.trans hdev)
    | some dev =>
      simp only [hdev] at h
      obtain ⟨_, target, s₁, rfl, ⟨e, he⟩, h₁⟩ := h.split_command
      cases hfound : s.found with
      | none =>
        simp only [perform, hfound] at he
        obtain ⟨rfl, rfl⟩ := Prod.mk.inj he
        obtain ⟨rfl, rfl, rfl⟩ := h₁.of_pure
        exact .unfound dev (hdevice.trans hdev) hfound
      | some d =>
        simp only [perform, hfound] at he
        obtain ⟨rfl, rfl⟩ := Prod.mk.inj he
        obtain ⟨_, pfdev, s₂, rfl, ⟨e', he'⟩, h₂⟩ := h₁.split_command
        obtain ⟨hpfdev, rfl⟩ := Prod.mk.inj he'
        rw [privAt_counted] at hpfdev
        cases pfdev with
        | none =>
          obtain ⟨rfl, rfl, rfl⟩ := h₂.of_pure
          refine .leaked dev d (hdevice.trans hdev) hfound fun heq => ?_
          rwa [← heq, privAt_of_found hfound] at hpfdev
        | some pfdev =>
          obtain ⟨_, _, s₃, rfl, ⟨e'', he''⟩, h₃⟩ := h₂.split_command
          obtain ⟨-, rfl⟩ := Prod.mk.inj he''
          by_cases heq : dev = d.netdev
          · subst heq
            simp only [ne_eq, not_true, if_false] at h₃
            rw [privAt_of_found hfound] at hpfdev
            obtain ⟨gateway, cs, host, rest, rfl, htrace, hparams, hend⟩ :=
              trace_notifyOwn (udpip0_of_found hfound) hpfdev h₃
            exact .own if4 d pfdev gateway cs host rest ret s' rfl (hdevice.trans hdev) hfound hpfdev htrace hparams hend
          · simp only [ne_eq, heq, not_false_eq_true, if_true] at h₃
            obtain ⟨_, _, s₄, rfl, ⟨e₄, he₄⟩, h₄⟩ := h₃.split_command
            obtain ⟨-, rfl⟩ := Prod.mk.inj he₄
            obtain ⟨rfl, rfl, rfl⟩ := h₄.of_pure
            rw [counted_counted]
            exact .other dev d pfdev (hdevice.trans hdev) hfound (Ne.symm heq)

/-- The reference that is not dropped. -/
theorem refs_leaked (hfound : s.found = some d) : (s.counted d.netdev (· + 1)).refs = some (d.refs + 1) := by
  rw [NotifierHost.refs, counted, udpip0_of_found hfound, Option.map_some, if_pos rfl]
  rfl

/-- A call that finds nothing but udpip0, and the gateway in the ARP table, leaves it as it is. -/
theorem udpip0_of_concerned (hinit : s.Initialised) (hconcerned : Concerned inAton s event ptr)
    (houtcome : Outcome inAton event ptr s cmds ret s') : s'.udpip0 = s.udpip0 := by
  cases houtcome with
  | silent | unfound | other => rfl
  | leaked dev d hdev hfound hnull =>
    have hsome := hinit d (udpip0_of_found hfound)
    rw [hnull (hconcerned dev d hdev hfound).1] at hsome
    exact Bool.noConfusion hsome
  | own if4 d pfdev gateway cs host rest _ _ hptr hdev hfound hpfdev htrace hparams hend =>
    have hknown := (hconcerned d.netdev d hdev hfound).2
    rw [← hparams] at hknown
    cases hend with
    | put | known => rfl
    | entered _ hevent hnew | lost _ hevent hnew => exact absurd (hknown hevent) hnew

/-- Where udpip0 is not found, a call does no more than to look for it. -/
theorem cmds_of_unfound (hfound : s.found = none) (houtcome : Outcome inAton event ptr s cmds ret s') :
    cmds = [] ∨ cmds = [.devGetByName] := by
  cases houtcome with
  | silent => exact Or.inl rfl
  | unfound => exact Or.inr rfl
  | leaked _ _ _ hfound' => exact absurd (hfound'.symm.trans hfound) (Option.some_ne_none _)
  | other _ _ _ _ hfound' => exact absurd (hfound'.symm.trans hfound) (Option.some_ne_none _)
  | own _ _ _ _ _ _ _ _ _ _ _ hfound' => exact absurd (hfound'.symm.trans hfound) (Option.some_ne_none _)

/-- Such a call keeps the count and touches no other device. -/
theorem sound_of_concerned (hinit : s.Initialised) (hconcerned : Concerned inAton s event ptr)
    (houtcome : Outcome inAton event ptr s cmds ret s') : s.Sound ptr cmds s' := by
  have hfound {dev : NetDevice} (hdev : deviceOf ptr = some dev) (hother : s.IsOther dev) : s.found = none := by
    rw [Option.eq_none_iff_forall_ne_some]
    intro d hd
    exact hother d (udpip0_of_found hd) (hconcerned dev d hdev hd).1
  exact {
    balanced := congrArg (Option.map Udpip0.refs) (udpip0_of_concerned hinit hconcerned houtcome)
    unread := by
      intro dev hdev hother
      obtain rfl | rfl := cmds_of_unfound (hfound hdev hother) houtcome <;> simp
    unwritten := by
      intro dev hdev hother reg value
      obtain rfl | rfl := cmds_of_unfound (hfound hdev hother) houtcome <;> simp
  }

/-- A call for another device reads its private data. -/
theorem not_sound_of_other {dev : NetDevice} (hdev : deviceOf ptr = some dev) (hfound : s.found = some d)
    (hne : d.netdev ≠ dev) (houtcome : Outcome inAton event ptr s cmds ret s') : ¬ s.Sound ptr cmds s' := by
  intro hsound
  have hother : s.IsOther dev := by
    intro d' hd'
    obtain rfl := Option.some.inj ((udpip0_of_found hfound).symm.trans hd')
    exact hne
  have hunread := hsound.unread dev hdev hother
  cases houtcome with
  | silent hdev' => exact Option.some_ne_none _ (hdev.symm.trans hdev')
  | unfound _ _ hfound' => exact Option.some_ne_none _ (hfound.symm.trans hfound')
  | leaked dev' d' hdev' =>
    obtain rfl := Option.some.inj (hdev.symm.trans hdev')
    exact hunread (by simp)
  | other dev' d' pfdev hdev' =>
    obtain rfl := Option.some.inj (hdev.symm.trans hdev')
    exact hunread (by simp)
  | own if4 d' pfdev gateway cs host rest _ _ hptr hdev' =>
    obtain rfl := Option.some.inj (hdev.symm.trans hdev')
    exact hunread (by simp)

/-- A new entry has a reference. -/
theorem refs_entered {ip : BitVec 32} (hd : s.udpip0 = some d) : (s.entered ip d.netdev).refs = some (d.refs + 1) := by
  rw [NotifierHost.refs, entered, hd, Option.map_some, if_pos rfl]
  rfl

/-- A call that gives udpip0 an address takes a reference for the gateway, unless that has an entry. -/
theorem not_sound_of_new (hdev : deviceOf ptr = some d.netdev) (hfound : s.found = some d)
    (hevent : event = .up) (hnew : inAton s.host.params.gwIp ∉ d.neighbours)
    (houtcome : Outcome inAton event ptr s cmds ret s') : ¬ s.Sound ptr cmds s' := by
  have hkept : s.refs = some d.refs := congrArg (Option.map Udpip0.refs) (udpip0_of_found hfound)
  have hmore : s'.refs = some (d.refs + 1) := by
    cases houtcome with
    | silent hdev' => exact absurd (hdev.symm.trans hdev') (Option.some_ne_none _)
    | unfound _ _ hfound' => exact absurd (hfound.symm.trans hfound') (Option.some_ne_none _)
    | leaked dev' d' hdev' hfound' =>
      obtain rfl := Option.some.inj (hfound.symm.trans hfound')
      exact refs_leaked hfound
    | other dev' d' _ hdev' hfound' hne =>
      obtain rfl := Option.some.inj (hfound.symm.trans hfound')
      exact absurd (Option.some.inj (hdev.symm.trans hdev')) hne
    | own if4 d' pfdev gateway cs host rest _ _ hptr hdev' hfound' hpfdev htrace hparams hend =>
      obtain rfl := Option.some.inj (hfound.symm.trans hfound')
      rw [← hparams] at hnew
      cases hend with
      | put hother => exact absurd hevent hother
      | known _ _ hknown => exact absurd hknown hnew
      | entered => exact refs_entered (udpip0_of_found hfound)
      | lost => exact refs_leaked hfound
  intro hsound
  have hsame := hsound.balanced
  rw [hmore, hkept] at hsame
  exact Nat.succ_ne_self _ (Option.some.inj hsame)

/-- A call is sound in no other case. -/
theorem not_sound_of_not_concerned (hconcerned : ¬ Concerned inAton s event ptr)
    (houtcome : Outcome inAton event ptr s cmds ret s') : ¬ s.Sound ptr cmds s' := by
  simp only [Concerned, not_forall] at hconcerned
  obtain ⟨dev, d, hdev, hfound, hnot⟩ := hconcerned
  by_cases heq : d.netdev = dev
  · subst heq
    have hnew := not_and.mp hnot rfl
    rw [Classical.not_imp] at hnew
    exact not_sound_of_new hdev hfound hnew.1 hnew.2 houtcome
  · exact not_sound_of_other hdev hfound heq houtcome

end Calls

/-- What happens to udpip0, and the notifications. -/
inductive Happening
  /-- `udp_core_netdev_init` allocates the device and sets its private data. -/
  | allocEtherdev (netdev : NetDevice) (pdev : PlatformDevice)
  | registerNetdev
  /-- `unregister_netdev` takes the name out of the table. -/
  | unregisterNetdev
  /-- The device is freed, once nothing refers to it. -/
  | freeNetdev
  | hold
  | put
  /-- The ARP table gets an entry for an address. -/
  | resolve (ip : BitVec 32)
  /-- An entry goes. -/
  | forget (ip : BitVec 32)
  /-- The other calls of the driver. -/
  | driver (host : Host)
  /-- A call of `udp_core_notifier_call`, with its steps and the state it leaves. -/
  | notified (event : NetdevEvent) (ptr : Option InIfaddr) (cmds : List NotifierCmd) (after : NotifierHost)

namespace NotifierHost

/-- The state after a happening. -/
def after (s : NotifierHost) : Happening → NotifierHost
  | .allocEtherdev netdev pdev => { s with udpip0 := some ⟨netdev, false, some pdev, 1, 0, []⟩ }
  | .registerNetdev => { s with udpip0 := s.udpip0.map fun d => { d with listed := true } }
  | .unregisterNetdev => { s with udpip0 := s.udpip0.map fun d => { d with listed := false } }
  | .freeNetdev => { s with udpip0 := none }
  | .hold => { s with udpip0 := s.udpip0.map fun d => { d with refs := d.refs + 1, others := d.others + 1 } }
  | .put => { s with udpip0 := s.udpip0.map fun d => { d with refs := d.refs - 1, others := d.others - 1 } }
  | .resolve ip => { s with udpip0 := s.udpip0.map fun d =>
      { d with refs := d.refs + 1, neighbours := ip :: d.neighbours } }
  | .forget ip => { s with udpip0 := s.udpip0.map fun d =>
      { d with refs := d.refs - 1, neighbours := d.neighbours.erase ip } }
  | .driver host => { s with host := host }
  | .notified _ _ _ after => after

section Steps

variable (inAton : List Char → BitVec 32)

/-- What may happen. -/
def Possible (s : NotifierHost) : Happening → Prop
  | .allocEtherdev _ _ => s.udpip0 = none
  | .registerNetdev => ∃ d, s.udpip0 = some d ∧ d.listed = false
  | .unregisterNetdev => ∃ d, s.udpip0 = some d ∧ d.listed = true
  | .freeNetdev => ∃ d, s.udpip0 = some d ∧ d.listed = false ∧ d.refs = 1
  | .hold => s.udpip0.isSome = true
  | .put => ∃ d, s.udpip0 = some d ∧ 0 < d.others
  | .resolve ip => ∃ d, s.udpip0 = some d ∧ d.listed = true ∧ ip ∉ d.neighbours
  | .forget ip => ∃ d, s.udpip0 = some d ∧ ip ∈ d.neighbours
  | .driver _ => True
  | .notified event ptr cmds after => ∃ ret, Program.Trace Responds (udpCoreNotifierCall inAton event ptr) s cmds ret after

/-- The life of udpip0. -/
def life : Clocked.Machine NotifierHost Happening where
  step := after
  legal := Possible inAton

/-- A notification is sound. -/
def SoundStep (s : NotifierHost) : Happening → Prop
  | .notified _ ptr cmds after => s.Sound ptr cmds after
  | _ => True

/-- A notification is about udpip0, if that is registered, and finds the gateway in the ARP table. -/
def ConcernedStep (s : NotifierHost) : Happening → Prop
  | .notified event ptr _ _ => Concerned inAton s event ptr
  | _ => True

end Steps

/-- No reference is lost. -/
def Counted (s : NotifierHost) : Prop := ∀ d, s.udpip0 = some d → d.refs = 1 + d.others + d.neighbours.length

end NotifierHost

section Life

variable {inAton : List Char → BitVec 32} {s s' : NotifierHost}

/-- A device that is changed keeps what it has, if the change does. -/
theorem forall_map {P : Udpip0 → Prop} {f : Udpip0 → Udpip0} (h : ∀ d, s.udpip0 = some d → P d)
    (hf : ∀ d, s.udpip0 = some d → P d → P (f d)) : ∀ d, s.udpip0.map f = some d → P d := by
  intro d hd
  obtain ⟨d', hd', rfl⟩ := Option.map_eq_some_iff.mp hd
  exact hf d' hd' (h d' hd')

/-- A call leaves udpip0 as it is, but for a reference and perhaps an entry that holds it. -/
theorem udpip0_of_outcome {event : NetdevEvent} {ptr : Option InIfaddr} {cmds : List NotifierCmd} {ret : Option Int}
    (houtcome : Outcome inAton event ptr s cmds ret s') : s'.udpip0 = s.udpip0 ∨
      ∃ dev, s'.udpip0 = (s.counted dev (· + 1)).udpip0 ∨ ∃ ip, s'.udpip0 = (s.entered ip dev).udpip0 := by
  cases houtcome with
  | silent | unfound | other => exact Or.inl rfl
  | leaked dev d => exact Or.inr ⟨d.netdev, Or.inl rfl⟩
  | own if4 d pfdev gateway cs host rest _ _ hptr hdev hfound hpfdev htrace hparams hend =>
    cases hend with
    | put | known => exact Or.inl rfl
    | entered => exact Or.inr ⟨d.netdev, Or.inr ⟨_, rfl⟩⟩
    | lost => exact Or.inr ⟨d.netdev, Or.inl rfl⟩

/-- udpip0 always has its platform device. -/
theorem initialised_after {i : Happening} (hinit : s.Initialised) (hpossible : Possible inAton s i) :
    (s.after i).Initialised := by
  cases i with
  | allocEtherdev netdev pdev =>
    rintro d hd
    obtain rfl := Option.some.inj hd
    rfl
  | registerNetdev | unregisterNetdev | hold | put | resolve | forget => exact forall_map hinit fun _ _ h => h
  | freeNetdev => exact fun d hd => absurd hd.symm (Option.some_ne_none d)
  | driver host => exact hinit
  | notified event ptr cmds after =>
    obtain ⟨ret, htrace⟩ := hpossible
    have hchanged {f : Udpip0 → Udpip0} (hf : ∀ d, (f d).pfdev = d.pfdev) (hafter : after.udpip0 = s.udpip0.map f) :
        (s.after (.notified event ptr cmds after)).Initialised := by
      intro d hd
      obtain ⟨d', hd', rfl⟩ := Option.map_eq_some_iff.mp (hafter.symm.trans hd)
      exact (hf d').symm ▸ hinit d' hd'
    obtain hsame | ⟨dev, hmore | ⟨ip, hmore⟩⟩ := udpip0_of_outcome (outcome_of_trace htrace)
    · intro d hd
      exact hinit d (hsame ▸ hd)
    · refine hchanged (fun d => ?_) hmore
      split <;> rfl
    · refine hchanged (fun d => ?_) hmore
      split <;> rfl

/-- In every run, from the load of the driver on, all notifications are sound exactly if each of them that finds udpip0
registered is about it, and finds the gateway in the ARP table if it gets an address. -/
theorem soundStep_iff {happenings : List Happening} (host : Host)
    (hlegal : (life inAton).Legal ⟨host, none⟩ happenings) :
    (life inAton).Throughout SoundStep ⟨host, none⟩ happenings ↔
      ((life inAton).restrict (ConcernedStep inAton)).Legal ⟨host, none⟩ happenings := by
  refine Clocked.Machine.throughout_iff Initialised ?_ ?_ (fun d hd => absurd hd.symm (Option.some_ne_none d)) hlegal
  · intro s i hinit hpossible hconcerned
    refine ⟨initialised_after hinit hpossible, ?_⟩
    cases i with
    | notified event ptr cmds after =>
      obtain ⟨ret, htrace⟩ := hpossible
      exact sound_of_concerned hinit hconcerned (outcome_of_trace htrace)
    | allocEtherdev | registerNetdev | unregisterNetdev | freeNetdev | hold | put | resolve | forget | driver => trivial
  · intro s i hinit hpossible hconcerned
    cases i with
    | notified event ptr cmds after =>
      obtain ⟨ret, htrace⟩ := hpossible
      exact not_sound_of_not_concerned hconcerned (outcome_of_trace htrace)
    | allocEtherdev | registerNetdev | unregisterNetdev | freeNetdev | hold | put | resolve | forget | driver =>
      exact absurd trivial hconcerned

/-- The answers of a system without a default route, in which the private data of other devices hold NULL. -/
def noRoute : NotifierAnswer := ⟨none, 0, none, ⟨Operation.quiet, none, 0⟩, 0, true⟩

/-- udpip0 is registered as device 7. -/
def registered : List Happening := [.allocEtherdev 7 1, .registerNetdev]

/-- An address of a device. -/
def addressOf (dev : NetDevice) : InIfaddr := ⟨some (some dev), 0xc0a80132, 0xffffff00⟩

/-- It gets an address, when the gateway is known. -/
theorem soundStep_own : ∃ cmds after, (life Operation.dottedQuad).Throughout SoundStep ⟨.probed, none⟩
    (registered ++ [.resolve 0xc0a80102, .notified .up (some (addressOf 7)) cmds after]) := by
  have hanswers (s : NotifierHost) (c : NotifierCmd) : Responds s c (s.perform noRoute c).1 (s.perform noRoute c).2 :=
    ⟨noRoute, rfl⟩
  obtain ⟨cmds, htrace⟩ := Program.exists_trace (fun s => s.perform noRoute) hanswers
    (udpCoreNotifierCall Operation.dottedQuad .up (some (addressOf 7)))
    ((life Operation.dottedQuad).run ⟨.probed, none⟩ (registered ++ [.resolve 0xc0a80102]))
  generalize Program.eval _ _ _ = result at htrace
  refine ⟨cmds, result.2, (soundStep_iff .probed ?_).mpr ?_⟩
  · exact ⟨rfl, ⟨_, rfl, rfl⟩, ⟨_, rfl, rfl, List.not_mem_nil⟩, ⟨_, htrace⟩, trivial⟩
  · refine ⟨⟨rfl, trivial⟩, ⟨⟨_, rfl, rfl⟩, trivial⟩, ⟨⟨_, rfl, rfl, List.not_mem_nil⟩, trivial⟩, ⟨⟨_, htrace⟩, ?_⟩, trivial⟩
    intro dev d hdev hfound
    obtain rfl := Option.some.inj hdev
    obtain rfl := Option.some.inj hfound
    refine ⟨rfl, fun _ => ?_⟩
    have hgateway : Operation.dottedQuad DriverParams.initial.gwIp = 0xc0a80102 := by decide +kernel
    exact hgateway ▸ List.mem_cons_self

/-- Another device, whose private data hold NULL, gets an address: a reference is lost. -/
theorem not_soundStep : ¬ ∀ happenings, (life Operation.dottedQuad).Legal ⟨.probed, none⟩ happenings →
    (life Operation.dottedQuad).Throughout SoundStep ⟨.probed, none⟩ happenings := by
  intro hall
  have htrace : Program.Trace Responds (udpCoreNotifierCall Operation.dottedQuad .up (some (addressOf 2)))
      ((life Operation.dottedQuad).run ⟨.probed, none⟩ registered) [.devGetByName, .privPfdev 2] (some notifyDone)
      (((life Operation.dottedQuad).run ⟨.probed, none⟩ registered).counted 7 (· + 1)) :=
    .perform ⟨noRoute, rfl⟩ (.perform ⟨noRoute, rfl⟩ .done)
  have hlegal : (life Operation.dottedQuad).Legal ⟨.probed, none⟩ (registered ++ [.notified .up (some (addressOf 2))
      [.devGetByName, .privPfdev 2] (((life Operation.dottedQuad).run ⟨.probed, none⟩ registered).counted 7 (· + 1))]) :=
    ⟨rfl, ⟨_, rfl, rfl⟩, ⟨_, htrace⟩, trivial⟩
  obtain ⟨-, -, hsound, -⟩ := hall _ hlegal
  exact absurd hsound.balanced (by decide)

/-- As long as the notifications are so, each reference has a holder. -/
theorem counted_after {i : Happening} (hcounted : s.Counted) (hinit : s.Initialised) (hpossible : Possible inAton s i)
    (hconcerned : ConcernedStep inAton s i) : (s.after i).Counted := by
  cases i with
  | allocEtherdev netdev pdev =>
    rintro d hd
    obtain rfl := Option.some.inj hd
    rfl
  | registerNetdev | unregisterNetdev => exact forall_map hcounted fun _ _ h => h
  | freeNetdev => exact fun d hd => absurd hd.symm (Option.some_ne_none d)
  | hold => exact forall_map hcounted fun d _ h => by simp only [h]; omega
  | put =>
    obtain ⟨d, hd, hothers⟩ := hpossible
    refine forall_map hcounted fun d' hd' h => ?_
    obtain rfl := Option.some.inj (hd.symm.trans hd')
    simp only [h]
    omega
  | resolve ip => exact forall_map hcounted fun d _ h => by simp only [h, List.length_cons]; omega
  | forget ip =>
    obtain ⟨d, hd, hmem⟩ := hpossible
    refine forall_map hcounted fun d' hd' h => ?_
    obtain rfl := Option.some.inj (hd.symm.trans hd')
    have hlength := List.length_erase_add_one hmem
    simp only [h]
    omega
  | driver host => exact hcounted
  | notified event ptr cmds after =>
    obtain ⟨ret, htrace⟩ := hpossible
    have hsame : after.udpip0 = s.udpip0 := udpip0_of_concerned hinit hconcerned (outcome_of_trace htrace)
    intro d hd
    exact hcounted d (hsame ▸ hd)

/-- So udpip0 can be freed once the others have put theirs and the ARP table has forgotten it. -/
theorem possible_freeNetdev {happenings : List Happening} {host : Host} {d : Udpip0}
    (hlegal : ((life inAton).restrict (ConcernedStep inAton)).Legal ⟨host, none⟩ happenings)
    (hd : ((life inAton).run ⟨host, none⟩ happenings).udpip0 = some d) (hlisted : d.listed = false)
    (hothers : d.others = 0) (hneighbours : d.neighbours = []) :
    Possible inAton ((life inAton).run ⟨host, none⟩ happenings) .freeNetdev := by
  have hnone {P : Udpip0 → Prop} (d : Udpip0) (hd : none = some d) : P d := absurd hd.symm (Option.some_ne_none d)
  have hinv : ((life inAton).run ⟨host, none⟩ happenings).Initialised ∧ ((life inAton).run ⟨host, none⟩ happenings).Counted :=
    @Clocked.Machine.invariant _ _ ((life inAton).restrict (ConcernedStep inAton)) ⟨host, none⟩
      (fun s => s.Initialised ∧ s.Counted) ⟨hnone, hnone⟩
      (fun s i h hi => ⟨initialised_after h.1 hi.1, counted_after h.2 h.1 hi.1 hi.2⟩) _ ⟨happenings, hlegal, rfl⟩
  have hrefs := hinv.2 d hd
  rw [hothers, hneighbours] at hrefs
  exact ⟨d, hd, hlisted, hrefs⟩

/-- udpip0 has a reference without a holder. -/
def Leaked (s : NotifierHost) : Prop := ∃ d, s.udpip0 = some d ∧ 1 + d.others + d.neighbours.length < d.refs

/-- A reference that was lost stays, and the device is never freed. -/
theorem leaked_after {i : Happening} (hleaked : Leaked s) (hpossible : Possible inAton s i) : Leaked (s.after i) := by
  obtain ⟨d, hd, hrefs⟩ := hleaked
  cases i with
  | allocEtherdev netdev pdev => exact absurd (hd.symm.trans hpossible) (Option.some_ne_none d)
  | registerNetdev | unregisterNetdev => exact ⟨_, congrArg (Option.map _) hd, hrefs⟩
  | freeNetdev =>
    obtain ⟨d', hd', -, hone⟩ := hpossible
    obtain rfl := Option.some.inj (hd.symm.trans hd')
    omega
  | hold => exact ⟨_, congrArg (Option.map _) hd, by dsimp only; omega⟩
  | put =>
    obtain ⟨d', hd', hothers⟩ := hpossible
    obtain rfl := Option.some.inj (hd.symm.trans hd')
    exact ⟨_, congrArg (Option.map _) hd, by dsimp only; omega⟩
  | resolve ip => exact ⟨_, congrArg (Option.map _) hd, by simp only [List.length_cons]; omega⟩
  | forget ip =>
    obtain ⟨d', hd', hmem⟩ := hpossible
    obtain rfl := Option.some.inj (hd.symm.trans hd')
    have hlength := List.length_erase_add_one hmem
    exact ⟨_, congrArg (Option.map _) hd, by dsimp only; omega⟩
  | driver host => exact ⟨d, hd, hrefs⟩
  | notified event ptr cmds after =>
    obtain ⟨ret, htrace⟩ := hpossible
    obtain hsame | ⟨dev, hmore | ⟨ip, hmore⟩⟩ := udpip0_of_outcome (outcome_of_trace htrace)
    · exact ⟨d, hsame.trans hd, hrefs⟩
    · refine ⟨_, hmore.trans (congrArg (Option.map _) hd), ?_⟩
      dsimp only
      split
      · exact Nat.lt_succ_of_lt hrefs
      · exact hrefs
    · refine ⟨_, hmore.trans (congrArg (Option.map _) hd), ?_⟩
      dsimp only
      split
      · simp only [List.length_cons]
        omega
      · exact hrefs

/-- In every run from there the module cannot be unloaded. -/
theorem never_freed {happenings : List Happening} (hleaked : Leaked s) (hlegal : (life inAton).Legal s happenings) :
    ¬ Possible inAton ((life inAton).run s happenings) .freeNetdev := by
  have hinv := Clocked.Machine.invariant hleaked (fun _ _ => leaked_after) ⟨happenings, hlegal, rfl⟩
  obtain ⟨d, hd, hrefs⟩ := hinv
  rintro ⟨d', hd', -, hone⟩
  obtain rfl := Option.some.inj (hd.symm.trans hd')
  omega

end Life

end Kernel

end UdpIpCore
