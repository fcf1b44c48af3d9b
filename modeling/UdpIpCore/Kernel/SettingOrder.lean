import UdpIpCore.Kernel.DevlinkRange
import UdpIpCore.Rtl.UserRstHandler

/-!
# The order of configuration calls

An address notification, a set of a port or socket parameter and a change of the MAC address
concern different settings, but they share registers: a set rewrites the gateway, and a
socket whose control word falls on another register sets a bit of it. The effect of each call
on the configuration is a function, so the exact condition for two calls to commute can be
read off.
-/

namespace UdpIpCore

attribute [ext] ControllerConfig

/-- The configuration once sockets whose control words fall on the given registers were opened. -/
def ControllerConfig.touched (c : ControllerConfig) (t : RegAddr → Bool) : ControllerConfig where
  localMac :=
    let low := if t RegAddr.mac0 then c.localMac ||| (1 : BitVec 48) <<< bufferOpensockOffset else c.localMac
    if t RegAddr.mac1 then low ||| (1 : BitVec 48) <<< (32 + bufferOpensockOffset) else low
  gatewayIp := if t RegAddr.gw then c.gatewayIp ||| Kernel.opensockMask else c.gatewayIp
  subnetMask := if t RegAddr.snm then c.subnetMask ||| Kernel.opensockMask else c.subnetMask
  localIp := if t RegAddr.ipLoc then c.localIp ||| Kernel.opensockMask else c.localIp
  udpPortRangeL := if t RegAddr.udpRangeL then c.udpPortRangeL ||| Kernel.opensockMask else c.udpPortRangeL
  udpPortRangeH := if t RegAddr.udpRangeH then c.udpPortRangeH ||| Kernel.opensockMask else c.udpPortRangeH
  sharedMemBaseAddress :=
    if t RegAddr.shmem then c.sharedMemBaseAddress ||| Kernel.opensockMask else c.sharedMemBaseAddress

namespace Kernel

open Interaction

section Touching

variable {r : ConfigRegs} {c : ControllerConfig}

/-- A word with a single bit. -/
theorem getLsbD_one_shiftLeft {w k : ℕ} (hk : k < w) (i : ℕ) : ((1 : BitVec w) <<< k).getLsbD i = decide (i = k) := by
  rw [BitVec.getLsbD_shiftLeft, Bool.eq_iff_iff]
  have hone : (1 : BitVec w) = 1#w := rfl
  simp only [hone, BitVec.getLsbD_one, Bool.and_eq_true, decide_eq_true_eq, Bool.not_eq_true', decide_eq_false_iff_not]
  omega

/-- The socket bit. -/
theorem getLsbD_opensockMask (i : ℕ) : opensockMask.getLsbD i = decide (i = bufferOpensockOffset) :=
  getLsbD_one_shiftLeft (by decide) i

/-- The bit of a socket in the lower word of the MAC address. -/
theorem or_mac0 (x : BitVec 48) :
    x.extractLsb' 32 16 ++ (x.setWidth 32 ||| opensockMask) = x ||| (1 : BitVec 48) <<< bufferOpensockOffset := by
  apply BitVec.eq_of_getLsbD_eq
  intro i hi
  rw [BitVec.getLsbD_append, BitVec.getLsbD_or, BitVec.getLsbD_or, BitVec.getLsbD_setWidth, BitVec.getLsbD_extractLsb',
    getLsbD_opensockMask, getLsbD_one_shiftLeft (by decide)]
  grind

/-- The bit of a socket in the upper word of the MAC address. -/
theorem or_mac1 (x : BitVec 48) :
    (((x.extractLsb' 32 16).setWidth 32 ||| opensockMask).setWidth 16 ++ x.setWidth 32 : BitVec 48) =
      x ||| (1 : BitVec 48) <<< (32 + bufferOpensockOffset) := by
  apply BitVec.eq_of_getLsbD_eq
  intro i hi
  rw [BitVec.getLsbD_append, BitVec.getLsbD_or, BitVec.getLsbD_setWidth, BitVec.getLsbD_setWidth, BitVec.getLsbD_or,
    BitVec.getLsbD_setWidth, BitVec.getLsbD_extractLsb', getLsbD_opensockMask, getLsbD_one_shiftLeft (by decide)]
  grind

/-- One register of which a socket bit is set. -/
theorem read_or {status : StatusInputs} {reg named : RegAddr} {x : BitVec 32} (hread : r.read status named = x) :
    (if reg = named then r.read status reg ||| opensockMask else x) =
      if decide (reg = named) then x ||| opensockMask else x := by
  by_cases h : reg = named
  · rw [if_pos h, h, hread, decide_eq_true rfl, if_pos rfl]
  · rw [if_neg h, decide_eq_false h, if_neg Bool.false_ne_true]

/-- Opening a socket sets the bit of the register its control word falls on. -/
theorem config_write_open (r : ConfigRegs) (status : StatusInputs) (reg : RegAddr) :
    (r.write reg (r.read status reg ||| opensockMask)).config = r.config.touched (fun x => decide (reg = x)) := by
  have hwrite (value : BitVec 32) : (r.write reg value).config =
      { localMac :=
          if reg = RegAddr.mac0 then r.localMac.extractLsb' 32 16 ++ value
          else if reg = RegAddr.mac1 then value.setWidth 16 ++ r.localMac.setWidth 32
          else r.localMac
        gatewayIp := if reg = RegAddr.gw then value else r.gatewayIp
        subnetMask := if reg = RegAddr.snm then value else r.subnetMask
        localIp := if reg = RegAddr.ipLoc then value else r.localIp
        udpPortRangeL := if reg = RegAddr.udpRangeL then value else r.udpPortRangeL
        udpPortRangeH := if reg = RegAddr.udpRangeH then value else r.udpPortRangeH
        sharedMemBaseAddress := if reg = RegAddr.shmem then value else r.sharedMem } := rfl
  rw [hwrite, ControllerConfig.touched]
  congr 1
  · by_cases hmac0 : reg = RegAddr.mac0
    · subst hmac0
      exact or_mac0 r.localMac
    · by_cases hmac1 : reg = RegAddr.mac1
      · subst hmac1
        exact or_mac1 r.localMac
      · simp [hmac0, hmac1, ConfigRegs.config]
  · exact read_or rfl
  · exact read_or rfl
  · exact read_or rfl
  · exact read_or rfl
  · exact read_or rfl
  · exact read_or rfl

/-- No register is touched. -/
theorem touched_false (c : ControllerConfig) : c.touched (fun _ => false) = c := rfl

/-- Setting a bit twice. -/
theorem or_or {w : ℕ} (x m : BitVec w) (a b : Bool) :
    (if b then (if a then x ||| m else x) ||| m else if a then x ||| m else x) = if a || b then x ||| m else x := by
  cases a <;> cases b <;> simp [BitVec.or_assoc]

/-- Setting two bits twice. -/
theorem or_or_two {w : ℕ} (x m n : BitVec w) (a b a' b' : Bool) :
    (let low (y : BitVec w) (a : Bool) := if a then y ||| m else y
      let both (y : BitVec w) (a b : Bool) := if b then low y a ||| n else low y a
      both (both x a b) a' b' = both x (a || a') (b || b')) := by
  apply BitVec.eq_of_getLsbD_eq
  intro i _
  cases a <;> cases b <;> cases a' <;> cases b' <;>
    simp only [BitVec.getLsbD_or, Bool.or_true, Bool.or_false, if_true, Bool.false_eq_true, if_false] <;>
    cases x.getLsbD i <;> cases m.getLsbD i <;> cases n.getLsbD i <;> rfl

/-- Touching registers one after the other. -/
theorem touched_touched (c : ControllerConfig) (t u : RegAddr → Bool) :
    (c.touched t).touched u = c.touched (fun reg => t reg || u reg) := by
  apply ControllerConfig.ext
  · exact or_or_two _ _ _ _ _ _ _
  · exact or_or _ _ _ _
  · exact or_or _ _ _ _
  · exact or_or _ _ _ _
  · exact or_or _ _ _ _
  · exact or_or _ _ _ _
  · exact or_or _ _ _ _

end Touching

/-- The registers the control words of the listed sockets fall on. -/
def touches (ids : List (BitVec 16)) (reg : RegAddr) : Bool :=
  ids.any fun id => decide (ConfigRegs.bufferRxCtrl id.toNat = reg)

/-- The configuration once the device was notified of the driver data, with what `in4_pton` left in `gw4`. -/
def reconfigured (gw4 : BitVec 32) (p : DriverParams) (c : ControllerConfig) : ControllerConfig :=
  { c.touched (touches p.listed) with
    udpPortRangeL := p.portLow.setWidth 32
    udpPortRangeH := p.portHigh.setWidth 32
    gatewayIp := gw4 }

/-- What `in4_pton` leaves in a variable of the stack. -/
def in4PtonInto (in4Pton : List Char → Option (BitVec 32)) (stack : BitVec 32) (gwIp : List Char) : BitVec 32 :=
  (in4Pton gwIp).getD stack

/-- What `in4_pton` may leave there: the address of the text, or anything if it is none. -/
def Parses (in4Pton : List Char → Option (BitVec 32)) (gwIp : List Char) (gw4 : BitVec 32) : Prop :=
  ∀ address, in4Pton gwIp = some address → gw4 = address

/-- The answers to a step when a text that is an address is parsed to it. -/
def Host.RespondsWith (in4Pton : List Char → Option (BitVec 32)) (s : Host) (c : Cmd) (r : c.Response) (s' : Host) :
    Prop :=
  ∃ e : Answer, s.perform e c = (r, s') ∧ ∀ gwIp, c = .in4Pton gwIp → Parses in4Pton gwIp e.gateway

section Effects

variable {in4Pton : List Char → Option (BitVec 32)} {s s' : Host} {cmds : List Cmd}

/-- Such answers are answers. -/
theorem responds_of_respondsWith (s : Host) (c : Cmd) (r : c.Response) (s' : Host) (h : s.RespondsWith in4Pton c r s') :
    s.Responds c r s' := ⟨h.choose, h.choose_spec.1⟩

/-- What lies on the stack is one of the things that may be left. -/
theorem parses_in4PtonInto (stack : BitVec 32) (gwIp : List Char) :
    Parses in4Pton gwIp (in4PtonInto in4Pton stack gwIp) := by
  intro address haddress
  rw [in4PtonInto, haddress]
  rfl

/-- The same lies on the stack whenever a text is parsed. -/
theorem respondsWith_of_stack (stack : BitVec 32) (s : Host) (c : Cmd) (r : c.Response) (s' : Host)
    (h : s.RespondsWith (fun gwIp => some (in4PtonInto in4Pton stack gwIp)) c r s') : s.RespondsWith in4Pton c r s' := by
  obtain ⟨e, he, hparses⟩ := h
  refine ⟨e, he, fun gwIp hc => ?_⟩
  rw [hparses gwIp hc _ rfl]
  exact parses_in4PtonInto stack gwIp

/-- The configuration is not among the control words of the rings. -/
theorem config_write_of_ringOf (r : ConfigRegs) {reg : RegAddr} {idx : BufferIdx} (h : ConfigRegs.ringOf reg = some idx)
    (value : BitVec 32) : (r.write reg value).config = r.config := by
  have hne (named : RegAddr) (hnamed : ConfigRegs.ringOf named = none) : reg ≠ named := by
    rintro rfl
    simp [h] at hnamed
  simp [ConfigRegs.config, ConfigRegs.write, hne RegAddr.mac0 (by decide), hne RegAddr.mac1 (by decide),
    hne RegAddr.gw (by decide), hne RegAddr.snm (by decide), hne RegAddr.ipLoc (by decide),
    hne RegAddr.udpRangeL (by decide), hne RegAddr.udpRangeH (by decide), hne RegAddr.shmem (by decide)]

/-- Closing the sockets leaves the configuration. -/
theorem safe_clearSockets_config : clearSockets.Safe Host.Responds (fun _ => True)
    (fun _ s' => s'.regs.config = s.regs.config) s := by
  refine Program.Safe.forEach (fun _ (s' : Host) => s'.regs.config = s.regs.config) rfl ?_
  intro done bufferId s₁ hmem hconfig
  have hring := ConfigRegs.ringOf_of_lt (List.mem_range.mp hmem)
  refine Program.Safe.bind (safe_read trivial fun status => safe_write trivial ?_)
  exact (config_write_of_ringOf _ hring _).trans hconfig

/-- Opening sockets sets the bits of the registers their control words fall on. -/
theorem safe_openSockets_config (ids : List (BitVec 16)) : (openSockets ids).Safe Host.Responds (fun _ => True)
    (fun _ s' => s'.regs.config = s.regs.config.touched (touches ids)) s := by
  refine Program.Safe.forEach (fun done (s' : Host) => s'.regs.config = s.regs.config.touched (touches done))
    (touched_false _).symm ?_
  intro done id s₁ _ hconfig
  refine Program.Safe.bind (safe_read trivial fun status => ?_)
  refine Program.Safe.bind (safe_write trivial (Program.Safe.bind (safe_read trivial fun _ => .done ?_)))
  change (s₁.regs.write _ _).config = _
  rw [config_write_open, hconfig, touched_touched]
  congr 1
  funext reg
  simp [touches]

/-- `udp_core_netdev_notify_change` configures the device from the driver data. -/
theorem trace_notifyChange (h : Program.Trace (Host.RespondsWith in4Pton) notifyChange s cmds () s') :
    ∃ gw4, Parses in4Pton s.params.gwIp gw4 ∧ s'.regs.config = reconfigured gw4 s.params s.regs.config := by
  obtain ⟨_, rfl, h₁⟩ := split_write responds_of_respondsWith h
  obtain ⟨_, _, _, s₁, rfl, hclear, h₂⟩ := h₁.split
  obtain ⟨_, p, s₂, rfl, ⟨e, he, -⟩, h₃⟩ := h₂.split_command
  obtain ⟨rfl, rfl⟩ := Prod.mk.inj he
  obtain ⟨_, _, _, s₃, rfl, hopen, h₄⟩ := h₃.split
  obtain ⟨_, rfl, h₅⟩ := split_write responds_of_respondsWith h₄
  obtain ⟨_, rfl, h₆⟩ := split_write responds_of_respondsWith h₅
  obtain ⟨_, gw4, s₄, rfl, ⟨e', he', hgw⟩, h₇⟩ := h₆.split_command
  obtain ⟨rfl, rfl⟩ := Prod.mk.inj he'
  obtain ⟨_, rfl, h₈⟩ := split_write responds_of_respondsWith h₇
  obtain ⟨-, hlast⟩ := h₈.of_command
  obtain ⟨e'', he'', -⟩ := hlast
  obtain ⟨-, rfl⟩ := Prod.mk.inj he''
  have hclear' := hclear.mono responds_of_respondsWith
  have hcleared := (safe_clearSockets_config.of_trace hclear').1
  have hsafe (s : Host) (h : HeldAt s s) : clearSockets.Safe Host.Responds (fun _ => True)
      (fun _ s' => HeldAt s s' ∧ s'.Closed) s := safe_clearSockets (fun _ _ => trivial) h
  have hheld := ((hsafe _ ⟨⟨rfl, rfl, rfl, rfl⟩, rfl⟩).of_trace hclear').1.1
  have hopened := ((safe_openSockets_config _).of_trace (hopen.mono responds_of_respondsWith)).1
  have hparams : s₁.params = s.params := hheld.params
  have hconfig : ((((s₃.written RegAddr.udpRangeL (s₁.params.portLow.setWidth 32)).written RegAddr.udpRangeH
      (s₁.params.portHigh.setWidth 32)).written RegAddr.gw e'.gateway).written RegAddr.res 0).regs.config =
      { s₃.regs.config with
        udpPortRangeL := s₁.params.portLow.setWidth 32
        udpPortRangeH := s₁.params.portHigh.setWidth 32
        gatewayIp := e'.gateway } := rfl
  refine ⟨e'.gateway, hparams ▸ hgw _ rfl, ?_⟩
  rw [hconfig, hopened, hcleared, hparams]
  rfl

/-- The settings that can be changed on an open interface. -/
inductive Setting
  | address
  | portLow
  | portHigh
  | sockets
  | mac
deriving DecidableEq

/-- The calls that change one setting. -/
inductive Operation
  /-- `NETDEV_UP`, with the gateway of the default route if one was found. -/
  | up (ifaAddress ifaMask : BitVec 32) (gateway : Option (BitVec 32))
  | portLow (value : BitVec 16)
  | portHigh (value : BitVec 16)
  | openedSockets (value : List Char)
  | setMacAddress (mac : BitVec 48)

namespace Operation

/-- The setting a call concerns. -/
def setting : Operation → Setting
  | up _ _ _ => .address
  | portLow _ => .portLow
  | portHigh _ => .portHigh
  | openedSockets _ => .sockets
  | setMacAddress _ => .mac

variable (kstrtoul : List Char → Option ℕ)

/-- The call the kernel makes. -/
def call : Operation → Call
  | up ifaAddress ifaMask gateway => .inetaddr .up ifaAddress ifaMask gateway
  | portLow value => .devlinkSetU16 .portLow value
  | portHigh value => .devlinkSetU16 .portHigh value
  | openedSockets value => .devlinkSetString .openedSockets value
  | setMacAddress mac => .setMacAddress mac

/-- The driver data after the call. -/
def stored (p : DriverParams) : Operation → DriverParams
  | up _ _ _ | setMacAddress _ => p
  | portLow value => { p with portLow := value }
  | portHigh value => { p with portHigh := value }
  | openedSockets value => p.parseOpenSockets kstrtoul value

/-- The configuration registers after the call, with what `in4_pton` left in `gw4`. -/
def configured (gw4 : BitVec 32) (p : DriverParams) (c : ControllerConfig) : Operation → ControllerConfig
  | up ifaAddress ifaMask gateway =>
    { c with localIp := ifaAddress, subnetMask := ifaMask, gatewayIp := gateway.getD gw4 }
  | setMacAddress mac => if mac.getLsbD 40 || mac == 0 then c else { c with localMac := mac }
  | portLow value => reconfigured gw4 ((portLow value).stored kstrtoul p) c
  | portHigh value => reconfigured gw4 ((portHigh value).stored kstrtoul p) c
  | openedSockets value => reconfigured gw4 ((openedSockets value).stored kstrtoul p) c

/-- The device is notified of the driver data. -/
def notifies : Operation → Bool
  | up _ _ _ | setMacAddress _ => false
  | portLow _ | portHigh _ | openedSockets _ => true

/-- The text of the gateway is parsed. -/
def parses : Operation → Bool
  | up _ _ gateway => gateway.isNone
  | setMacAddress _ => false
  | portLow _ | portHigh _ | openedSockets _ => true

/-- The sockets that are open after the call. -/
def opened (p : DriverParams) (before : BufferIdx → Bool) (x : Operation) (idx : BufferIdx) : Bool :=
  if x.notifies then (x.stored kstrtoul p).listed.any fun id => decide (id.toNat % 2048 = idx.toNat) else before idx

end Operation

variable {kstrtoul : List Char → Option ℕ}

/-- A devlink setter that stores its parameter configures the device from the new driver data. -/
theorem trace_devlinkSet {update : DriverParams → Option DriverParams} {p : DriverParams} {ret : Int}
    (h : Program.Trace (Host.RespondsWith in4Pton) (devlinkSet update) s cmds ret s') (hupdate : update s.params = some p) :
    (∃ gw4, Parses in4Pton p.gwIp gw4 ∧ s'.regs.config = reconfigured gw4 p s.regs.config) ∧ s'.params = p ∧
      s'.regs.userRst = false ∧
      ∀ idx : BufferIdx, s'.regs.opensock idx = true ↔ ∃ id : BitVec 16, id ∈ p.listed ∧ id.toNat % 2048 = idx.toNat := by
  obtain ⟨_, p', s₁, rfl, ⟨e, he, -⟩, h₁⟩ := h.split_command
  obtain ⟨rfl, rfl⟩ := Prod.mk.inj he
  simp only [hupdate] at h₁
  obtain ⟨_, _, s₂, rfl, ⟨e', he', -⟩, h₂⟩ := h₁.split_command
  obtain ⟨-, rfl⟩ := Prod.mk.inj he'
  obtain ⟨_, _, _, s₃, rfl, hnotify, h₃⟩ := h₂.split
  obtain ⟨-, -, rfl⟩ := h₃.of_pure
  have hsafe (s : Host) : notifyChange.Safe Host.Responds (fun _ => True)
      (fun _ s' => Reopened s s' ∧ s'.regs.userRst = false) s :=
    safe_notifyChange (fun _ _ => trivial) fun _ _ _ => trivial
  obtain ⟨hreopened, hreleased⟩ := ((hsafe _).of_trace (hnotify.mono responds_of_respondsWith)).1
  exact ⟨trace_notifyChange hnotify, hreopened.params, hreleased, hreopened.opensock⟩

/-- A write outside the DMA address and the rings leaves the sockets. -/
theorem opensock_plain {s : Host} {reg : RegAddr} (hreg : Plain reg) (value : BitVec 32) :
    (s.written reg value).regs.opensock = s.regs.opensock := funext fun idx => hreg.opensock value idx

/-- The two halves of a MAC address. -/
theorem mac_halves (mac before : BitVec 48) : (((mac.extractLsb' 32 16).setWidth 32).setWidth 16 ++
    (before.extractLsb' 32 16 ++ mac.setWidth 32 : BitVec 48).setWidth 32 : BitVec 48) = mac := by
  apply BitVec.eq_of_getLsbD_eq
  intro i hi
  simp only [BitVec.getLsbD_append, BitVec.getLsbD_setWidth, BitVec.getLsbD_extractLsb']
  grind

/-- An address notification writes the address, the mask and the gateway. -/
theorem trace_notifierCall {ifaAddress ifaMask : BitVec 32} {gateway : Option (BitVec 32)}
    (h : Program.Trace (Host.RespondsWith in4Pton) (notifierCall .up ifaAddress ifaMask gateway) s cmds () s') :
    (∃ gw4, Parses in4Pton s.params.gwIp gw4 ∧ s'.regs.config = { s.regs.config with
      localIp := ifaAddress, subnetMask := ifaMask, gatewayIp := gateway.getD gw4 }) ∧
      s'.params = s.params ∧ s'.regs.userRst = false ∧ s'.regs.opensock = s.regs.opensock := by
  obtain ⟨_, _, written, s₁, rfl, hgateway, h₁⟩ := h.split
  have hgw : (∃ gw4, Parses in4Pton s.params.gwIp gw4 ∧ written = gateway.getD gw4) ∧ s₁ = s := by
    obtain ⟨_, p, s₂, rfl, ⟨e, he, -⟩, h₂⟩ := hgateway.split_command
    obtain ⟨rfl, rfl⟩ := Prod.mk.inj he
    cases gateway with
    | some g =>
      obtain ⟨-, rfl, rfl⟩ := h₂.of_pure
      exact ⟨⟨_, parses_in4PtonInto 0 _, rfl⟩, rfl⟩
    | none =>
      obtain ⟨-, e', he', hparsed⟩ := Program.Trace.of_command h₂
      obtain ⟨rfl, rfl⟩ := Prod.mk.inj he'
      exact ⟨⟨_, hparsed _ rfl, rfl⟩, rfl⟩
  obtain ⟨⟨gw4, hgw4, rfl⟩, rfl⟩ := hgw
  obtain ⟨_, rfl, h₂⟩ := split_write responds_of_respondsWith h₁
  obtain ⟨_, rfl, h₃⟩ := split_write responds_of_respondsWith h₂
  obtain ⟨_, rfl, h₄⟩ := split_write responds_of_respondsWith h₃
  obtain ⟨_, rfl, h₅⟩ := split_write responds_of_respondsWith h₄
  obtain ⟨-, e, he, -⟩ := Program.Trace.of_command h₅
  obtain ⟨-, rfl⟩ := Prod.mk.inj he
  refine ⟨⟨gw4, hgw4, rfl⟩, rfl, rfl, ?_⟩
  exact (opensock_plain (by decide : Plain RegAddr.res) 0).trans <|
    (opensock_plain (by decide : Plain RegAddr.gw) _).trans <| (opensock_plain (by decide : Plain RegAddr.snm) _).trans <|
    (opensock_plain (by decide : Plain RegAddr.ipLoc) _).trans (opensock_plain (by decide : Plain RegAddr.res) 1)

/-- A change of the MAC address writes the MAC registers, unless it is refused. -/
theorem trace_setMacAddress {mac : BitVec 48} {ret : Int}
    (h : Program.Trace (Host.RespondsWith in4Pton) (ndoSetMacAddress mac) s cmds ret s') :
    s'.regs.config = (if mac.getLsbD 40 || mac == 0 then s.regs.config else { s.regs.config with localMac := mac }) ∧
      s'.params = s.params ∧ s'.regs.userRst = s.regs.userRst ∧ s'.regs.opensock = s.regs.opensock := by
  rw [ndoSetMacAddress] at h
  split at h
  · rename_i hrefused
    obtain ⟨-, -, rfl⟩ := h.of_pure
    rw [if_pos hrefused]
    exact ⟨rfl, rfl, rfl, rfl⟩
  · rename_i hrefused
    rw [if_neg hrefused]
    obtain ⟨_, rfl, h₁⟩ := split_write responds_of_respondsWith h
    obtain ⟨_, rfl, h₂⟩ := split_write responds_of_respondsWith h₁
    obtain ⟨-, -, rfl⟩ := h₂.of_pure
    refine ⟨?_, rfl, rfl, ?_⟩
    · have hconfig : ((s.written RegAddr.mac0 (mac.setWidth 32)).written RegAddr.mac1
          ((mac.extractLsb' 32 16).setWidth 32)).regs.config = { s.regs.config with
            localMac := ((mac.extractLsb' 32 16).setWidth 32).setWidth 16 ++
              (s.regs.localMac.extractLsb' 32 16 ++ mac.setWidth 32 : BitVec 48).setWidth 32 } := rfl
      rw [hconfig, mac_halves]
    · exact (opensock_plain (by decide : Plain RegAddr.mac1) _).trans (opensock_plain (by decide : Plain RegAddr.mac0) _)

/-- What a call does to the registers. -/
theorem trace_operation {x : Operation}
    (h : Program.Trace (Host.RespondsWith in4Pton) (x.call.code kstrtoul) s cmds () s') :
    s'.params = x.stored kstrtoul s.params ∧
      (∃ gw4, Parses in4Pton s.params.gwIp gw4 ∧
        s'.regs.config = x.configured kstrtoul gw4 s.params s.regs.config) ∧
      s'.regs.opensock = x.opened kstrtoul s.params s.regs.opensock ∧
      (x.setting = .mac ∧ s'.regs.userRst = s.regs.userRst ∨ x.setting ≠ .mac ∧ s'.regs.userRst = false) := by
  have hset {p : DriverParams} (hopens : ∀ idx : BufferIdx, s'.regs.opensock idx = true ↔
      ∃ id : BitVec 16, id ∈ p.listed ∧ id.toNat % 2048 = idx.toNat) : s'.regs.opensock =
      fun idx => p.listed.any fun id => decide (id.toNat % 2048 = idx.toNat) := by
    funext idx
    rw [Bool.eq_iff_iff, hopens, List.any_eq_true]
    simp only [decide_eq_true_eq]
  cases x with
  | up ifaAddress ifaMask gateway =>
    obtain ⟨hconfig, hparams, hreset, hopens⟩ := trace_notifierCall h
    exact ⟨hparams, hconfig, hopens, Or.inr ⟨by simp [Operation.setting], hreset⟩⟩
  | portLow value =>
    obtain ⟨_, _, _, _, rfl, hfirst, hlast⟩ := Program.Trace.split h
    obtain ⟨-, -, rfl⟩ := hlast.of_pure
    obtain ⟨hconfig, hparams, hreset, hopens⟩ := trace_devlinkSet hfirst rfl
    exact ⟨hparams, hconfig, hset hopens, Or.inr ⟨by simp [Operation.setting], hreset⟩⟩
  | portHigh value =>
    obtain ⟨_, _, _, _, rfl, hfirst, hlast⟩ := Program.Trace.split h
    obtain ⟨-, -, rfl⟩ := hlast.of_pure
    obtain ⟨hconfig, hparams, hreset, hopens⟩ := trace_devlinkSet hfirst rfl
    exact ⟨hparams, hconfig, hset hopens, Or.inr ⟨by simp [Operation.setting], hreset⟩⟩
  | openedSockets value =>
    obtain ⟨_, _, _, _, rfl, hfirst, hlast⟩ := Program.Trace.split h
    obtain ⟨-, -, rfl⟩ := hlast.of_pure
    obtain ⟨hconfig, hparams, hreset, hopens⟩ := trace_devlinkSet hfirst rfl
    exact ⟨hparams, hconfig, hset hopens, Or.inr ⟨by simp [Operation.setting], hreset⟩⟩
  | setMacAddress mac =>
    obtain ⟨_, _, _, _, rfl, hfirst, hlast⟩ := Program.Trace.split h
    obtain ⟨-, -, rfl⟩ := hlast.of_pure
    obtain ⟨hconfig, hparams, hreset, hopens⟩ := trace_setMacAddress hfirst
    exact ⟨hparams, ⟨_, parses_in4PtonInto 0 _, hconfig⟩, hopens, Or.inl ⟨rfl, hreset⟩⟩

end Effects

/-- The configuration registers, the reset and the sockets are the same. -/
structure SameSettings (r r' : ConfigRegs) : Prop where
  config : r.config = r'.config
  userRst : r.userRst = r'.userRst
  opensock : r.opensock = r'.opensock

/-- The registers the first sockets fall on are touched by the second ones as well, or have the bit anyway. -/
structure TouchesNoMore (c : ControllerConfig) (before after : List (BitVec 16)) : Prop where
  mac0 : touches before RegAddr.mac0 = true →
    touches after RegAddr.mac0 = true ∨ c.localMac.getLsbD bufferOpensockOffset = true
  mac1 : touches before RegAddr.mac1 = true →
    touches after RegAddr.mac1 = true ∨ c.localMac.getLsbD (32 + bufferOpensockOffset) = true
  snm : touches before RegAddr.snm = true →
    touches after RegAddr.snm = true ∨ c.subnetMask.getLsbD bufferOpensockOffset = true
  ipLoc : touches before RegAddr.ipLoc = true →
    touches after RegAddr.ipLoc = true ∨ c.localIp.getLsbD bufferOpensockOffset = true
  shmem : touches before RegAddr.shmem = true →
    touches after RegAddr.shmem = true ∨ c.sharedMemBaseAddress.getLsbD bufferOpensockOffset = true

namespace Operation

variable (kstrtoul : List Char → Option ℕ) (in4Pton : List Char → Option (BitVec 32))

/-- What the first call writes is not changed by the notification of the second one: the gateway it wrote is the
configured one, and no listed socket falls on a register it wrote, unless the bit is set anyway. -/
def Keeps (p : DriverParams) (c : ControllerConfig) (x y : Operation) : Prop :=
  y.notifies = true →
    match x with
    | up ifaAddress ifaMask gateway =>
      (gateway = none ∨ gateway = in4Pton p.gwIp) ∧
        (touches (y.stored kstrtoul p).listed RegAddr.snm = true → ifaMask.getLsbD bufferOpensockOffset = true) ∧
        (touches (y.stored kstrtoul p).listed RegAddr.ipLoc = true → ifaAddress.getLsbD bufferOpensockOffset = true)
    | setMacAddress mac =>
      (mac.getLsbD 40 || mac == 0) = true ∨
        (touches (y.stored kstrtoul p).listed RegAddr.mac0 = true → mac.getLsbD bufferOpensockOffset = true) ∧
        (touches (y.stored kstrtoul p).listed RegAddr.mac1 = true → mac.getLsbD (32 + bufferOpensockOffset) = true)
    | portLow _ | portHigh _ | openedSockets _ =>
      TouchesNoMore c (x.stored kstrtoul p).listed (y.stored kstrtoul (x.stored kstrtoul p)).listed

section Algebra

variable {kstrtoul in4Pton} {p : DriverParams} {c : ControllerConfig} {gw4 : BitVec 32}

/-- Different parameters are stored in any order. -/
theorem stored_comm {x y : Operation} (h : x.setting ≠ y.setting) :
    y.stored kstrtoul (x.stored kstrtoul p) = x.stored kstrtoul (y.stored kstrtoul p) := by
  cases x <;> cases y <;> first | rfl | exact absurd rfl h

/-- The bits of a word of which one was set. -/
theorem getLsbD_or_bit {w k : ℕ} (hk : k < w) (x : BitVec w) (a : Bool) (i : ℕ) :
    (if a then x ||| (1 : BitVec w) <<< k else x).getLsbD i = (x.getLsbD i || (a && decide (i = k))) := by
  cases a with
  | true => rw [if_pos rfl, BitVec.getLsbD_or, getLsbD_one_shiftLeft hk, Bool.true_and]
  | false => rw [if_neg Bool.false_ne_true, Bool.false_and, Bool.or_false]

/-- A bit is set under either of two conditions, or it is set before. -/
theorem or_bit_eq_iff {w k : ℕ} (hk : k < w) (x : BitVec w) (a b : Bool) :
    (if a then x ||| (1 : BitVec w) <<< k else x) = (if b then x ||| (1 : BitVec w) <<< k else x) ↔
      (a || x.getLsbD k) = (b || x.getLsbD k) := by
  constructor
  · intro heq
    have hbit := congrArg (fun y => y.getLsbD k) heq
    simp only [getLsbD_or_bit hk, decide_true, Bool.and_true] at hbit
    rw [Bool.or_comm a, Bool.or_comm b, hbit]
  · intro heq
    apply BitVec.eq_of_getLsbD_eq
    intro i _
    rw [getLsbD_or_bit hk, getLsbD_or_bit hk]
    by_cases hi : i = k
    · subst hi
      rw [decide_eq_true rfl, Bool.and_true, Bool.and_true, Bool.or_comm, heq, Bool.or_comm]
    · rw [decide_eq_false hi, Bool.and_false, Bool.and_false]

/-- The two socket bits of the MAC address. -/
theorem touched_mac_eq_iff (c : ControllerConfig) (t u : RegAddr → Bool) :
    (c.touched t).localMac = (c.touched u).localMac ↔
      (t RegAddr.mac0 || c.localMac.getLsbD bufferOpensockOffset) =
          (u RegAddr.mac0 || c.localMac.getLsbD bufferOpensockOffset) ∧
        (t RegAddr.mac1 || c.localMac.getLsbD (32 + bufferOpensockOffset)) =
          (u RegAddr.mac1 || c.localMac.getLsbD (32 + bufferOpensockOffset)) := by
  have hbit (t : RegAddr → Bool) (i : ℕ) : (c.touched t).localMac.getLsbD i =
      (c.localMac.getLsbD i || (t RegAddr.mac0 && decide (i = bufferOpensockOffset)) ||
        (t RegAddr.mac1 && decide (i = 32 + bufferOpensockOffset))) := by
    unfold ControllerConfig.touched
    rw [getLsbD_or_bit (by decide), getLsbD_or_bit (by decide)]
  have hlow (t : RegAddr → Bool) : (c.touched t).localMac.getLsbD bufferOpensockOffset =
      (t RegAddr.mac0 || c.localMac.getLsbD bufferOpensockOffset) := by
    simp [hbit, Bool.or_comm]
  have hhigh (t : RegAddr → Bool) : (c.touched t).localMac.getLsbD (32 + bufferOpensockOffset) =
      (t RegAddr.mac1 || c.localMac.getLsbD (32 + bufferOpensockOffset)) := by
    have hne : 32 + bufferOpensockOffset ≠ bufferOpensockOffset := by decide
    rw [hbit, decide_eq_false hne, decide_eq_true rfl, Bool.and_false, Bool.or_false, Bool.and_true, Bool.or_comm]
  constructor
  · intro heq
    rw [← hlow, ← hlow, ← hhigh, ← hhigh, heq]
    exact ⟨rfl, rfl⟩
  · intro ⟨hmac0, hmac1⟩
    apply BitVec.eq_of_getLsbD_eq
    intro i _
    by_cases hi : i = bufferOpensockOffset
    · rw [hi, hlow, hlow, hmac0]
    · by_cases hi' : i = 32 + bufferOpensockOffset
      · rw [hi', hhigh, hhigh, hmac1]
      · simp [hbit, hi, hi']

/-- A bit is set only where it is set before. -/
theorem or_bit_eq_self_iff {w k : ℕ} (hk : k < w) (x : BitVec w) (a : Bool) :
    (if a then x ||| (1 : BitVec w) <<< k else x) = x ↔ (a = true → x.getLsbD k = true) := by
  have h := or_bit_eq_iff hk x a false
  rw [if_neg Bool.false_ne_true] at h
  rw [h]
  cases a <;> simp

/-- An address and a configuration from the driver data. -/
theorem configured_up_iff {q : DriverParams} (ifaAddress ifaMask : BitVec 32)
    (gateway : Option (BitVec 32)) :
    reconfigured gw4 q { c with localIp := ifaAddress, subnetMask := ifaMask, gatewayIp := gateway.getD gw4 } =
        { reconfigured gw4 q c with
          localIp := ifaAddress, subnetMask := ifaMask, gatewayIp := gateway.getD gw4 } ↔
      (gateway = none ∨ gateway = some gw4) ∧
        (touches q.listed RegAddr.snm = true → ifaMask.getLsbD bufferOpensockOffset = true) ∧
        (touches q.listed RegAddr.ipLoc = true → ifaAddress.getLsbD bufferOpensockOffset = true) := by
  have hgateway : gw4 = gateway.getD gw4 ↔ gateway = none ∨ gateway = some gw4 := by
    cases gateway with
    | none => simp
    | some g => simp [eq_comm]
  have hmask := or_bit_eq_self_iff (by decide : bufferOpensockOffset < 32) ifaMask (touches q.listed RegAddr.snm)
  have haddress := or_bit_eq_self_iff (by decide : bufferOpensockOffset < 32) ifaAddress (touches q.listed RegAddr.ipLoc)
  rw [ControllerConfig.ext_iff, ← hgateway, ← hmask, ← haddress]
  constructor
  · intro ⟨_, hgateway, hmask, haddress, _⟩
    exact ⟨hgateway, hmask, haddress⟩
  · intro ⟨hgateway, hmask, haddress⟩
    exact ⟨rfl, hgateway, hmask, haddress, rfl, rfl, rfl⟩

/-- A MAC address and a configuration from the driver data. -/
theorem configured_mac_iff {q : DriverParams} (mac : BitVec 48) :
    reconfigured gw4 q { c with localMac := mac } = { reconfigured gw4 q c with localMac := mac } ↔
      (touches q.listed RegAddr.mac0 = true → mac.getLsbD bufferOpensockOffset = true) ∧
        (touches q.listed RegAddr.mac1 = true → mac.getLsbD (32 + bufferOpensockOffset) = true) := by
  have hmac := touched_mac_eq_iff { c with localMac := mac } (touches q.listed) (fun _ => false)
  have hsingle (a b : Bool) : (a || b) = (false || b) ↔ (a = true → b = true) := by
    cases a <;> cases b <;> simp
  rw [hsingle, hsingle] at hmac
  rw [ControllerConfig.ext_iff, ← hmac]
  constructor
  · intro ⟨hmac, _⟩
    exact hmac
  · intro hmac
    exact ⟨hmac, rfl, rfl, rfl, rfl, rfl, rfl⟩

/-- Two configurations from the driver data, of which the second ones list the same sockets. -/
theorem reconfigured_iff {q q' last : DriverParams} (hlast : last.listed = q'.listed) :
    reconfigured gw4 last (reconfigured gw4 q c) = reconfigured gw4 last (reconfigured gw4 q' c) ↔
      TouchesNoMore c q.listed q'.listed := by
  have hmerged (q : DriverParams) : reconfigured gw4 last (reconfigured gw4 q c) =
      { c.touched (fun reg => touches q.listed reg || touches q'.listed reg) with
        udpPortRangeL := last.portLow.setWidth 32
        udpPortRangeH := last.portHigh.setWidth 32
        gatewayIp := gw4 } := by
    rw [← touched_touched, ← hlast]
    rfl
  have hsingle (a b d : Bool) : ((a || b) || d) = ((b || b) || d) ↔ (a = true → b = true ∨ d = true) := by
    cases a <;> cases b <;> cases d <;> simp
  have hword (x : BitVec 32) (a b : Bool) := or_bit_eq_iff (by decide : bufferOpensockOffset < 32) x (a || b) (b || b)
  have hmac := touched_mac_eq_iff c (fun reg => touches q.listed reg || touches q'.listed reg)
    (fun reg => touches q'.listed reg || touches q'.listed reg)
  simp only [hsingle] at hmac hword
  rw [hmerged, hmerged, ControllerConfig.ext_iff]
  constructor
  · intro ⟨hmac', _, hsnm, hipLoc, _, _, hshmem⟩
    obtain ⟨hmac0, hmac1⟩ := hmac.mp hmac'
    exact ⟨hmac0, hmac1, (hword _ _ _).mp hsnm, (hword _ _ _).mp hipLoc, (hword _ _ _).mp hshmem⟩
  · intro ⟨hmac0, hmac1, hsnm, hipLoc, hshmem⟩
    exact ⟨hmac.mpr ⟨hmac0, hmac1⟩, rfl, (hword _ _ _).mpr hsnm, (hword _ _ _).mpr hipLoc, rfl, rfl, (hword _ _ _).mpr hshmem⟩

/-- Two sets list the same sockets after both as after one of them. -/
theorem listed_stored {x y : Operation} (hx : x.notifies = true) (hy : y.notifies = true) (hne : x.setting ≠ y.setting) :
    (y.stored kstrtoul (x.stored kstrtoul p)).listed = (y.stored kstrtoul p).listed ∧
        (x.stored kstrtoul p).listed = p.listed ∨
      (y.stored kstrtoul (x.stored kstrtoul p)).listed = (x.stored kstrtoul p).listed ∧
        (y.stored kstrtoul p).listed = p.listed := by
  cases x with
  | up | setMacAddress => exact Bool.noConfusion hx
  | portLow | portHigh => exact Or.inl ⟨by cases y <;> rfl, rfl⟩
  | openedSockets =>
    cases y with
    | up | setMacAddress => exact Bool.noConfusion hy
    | portLow | portHigh => exact Or.inr ⟨rfl, rfl⟩
    | openedSockets => exact absurd rfl hne

/-- Two sets commute exactly if the sockets of neither touch more than those of the last one. -/
theorem configured_sets_iff {x y : Operation} (hx : x.notifies = true) (hy : y.notifies = true)
    (hne : x.setting ≠ y.setting) :
    reconfigured gw4 (y.stored kstrtoul (x.stored kstrtoul p)) (reconfigured gw4 (x.stored kstrtoul p) c) =
        reconfigured gw4 (x.stored kstrtoul (y.stored kstrtoul p)) (reconfigured gw4 (y.stored kstrtoul p) c) ↔
      TouchesNoMore c (x.stored kstrtoul p).listed (y.stored kstrtoul (x.stored kstrtoul p)).listed ∧
        TouchesNoMore c (y.stored kstrtoul p).listed (x.stored kstrtoul (y.stored kstrtoul p)).listed := by
  have hself (ids : List (BitVec 16)) : TouchesNoMore c ids ids := ⟨Or.inl, Or.inl, Or.inl, Or.inl, Or.inl⟩
  rw [← stored_comm hne]
  obtain ⟨hlast, -⟩ | ⟨hlast, -⟩ := listed_stored (p := p) hx hy hne
  · rw [reconfigured_iff hlast, hlast]
    exact ⟨fun h => ⟨h, hself _⟩, fun h => h.1⟩
  · rw [eq_comm, reconfigured_iff hlast, hlast]
    exact ⟨fun h => ⟨hself _, h⟩, fun h => h.2⟩

/-- A set configures the device from the driver data. -/
theorem configured_of_notifies {x : Operation} (hx : x.notifies = true) :
    x.configured kstrtoul gw4 p c = reconfigured gw4 (x.stored kstrtoul p) c := by
  cases x with
  | up | setMacAddress => exact Bool.noConfusion hx
  | portLow | portHigh | openedSockets => rfl

/-- Only a notification changes what was written. -/
theorem keeps_of_not_notifies {x y : Operation} (hy : y.notifies = false) : x.Keeps kstrtoul in4Pton p c y :=
  fun h => Bool.noConfusion (hy.symm.trans h)

/-- The gateway of the driver data is not among the settings. -/
theorem gwIp_stored (x : Operation) : (x.stored kstrtoul p).gwIp = p.gwIp := by
  cases x <;> rfl

/-- A set parses the text of the gateway. -/
theorem parses_of_notifies {x : Operation} (hx : x.notifies = true) : x.parses = true := by
  cases x with
  | up | setMacAddress => exact Bool.noConfusion hx
  | portLow | portHigh | openedSockets => rfl

/-- What is parsed is written. -/
theorem gatewayIp_configured {x : Operation} (hparses : x.parses = true) :
    (x.configured kstrtoul gw4 p c).gatewayIp = gw4 := by
  cases x with
  | up _ _ gateway =>
    obtain rfl := Option.isNone_iff_eq_none.mp hparses
    rfl
  | setMacAddress => exact Bool.noConfusion hparses
  | portLow | portHigh | openedSockets => rfl

/-- What is not parsed is not looked at. -/
theorem configured_congr {x : Operation} (hparses : x.parses = false) (gw4 gw4' : BitVec 32) :
    x.configured kstrtoul gw4 p c = x.configured kstrtoul gw4' p c := by
  cases x with
  | up _ _ gateway =>
    obtain ⟨g, rfl⟩ := Option.isSome_iff_exists.mp (Option.isNone_eq_false_iff.mp hparses)
    rfl
  | setMacAddress => rfl
  | portLow | portHigh | openedSockets => exact Bool.noConfusion hparses

/-- An address and a MAC address. -/
theorem configured_comm {x y : Operation} (hx : x.notifies = false) (hy : y.notifies = false)
    (hne : x.setting ≠ y.setting) :
    y.configured kstrtoul gw4 (x.stored kstrtoul p) (x.configured kstrtoul gw4 p c) =
        x.configured kstrtoul gw4 (y.stored kstrtoul p) (y.configured kstrtoul gw4 p c) := by
  cases x <;> cases y <;> simp_all [notifies, setting, configured] <;> split <;> rfl

/-- The other calls and a set. -/
theorem configured_set_iff {x y : Operation} (hgw4 : in4Pton p.gwIp = some gw4) (hx : x.notifies = false)
    (hy : y.notifies = true) :
    y.configured kstrtoul gw4 (x.stored kstrtoul p) (x.configured kstrtoul gw4 p c) =
        x.configured kstrtoul gw4 (y.stored kstrtoul p) (y.configured kstrtoul gw4 p c) ↔
      x.Keeps kstrtoul in4Pton p c y := by
  rw [configured_of_notifies hy, configured_of_notifies hy]
  cases x with
  | portLow | portHigh | openedSockets => exact Bool.noConfusion hx
  | up ifaAddress ifaMask gateway =>
    refine (configured_up_iff ifaAddress ifaMask gateway).trans ?_
    rw [← hgw4]
    exact ⟨fun hkeeps _ => hkeeps, fun hkeeps => hkeeps hy⟩
  | setMacAddress mac =>
    by_cases hrefused : (mac.getLsbD 40 || mac == 0) = true
    · have hafter (q : DriverParams) (d : ControllerConfig) : (setMacAddress mac).configured kstrtoul gw4 q d = d :=
        if_pos hrefused
      rw [hafter, hafter]
      exact iff_of_true rfl fun _ => Or.inl hrefused
    · have hafter (q : DriverParams) (d : ControllerConfig) :
          (setMacAddress mac).configured kstrtoul gw4 q d = { d with localMac := mac } := if_neg hrefused
      rw [hafter, hafter]
      exact (configured_mac_iff mac).trans ⟨fun hkeeps _ => Or.inr hkeeps, fun hkeeps => (hkeeps hy).resolve_left hrefused⟩

/-- The configuration is the same in either order exactly if each call keeps what the other one wrote. -/
theorem configured_comm_iff {x y : Operation} (hgw4 : in4Pton p.gwIp = some gw4) (hne : x.setting ≠ y.setting) :
    y.configured kstrtoul gw4 (x.stored kstrtoul p) (x.configured kstrtoul gw4 p c) =
        x.configured kstrtoul gw4 (y.stored kstrtoul p) (y.configured kstrtoul gw4 p c) ↔
      x.Keeps kstrtoul in4Pton p c y ∧ y.Keeps kstrtoul in4Pton p c x := by
  cases hx : x.notifies with
  | false =>
    rw [and_iff_left (keeps_of_not_notifies hx)]
    cases hy : y.notifies with
    | false => exact iff_of_true (configured_comm hx hy hne) (keeps_of_not_notifies hy)
    | true => exact configured_set_iff hgw4 hx hy
  | true =>
    cases hy : y.notifies with
    | false =>
      rw [and_iff_right (keeps_of_not_notifies hy), eq_comm]
      exact configured_set_iff hgw4 hy hx
    | true =>
      rw [configured_of_notifies hx, configured_of_notifies hy, configured_of_notifies hx, configured_of_notifies hy,
        configured_sets_iff hx hy hne]
      have hsets {x y : Operation} (hx : x.notifies = true) (hy : y.notifies = true) : x.Keeps kstrtoul in4Pton p c y ↔
          TouchesNoMore c (x.stored kstrtoul p).listed (y.stored kstrtoul (x.stored kstrtoul p)).listed := by
        cases x with
        | up | setMacAddress => exact Bool.noConfusion hx
        | portLow | portHigh | openedSockets => exact ⟨fun h => h hy, fun h _ => h⟩
      rw [hsets hx hy, hsets hy hx]

end Algebra

section Order

/-- The calls leave the same settings in either order. -/
def Commutes (s : Host) (x y : Operation) : Prop :=
  ∀ first second first' second' s₁ s₂ s₁' s₂',
    Program.Trace (Host.RespondsWith in4Pton) (x.call.code kstrtoul) s first () s₁ →
    Program.Trace (Host.RespondsWith in4Pton) (y.call.code kstrtoul) s₁ second () s₂ →
    Program.Trace (Host.RespondsWith in4Pton) (y.call.code kstrtoul) s first' () s₁' →
    Program.Trace (Host.RespondsWith in4Pton) (x.call.code kstrtoul) s₁' second' () s₂' →
      SameSettings s₂.regs s₂'.regs

/-- The text of the gateway is an address, unless neither call parses it. -/
def GatewayParsed (p : DriverParams) (x y : Operation) : Prop :=
  x.parses = true ∨ y.parses = true → (in4Pton p.gwIp).isSome = true

variable {kstrtoul in4Pton} {s : Host}

/-- The order in which the orders are named does not matter. -/
theorem commutes_symm {x y : Operation} (h : Commutes kstrtoul in4Pton s x y) : Commutes kstrtoul in4Pton s y x := by
  intro first second first' second' s₁ s₂ s₁' s₂' hy hx hx' hy'
  have hsame := h _ _ _ _ _ _ _ _ hx' hy' hy hx
  exact ⟨hsame.config.symm, hsame.userRst.symm, hsame.opensock.symm⟩

/-- The status of a device that has received nothing. -/
def quiet : StatusInputs where
  bufrx _ := ⟨false, false, true, 0, 0⟩
  buftxHead := 0
  buftxTail := 0
  buftxEmpty := true
  buftxFull := false
  buftxPopped := false
  control _ := 0

/-- A host that answers every step at once, with an area for the device at the given address and an address for every
text. -/
def answering (parsed : List Char → BitVec 32) (status : StatusInputs) (area : BitVec 32) (s : Host) (c : Cmd) :
    c.Response × Host :=
  match c with
  | .in4Pton gwIp => (parsed gwIp, s)
  | c => s.perform ⟨status, some area, 0⟩ c

/-- Such a host answers each text with its address. -/
theorem respondsWith_answering (parsed : List Char → BitVec 32) (status : StatusInputs) (area : BitVec 32) (s : Host) (c : Cmd) :
    s.RespondsWith (fun gwIp => some (parsed gwIp)) c (answering parsed status area s c).1
      (answering parsed status area s c).2 := by
  cases c with
  | in4Pton gwIp =>
    refine ⟨⟨status, none, parsed gwIp⟩, rfl, fun gwIp' h address haddress => ?_⟩
    rw [Cmd.in4Pton.inj h]
    exact Option.some.inj haddress
  | readRegister | writeRegister | allocMemory | freeMemory | params | setParams | setRunning =>
    exact ⟨⟨status, some area, 0⟩, rfl, fun _ h => Cmd.noConfusion h⟩

/-- A call can be made in any state, whatever lies on the stack. -/
theorem exists_trace_call (stack : BitVec 32) (c : Call) (s : Host) : ∃ cmds s', Program.Trace
    (Host.RespondsWith fun gwIp => some (in4PtonInto in4Pton stack gwIp)) (c.code kstrtoul) s cmds () s' := by
  obtain ⟨cmds, h⟩ := Program.exists_trace (answering (in4PtonInto in4Pton stack) quiet 0)
    (respondsWith_answering _ _ _) (c.code kstrtoul) s
  exact ⟨cmds, _, h⟩

/-- The sockets that are open after two sets are those of the last one. -/
theorem opened_comm {x y : Operation} (hne : x.setting ≠ y.setting) (before : BufferIdx → Bool) :
    y.opened kstrtoul (x.stored kstrtoul p) (x.opened kstrtoul p before) =
      x.opened kstrtoul (y.stored kstrtoul p) (y.opened kstrtoul p before) := by
  have hstored {x : Operation} (hx : x.notifies = false) (p : DriverParams) : x.stored kstrtoul p = p := by
    cases x with
    | up | setMacAddress => rfl
    | portLow | portHigh | openedSockets => exact Bool.noConfusion hx
  funext idx
  unfold opened
  cases hx : x.notifies with
  | false => cases hy : y.notifies <;> simp [hstored hx]
  | true =>
    cases hy : y.notifies with
    | false => simp [hstored hy]
    | true => simp [stored_comm hne]

/-- What two calls do to the registers. -/
theorem trace_two {x y : Operation} (hne : x.setting ≠ y.setting) {first second : List Cmd} {s₁ s₂ : Host}
    (hx : Program.Trace (Host.RespondsWith in4Pton) (x.call.code kstrtoul) s first () s₁)
    (hy : Program.Trace (Host.RespondsWith in4Pton) (y.call.code kstrtoul) s₁ second () s₂) :
    (∃ gw4 gw4', Parses in4Pton s.params.gwIp gw4 ∧ Parses in4Pton s.params.gwIp gw4' ∧ s₂.regs.config =
        y.configured kstrtoul gw4' (x.stored kstrtoul s.params) (x.configured kstrtoul gw4 s.params s.regs.config)) ∧
      s₂.regs.userRst = false ∧
      s₂.regs.opensock = y.opened kstrtoul (x.stored kstrtoul s.params) (x.opened kstrtoul s.params s.regs.opensock) := by
  obtain ⟨hparams, ⟨gw4, hgw4, hconfig⟩, hopens, hreset⟩ := trace_operation hx
  obtain ⟨-, ⟨gw4', hgw4', hconfig'⟩, hopens', hreset'⟩ := trace_operation hy
  rw [hparams, hconfig] at hconfig'
  rw [hparams, gwIp_stored] at hgw4'
  rw [hparams, hopens] at hopens'
  refine ⟨⟨gw4, gw4', hgw4, hgw4', hconfig'⟩, ?_, hopens'⟩
  obtain ⟨hmac', hkept⟩ | ⟨-, hlow⟩ := hreset'
  · obtain ⟨hmac, -⟩ | ⟨-, hlow⟩ := hreset
    · exact absurd (hmac.trans hmac'.symm) hne
    · exact hkept.trans hlow
  · exact hlow

/-- If the text of the gateway is no address, a call that parses it leaves what lies on the stack. -/
theorem not_commutes_of_parses {x y : Operation} (hnone : in4Pton s.params.gwIp = none) (hparses : x.parses = true) :
    ¬ Commutes kstrtoul in4Pton s x y := by
  intro hcommutes
  obtain ⟨first, s₁, hx⟩ := @exists_trace_call kstrtoul in4Pton 0 x.call s
  obtain ⟨second, s₂, hy⟩ := @exists_trace_call kstrtoul in4Pton 0 y.call s₁
  have hgateway (stack : BitVec 32) : s₂.regs.config.gatewayIp = stack := by
    obtain ⟨first', s₁', hy'⟩ := @exists_trace_call kstrtoul in4Pton stack y.call s
    obtain ⟨second', s₂', hx'⟩ := @exists_trace_call kstrtoul in4Pton stack x.call s₁'
    have hsame := (hcommutes _ _ _ _ _ _ _ _ (hx.mono (respondsWith_of_stack 0)) (hy.mono (respondsWith_of_stack 0))
      (hy'.mono (respondsWith_of_stack stack)) (hx'.mono (respondsWith_of_stack stack))).config
    obtain ⟨hparams, -⟩ := trace_operation hy'
    obtain ⟨-, ⟨gw4, hgw4, hconfig⟩, -⟩ := trace_operation hx'
    rw [hsame, hconfig, gatewayIp_configured hparses, hgw4 _ rfl, hparams, gwIp_stored, in4PtonInto, hnone]
    rfl
  exact absurd ((hgateway 0).symm.trans (hgateway 1)) (by decide)

/-- Two calls commute if the configuration they leave does not depend on their order. -/
theorem commutes_of_configured {x y : Operation} (hne : x.setting ≠ y.setting)
    (h : ∀ a a' b b', Parses in4Pton s.params.gwIp a → Parses in4Pton s.params.gwIp a' →
      Parses in4Pton s.params.gwIp b → Parses in4Pton s.params.gwIp b' →
        y.configured kstrtoul a' (x.stored kstrtoul s.params) (x.configured kstrtoul a s.params s.regs.config) =
          x.configured kstrtoul b' (y.stored kstrtoul s.params) (y.configured kstrtoul b s.params s.regs.config)) :
    Commutes kstrtoul in4Pton s x y := by
  intro first second first' second' s₁ s₂ s₁' s₂' hx hy hy' hx'
  obtain ⟨⟨a, a', ha, ha', hafter⟩, hreset, hopens⟩ := trace_two hne hx hy
  obtain ⟨⟨b, b', hb, hb', hafter'⟩, hreset', hopens'⟩ := trace_two hne.symm hy' hx'
  exact {
    config := by rw [hafter, hafter', h a a' b b' ha ha' hb hb']
    userRst := hreset.trans hreset'.symm
    opensock := by rw [hopens, hopens', opened_comm hne]
  }

/-- With an address for the text, they commute exactly if neither rewrites what the other one wrote. -/
theorem commutes_iff_of_parsed {address : BitVec 32} {x y : Operation} (hparsed : in4Pton s.params.gwIp = some address)
    (hne : x.setting ≠ y.setting) : Commutes kstrtoul in4Pton s x y ↔
      x.Keeps kstrtoul in4Pton s.params s.regs.config y ∧ y.Keeps kstrtoul in4Pton s.params s.regs.config x := by
  rw [← configured_comm_iff hparsed hne]
  constructor
  · intro hcommutes
    obtain ⟨first, s₁, hx⟩ := @exists_trace_call kstrtoul in4Pton 0 x.call s
    obtain ⟨second, s₂, hy⟩ := @exists_trace_call kstrtoul in4Pton 0 y.call s₁
    obtain ⟨first', s₁', hy'⟩ := @exists_trace_call kstrtoul in4Pton 0 y.call s
    obtain ⟨second', s₂', hx'⟩ := @exists_trace_call kstrtoul in4Pton 0 x.call s₁'
    have hx := hx.mono (respondsWith_of_stack 0)
    have hy := hy.mono (respondsWith_of_stack 0)
    have hx' := hx'.mono (respondsWith_of_stack 0)
    have hy' := hy'.mono (respondsWith_of_stack 0)
    have hsame := (hcommutes _ _ _ _ _ _ _ _ hx hy hy' hx').config
    obtain ⟨⟨a, a', ha, ha', hafter⟩, -⟩ := trace_two hne hx hy
    obtain ⟨⟨b, b', hb, hb', hafter'⟩, -⟩ := trace_two hne.symm hy' hx'
    rwa [hafter, hafter', ha _ hparsed, ha' _ hparsed, hb _ hparsed, hb' _ hparsed] at hsame
  · intro hconfig
    refine commutes_of_configured hne fun a a' b b' ha ha' hb hb' => ?_
    rw [ha _ hparsed, ha' _ hparsed, hb _ hparsed, hb' _ hparsed, hconfig]

/-- Calls that concern different settings leave the same settings in either order, exactly if the text of the gateway is
an address, unless neither call parses it, and neither call rewrites what the other one wrote: the gateway of an address
notification is the configured one if a parameter is set, and no socket that a set lists falls on a register the other
call wrote, unless the bit is set anyway. -/
theorem commutes_iff_keeps {x y : Operation} (hne : x.setting ≠ y.setting) :
    Commutes kstrtoul in4Pton s x y ↔ x.GatewayParsed in4Pton s.params y ∧
      x.Keeps kstrtoul in4Pton s.params s.regs.config y ∧ y.Keeps kstrtoul in4Pton s.params s.regs.config x := by
  cases hparsed : in4Pton s.params.gwIp with
  | some address =>
    have hgateway : x.GatewayParsed in4Pton s.params y := by
      intro _
      rw [hparsed]
      rfl
    rw [commutes_iff_of_parsed hparsed hne, and_iff_right hgateway]
  | none =>
    constructor
    · intro hcommutes
      have hx : x.parses ≠ true := fun h => not_commutes_of_parses hparsed h hcommutes
      have hy : y.parses ≠ true := fun h => not_commutes_of_parses hparsed h (commutes_symm hcommutes)
      refine ⟨fun h => absurd h (not_or.mpr ⟨hx, hy⟩), ?_, ?_⟩
      · exact fun h => absurd (parses_of_notifies h) hy
      · exact fun h => absurd (parses_of_notifies h) hx
    · rintro ⟨hgateway, -⟩
      have hneither := mt hgateway (by rw [hparsed]; exact Bool.false_ne_true)
      rw [not_or, Bool.not_eq_true, Bool.not_eq_true] at hneither
      obtain ⟨hx, hy⟩ := hneither
      have hnotifies {z : Operation} (hz : z.parses = false) : z.notifies = false :=
        Bool.eq_false_iff.mpr fun h => Bool.noConfusion ((parses_of_notifies h).symm.trans hz)
      refine commutes_of_configured hne fun a a' b b' _ _ _ _ => ?_
      rw [configured_congr hx a 0, configured_congr hy a' 0, configured_congr hy b 0, configured_congr hx b' 0]
      exact configured_comm (hnotifies hx) (hnotifies hy) hne

/-- `in4_pton` of a text with dots. -/
def dottedQuad (gwIp : List Char) : BitVec 32 :=
  ((gwIp.splitOn '.').filterMap DevlinkSet.decimal).foldl (fun address byte => address <<< 8 ||| BitVec.ofNat 32 byte) 0

/-- `in4_pton` of any text. -/
def dottedAddress (gwIp : List Char) : Option (BitVec 32) :=
  let bytes := (gwIp.splitOn '.').map DevlinkSet.decimal
  if bytes.length = 4 ∧ ∀ byte ∈ bytes, byte.any (fun n => n < 256) = true then some (dottedQuad gwIp) else none

/-- Opening the interface leaves the driver data. -/
theorem safe_ndoOpen_params : Kernel.ndoOpen.Safe Host.Responds (fun _ => True)
    (fun _ s' => s'.params = s.params ∧ s'.running = s.running) s := by
  refine Program.Safe.bind (safe_write trivial ?_)
  refine Program.Safe.bind (safe_command fun e => ⟨trivial, ?_⟩)
  change Program.Safe _ _ _ (match e.area with | none => _ | some _ => _) _
  cases e.area with
  | none => exact .done ⟨rfl, rfl⟩
  | some physDmaArea =>
    refine Program.Safe.bind (safe_params trivial ?_)
    refine Program.Safe.bind (safe_write trivial (Program.Safe.bind (safe_write trivial ?_)))
    refine Program.Safe.bind (safe_write trivial ?_)
    refine Program.Safe.bind ((safe_emptyBuffers (fun _ _ => trivial) ⟨⟨rfl, rfl, rfl, rfl⟩, rfl⟩).mono fun _ s₁ hs₁ => ?_)
    refine Program.Safe.bind ((safe_openSockets (fun _ _ => trivial) hs₁.1.toHeld).mono fun _ s₂ hs₂ => ?_)
    refine Program.Safe.bind (safe_write trivial (Program.Safe.bind (safe_write trivial ?_)))
    refine Program.Safe.bind (safe_write trivial (Program.Safe.bind (safe_write trivial (.done ?_))))
    exact ⟨hs₂.1.params, hs₂.1.running⟩

/-- The open returns 0. -/
theorem eval_ndoOpen (parsed : List Char → BitVec 32) (status : StatusInputs) (area : BitVec 32) :
    (Kernel.ndoOpen.eval (answering parsed status area) s).1 = 0 := by
  simp [Kernel.ndoOpen, writeRegister, answering, Host.perform]

/-- The interface is opened after probe, with the driver data of the probe. -/
theorem exists_opened : ∃ s cmds, Program.Trace (Host.RespondsWith dottedAddress) Kernel.ndoOpen
    { Host.probed with running := true } cmds 0 s ∧ s.params = .initial ∧ s.running = true := by
  obtain ⟨cmds, h⟩ := Program.exists_trace (answering (in4PtonInto dottedAddress 0) quiet 0x3e000000)
    (respondsWith_answering _ _ _) Kernel.ndoOpen { Host.probed with running := true }
  rw [eval_ndoOpen] at h
  exact ⟨_, cmds, h.mono (respondsWith_of_stack 0), (safe_ndoOpen_params.of_trace (h.mono responds_of_respondsWith)).1⟩

/-- An address without a default route, and a set of the opened sockets. -/
theorem commutes_openedSockets : ∃ s cmds, Program.Trace (Host.RespondsWith dottedAddress) Kernel.ndoOpen
    { Host.probed with running := true } cmds 0 s ∧ Commutes DevlinkSet.decimal dottedAddress s
      (.up 0xc0a80132 0xffffff00 none) (.openedSockets ['0', ',', '5']) := by
  obtain ⟨s, cmds, hopen, hparams, -⟩ := exists_opened
  have haddress : (dottedAddress s.params.gwIp).isSome = true := by
    rw [hparams]
    decide +kernel
  refine ⟨s, cmds, hopen, (commutes_iff_keeps (by decide)).mpr
    ⟨fun _ => haddress, fun _ => ⟨Or.inl rfl, ?_⟩, fun h => Bool.noConfusion h⟩⟩
  have hlisted : ((openedSockets ['0', ',', '5']).stored DevlinkSet.decimal s.params).listed = [0, 5] := by
    rw [hparams]
    decide
  rw [hlisted]
  decide

/-- A default route is found, and the lower port is set. -/
theorem not_commutes : ¬ ∀ s cmds, Program.Trace (Host.RespondsWith dottedAddress) Kernel.ndoOpen
    { Host.probed with running := true } cmds 0 s →
      ∀ x y : Operation, x.setting ≠ y.setting → Commutes DevlinkSet.decimal dottedAddress s x y := by
  intro hall
  obtain ⟨s, cmds, hopen, hparams, -⟩ := exists_opened
  have hcommutes := hall s cmds hopen (.up 0xc0a80132 0xffffff00 (some 0xc0a801fe)) (.portLow 7401) (by decide)
  obtain ⟨hgateway, -⟩ := ((commutes_iff_keeps (by decide)).mp hcommutes).2.1 rfl
  rw [hparams] at hgateway
  revert hgateway
  decide +kernel

end Order

end Operation

end Kernel

end UdpIpCore
