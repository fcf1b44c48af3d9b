import UdpIpCore.Kernel.OpenedSockets

/-!
# The gateway texts in memory

The driver data keep the gateway addresses as texts in arrays of fixed length, one behind the
other and the last one at the end of the structure. The setters copy a text with its length,
so only the validator keeps it in its array.
-/

namespace UdpIpCore

namespace Kernel

open Interaction

/-- The parameters that are gateway texts. -/
inductive GatewayText
  | ip
  | mac

namespace GatewayText

/-- The devlink parameter. -/
def param : GatewayText → DevlinkParam
  | ip => .gatewayIp
  | mac => .gatewayMac

/-- Where `gw_ip` and `gw_mac` lie, from the start of `gw_ip`; `local_ip` lies between them. -/
def offset : GatewayText → ℕ
  | ip => 0
  | mac => inetAddrstrlen + inetAddrstrlen

/-- The length of `gw_ip` and `gw_mac`. -/
def size : GatewayText → ℕ
  | ip => inetAddrstrlen
  | mac => ethAddrStrLen

/-- A devlink text is longer than both. -/
theorem size_lt (id : GatewayText) : id.size < devlinkParamMaxStringValue := by
  cases id <;> decide

end GatewayText

/-- `strscpy`. -/
def strscpy (memory : ℕ → Char) (dest : ℕ) (src : List Char) (count : ℕ) (a : ℕ) : Char :=
  if count = 0 then memory a
  else if dest ≤ a then ((src.take (count - 1) ++ ['\x00'])[a - dest]?).getD (memory a)
  else memory a

/-- The text at an address, as far as a devlink text goes. -/
def cStringAt (memory : ℕ → Char) (address : ℕ) : List Char :=
  cString ((List.range devlinkParamMaxStringValue).map fun i => memory (address + i))

/-- The memory after `udp_core_devlink_set_string` has copied the text. -/
def storedText (memory : ℕ → Char) (id : GatewayText) (value : List Char) : ℕ → Char :=
  strscpy memory id.offset value (value.length + 1)

/-- The driver data with the texts in memory. -/
def viewed (memory : ℕ → Char) (p : DriverParams) : DriverParams :=
  { p with gwIp := cStringAt memory GatewayText.ip.offset, gwMac := cStringAt memory GatewayText.mac.offset }

/-- `udp_core_devlink_set_string` of a gateway text. -/
def setGatewayText (memory : ℕ → Char) (id : GatewayText) (value : List Char) : Code Int :=
  devlinkSet fun p => some (viewed (storedText memory id value) p)

/-- `udp_core_devlink_get_string` of a gateway text. -/
def getGatewayText (memory : ℕ → Char) (id : GatewayText) : List Char := cStringAt memory id.offset

/-- A gateway text is stored in its own array, nothing else is changed, it is returned, and the device has the address
that it denotes. -/
structure StoredSoundly (in4Pton : List Char → Option (BitVec 32)) (id : GatewayText) (value : List Char)
    (memory : ℕ → Char) (s : Host) (memory' : ℕ → Char) (s' : Host) : Prop where
  inside : value.length + 1 ≤ id.size
  text : ∀ i c, (value ++ ['\x00'])[i]? = some c → memory' (id.offset + i) = c
  memory : ∀ a, a < id.offset ∨ id.offset + id.size ≤ a → memory' a = memory a
  fields : s'.params.portLow = s.params.portLow ∧ s'.params.portHigh = s.params.portHigh ∧
    s'.params.portOpened = s.params.portOpened ∧ s'.params.portOpenedNum = s.params.portOpenedNum
  returned : getGatewayText memory' id = value
  gateway : id = .ip → ∃ address, in4Pton value = some address ∧ s'.regs.config.gatewayIp = address

/-- The array has room for the text and its end, and a text for an address is one. -/
def GatewayText.Fits (in4Pton : List Char → Option (BitVec 32)) (value : List Char) : GatewayText → Prop
  | .ip => value.length < inetAddrstrlen ∧ (in4Pton value).isSome = true
  | .mac => value.length < ethAddrStrLen

section Memory

variable {memory : ℕ → Char} {id : GatewayText} {value : List Char}

/-- A character that was copied, or the end. -/
theorem storedText_of_getElem? {i : ℕ} {c : Char} (hget : (value ++ ['\x00'])[i]? = some c) :
    storedText memory id value (id.offset + i) = c := by
  rw [storedText, strscpy, if_neg (Nat.succ_ne_zero _), if_pos (Nat.le_add_right _ _), Nat.add_sub_cancel_left,
    Nat.add_sub_cancel, List.take_length, hget]
  rfl

/-- What is not copied to stays. -/
theorem storedText_of_outside {a : ℕ} (ha : a < id.offset ∨ id.offset + value.length < a) :
    storedText memory id value a = memory a := by
  rw [storedText, strscpy, if_neg (Nat.succ_ne_zero _)]
  split
  · rw [List.getElem?_eq_none]
    · rfl
    · rw [List.length_append, List.length_take, List.length_singleton]
      omega
  · rfl

/-- A text of the memory ends at the first NUL. -/
theorem cStringAt_eq {address : ℕ} (hnul : '\x00' ∉ value) (hlength : value.length < devlinkParamMaxStringValue)
    (htext : ∀ i c, (value ++ ['\x00'])[i]? = some c → memory (address + i) = c) : cStringAt memory address = value := by
  have hprefix : value ++ ['\x00'] <+: (List.range devlinkParamMaxStringValue).map fun i => memory (address + i) := by
    rw [List.prefix_iff_getElem?]
    intro i hi
    have hbound : i < devlinkParamMaxStringValue := by
      rw [List.length_append, List.length_singleton] at hi
      omega
    rw [List.getElem?_map, List.getElem?_range hbound]
    exact congrArg some (htext i _ (List.getElem?_eq_getElem hi))
  obtain ⟨rest, hrest⟩ := hprefix
  have htake : (value ++ ['\x00'] ++ rest).takeWhile (fun c => decide (c ≠ '\x00')) = value := by
    rw [List.append_assoc, List.takeWhile_append_of_pos]
    · exact List.append_nil value
    · intro c hc
      exact decide_eq_true fun heq => hnul (heq ▸ hc)
  rw [cStringAt, cString, ← hrest]
  exact htake

end Memory

section Setter

open Operation

variable {in4Pton : List Char → Option (BitVec 32)} {memory : ℕ → Char} {id : GatewayText}
  {value : List Char} {s s' : Host} {cmds : List Cmd} {ret : Int}

/-- A valid gateway text is stored and applied soundly exactly if its array has room for its end and, for the gateway IP,
it is an address. -/
theorem storedSoundly_iff_fits (hvalid : validateString id.param value = 0) (hnul : '\x00' ∉ value)
    (h : Program.Trace (Host.RespondsWith in4Pton) (setGatewayText memory id value) s cmds ret s') :
    StoredSoundly in4Pton id value memory s (storedText memory id value) s' ↔ id.Fits in4Pton value := by
  obtain ⟨⟨gw4, hgw4, hconfig⟩, hparams, -⟩ := trace_devlinkSet h rfl
  constructor
  · intro hsound
    have hroom := hsound.inside
    cases id with
    | ip =>
      obtain ⟨address, haddress, -⟩ := hsound.gateway rfl
      exact ⟨hroom, Option.isSome_iff_exists.mpr ⟨address, haddress⟩⟩
    | mac => exact hroom
  · intro hfits
    have hroom : value.length < id.size := by
      cases id with
      | ip => exact hfits.1
      | mac => exact hfits
    have hreturned : cStringAt (storedText memory id value) id.offset = value :=
      cStringAt_eq hnul (hroom.trans id.size_lt) fun i c => storedText_of_getElem?
    exact {
      inside := hroom
      text := fun i c => storedText_of_getElem?
      memory := by
        intro a ha
        exact storedText_of_outside (ha.imp_right fun h => by omega)
      fields := by rw [hparams]; exact ⟨rfl, rfl, rfl, rfl⟩
      returned := hreturned
      gateway := by
        rintro rfl
        obtain ⟨address, haddress⟩ := Option.isSome_iff_exists.mp hfits.2
        have hgw : s'.regs.config.gatewayIp = gw4 := by
          rw [hconfig]
          rfl
        have hparsed : Parses in4Pton value gw4 := by
          rw [← hreturned]
          exact hgw4
        exact ⟨address, haddress, hgw.trans (hparsed address haddress)⟩
    }

/-- Every set of a gateway text can be run to its end. -/
theorem exists_setGatewayText (in4Pton : List Char → Option (BitVec 32)) (memory : ℕ → Char) (id : GatewayText)
    (value : List Char) (s : Host) : ∃ cmds ret s',
      Program.Trace (Host.RespondsWith in4Pton) (setGatewayText memory id value) s cmds ret s' := by
  obtain ⟨cmds, h⟩ := Program.exists_trace (answering (in4PtonInto in4Pton 0) quiet 0)
    (respondsWith_answering _ _ _) (setGatewayText memory id value) s
  exact ⟨cmds, _, _, h.mono (respondsWith_of_stack 0)⟩

/-- The address of a router. -/
theorem storedSoundly_router : ∃ s', StoredSoundly dottedAddress .ip "192.168.1.254".toList (fun _ => '\x00') .probed
    (storedText (fun _ => '\x00') .ip "192.168.1.254".toList) s' := by
  obtain ⟨cmds, ret, s', h⟩ := exists_setGatewayText dottedAddress (fun _ => '\x00') .ip "192.168.1.254".toList .probed
  exact ⟨s', (storedSoundly_iff_fits (by decide) (by decide) h).mpr ⟨by decide, by decide +kernel⟩⟩

/-- A text of 18 characters for the gateway MAC is valid, and its end lies behind the driver data. -/
theorem not_storedSoundly : ¬ ∀ (id : GatewayText) (value : List Char) (memory : ℕ → Char) (s s' : Host) (cmds : List Cmd)
    (ret : Int), validateString id.param value = 0 → '\x00' ∉ value →
    Program.Trace (Host.RespondsWith dottedAddress) (setGatewayText memory id value) s cmds ret s' →
    StoredSoundly dottedAddress id value memory s (storedText memory id value) s' := by
  intro hall
  obtain ⟨cmds, ret, s', h⟩ := exists_setGatewayText dottedAddress (fun _ => '\x00') .mac "00:0a:35:00:00:001".toList .probed
  have hinside := (hall _ _ _ _ _ _ _ (by decide) (by decide) h).inside
  exact absurd hinside (by decide)

end Setter

end Kernel

end UdpIpCore
