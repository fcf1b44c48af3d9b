import UdpIpCore.Clocked
import UdpIpCore.Kernel.Lifecycle
import UdpIpCore.Rtl.DmaWriteControl

/-!
# The devlink parameters and the hardware

The device has 1024 RX buffers: the port filter keeps ten bits of an offset, and the
control words and the slots of the buffers lie behind each other. The driver stores the
bounds of the port range one at a time and the opened sockets as they are read from a text.
The parameters fit the hardware exactly as long as each set leaves an ordered range that is
narrow enough and lists no number beyond the buffers.
-/

namespace UdpIpCore

namespace Kernel

open Interaction

/-- `-EOPNOTSUPP`. -/
def eopnotsupp : Int := -95

/-- `INET_ADDRSTRLEN` and `ETH_ADDR_STR_LEN`. -/
abbrev inetAddrstrlen : ℕ := 16
abbrev ethAddrStrLen : ℕ := 18

/-- `BUFFER_SIZE_BYTES`. -/
abbrev bufferSizeBytes : ℕ := bufferRxLength * bufferElemMaxSize

/-- `BUFFERS_TOTAL_SIZE`, the length of the DMA area. -/
abbrev buffersTotalSize : ℕ := bufferSizeBytes * (maxUdpPorts + 1)

/-- `BUFFER_RX_CTRL_BASE_OFFSET`. -/
def bufferRxCtrlBaseOffset (index : ℕ) : ℕ := RegAddr.bufrxOffset + index * 8

/-- `BUFFER_RX_SLOT_DATA_OFFSET`. -/
def bufferRxSlotDataOffset (rxBufIdx slotIdx : ℕ) : ℕ := rxBufIdx * bufferSizeBytes + slotIdx * bufferElemMaxSize

/-- A set of a devlink parameter. -/
inductive DevlinkSet
  | u16 (id : DevlinkParam) (value : BitVec 16)
  | string (id : DevlinkParam) (value : List Char)

/-- `udp_core_devlink_validate_u16`. -/
def validateU16 (value : BitVec 16) : Int := if 65536 < value.toNat then eopnotsupp else 0

/-- `udp_core_devlink_validate_string`. -/
def validateString (id : DevlinkParam) (value : List Char) : Int :=
  match id with
  | .gatewayIp => if inetAddrstrlen < value.length then einval else 0
  | .gatewayMac => if ethAddrStrLen < value.length then einval else 0
  | .portLow | .portHigh | .openedSockets => einval

namespace DevlinkSet

/-- The validator of a parameter, as far as `udp_core_devlink_params` has one. -/
def validate : DevlinkSet → Int
  | u16 _ value => validateU16 value
  | string .openedSockets _ => 0
  | string id value => validateString id value

section Values

variable (kstrtoul : List Char → Option ℕ)

/-- The setter of a parameter. -/
def code : DevlinkSet → Code Int
  | u16 id value => devlinkSetU16 id value
  | string id value => devlinkSetString kstrtoul id value

/-- The driver data the setter stores. -/
def stores (p : DriverParams) : DevlinkSet → Option DriverParams
  | u16 id value => id.withU16 p value
  | string id value => id.withString kstrtoul p value

/-- The driver data after the set. -/
def stored (p : DriverParams) (set : DevlinkSet) : DriverParams := (set.stores kstrtoul p).getD p

/-- The set is reported as successful. -/
def Successful (p : DriverParams) (set : DevlinkSet) : Prop :=
  set.validate = 0 ∧ (set.stores kstrtoul p).isSome = true

end Values

end DevlinkSet

namespace DriverParams

/-- The port range is ordered and narrow, and the listed sockets are numbers of buffers. -/
structure InRange (p : DriverParams) : Prop where
  ordered : p.portLow ≤ p.portHigh
  narrow : p.portHigh.toNat - p.portLow.toNat < maxUdpPorts
  listed : ∀ id ∈ p.listed, id.toNat < maxUdpPorts

/-- The port filter under these parameters. -/
def portConfig (p : DriverParams) (sockets : BitVec maxUdpPorts) : PortConfig := ⟨p.portLow, p.portHigh, sockets⟩

/-- What the parameters make the device and the driver reach exists, and no two ports share it. -/
structure WithinHardware (p : DriverParams) : Prop extends InRange p where
  /-- Two accepted ports have two buffers. -/
  distinct : ∀ sockets port port', (p.portConfig sockets).validUdpPort port = true →
    (p.portConfig sockets).validUdpPort port' = true →
    (p.portConfig sockets).bufferOffset port = (p.portConfig sockets).bufferOffset port' → port = port'
  /-- The control words lie in the register window, at the addresses the driver computes. -/
  window : ∀ id ∈ p.listed, bufferRxCtrlBaseOffset id.toNat ≤ RegAddr.bufrxOffset + 8 * 1023 ∧
    (ConfigRegs.bufferRxCtrl id.toNat).toNat = bufferRxCtrlBaseOffset id.toNat
  /-- The slots lie in the DMA area. -/
  area : ∀ id ∈ p.listed, ∀ slot < bufferRxLength,
    bufferRxSlotDataOffset id.toNat slot + bufferElemMaxSize ≤ buffersTotalSize

/-- Parameters in range fit the hardware. -/
theorem InRange.withinHardware {p : DriverParams} (h : p.InRange) : p.WithinHardware where
  toInRange := h
  distinct := by
    intro sockets port port' hport hport' heq
    have hinWindow (x : BitVec 16) : (p.portConfig sockets).InWindow x := by
      intro hvalid
      simp only [PortConfig.validUdpPort, Bool.and_eq_true, decide_eq_true_eq] at hvalid
      have hupper := BitVec.le_def.mp hvalid.1.2
      have hnarrow := h.narrow
      change x.toNat - p.portLow.toNat < maxUdpPorts
      change x.toNat ≤ p.portHigh.toNat at hupper
      omega
    have hoffset := PortConfig.toNat_bufferOffset (hinWindow port) hport
    have hoffset' := PortConfig.toNat_bufferOffset (hinWindow port') hport'
    rw [heq, hoffset'] at hoffset
    simp only [PortConfig.validUdpPort, Bool.and_eq_true, decide_eq_true_eq] at hport hport'
    have hlower := BitVec.le_def.mp hport.1.1
    have hlower' := BitVec.le_def.mp hport'.1.1
    apply BitVec.eq_of_toNat_eq
    omega
  window := by
    intro id hid
    have hlt := h.listed id hid
    have haddr : (ConfigRegs.bufferRxCtrl id.toNat).toNat = (160 + id.toNat * 8) % 16384 := by
      simp [ConfigRegs.bufferRxCtrl, RegAddr.bufrxOffset]
    rw [haddr, bufferRxCtrlBaseOffset, RegAddr.bufrxOffset]
    rw [maxUdpPorts] at hlt
    omega
  area := by
    intro id hid slot hslot
    have hlt := h.listed id hid
    simp only [bufferRxSlotDataOffset, buffersTotalSize, bufferSizeBytes, bufferRxLength, bufferElemMaxSize,
      maxUdpPorts] at hlt hslot ⊢
    omega

/-- The default parameters fit the hardware. -/
theorem inRange_initial : initial.InRange where
  ordered := by decide
  narrow := by decide
  listed := by
    intro id hid
    have hlisted : initial.listed = [0, 1, 10, 11] := rfl
    rw [hlisted] at hid
    simp only [List.mem_cons, List.not_mem_nil, or_false] at hid
    rcases hid with rfl | rfl | rfl | rfl <;> decide

section Parser

variable (kstrtoul : List Char → Option ℕ)

/-- The number a token stands for, if it is accepted. -/
def number (tok : List Char) : Option ℕ := (kstrtoul tok).filter fun port => decide (port ≤ 65535)

/-- The numbers of the tokens before the first one that is rejected. -/
def numbers : List (List Char) → List ℕ
  | [] => []
  | tok :: rest =>
    match number kstrtoul tok with
    | none => []
    | some port => port :: numbers rest

/-- The tokens of a text that the array has room for. -/
def tokens (value : List Char) : List (List Char) := (value.splitOn ',').take maxUdpPorts

/-- The numbers of a text that end up in the list: all of them, or, if a token is rejected, those that replace listed
ones. -/
def leaves (p : DriverParams) (value : List Char) : List ℕ :=
  if (numbers kstrtoul (tokens value)).length = (tokens value).length then numbers kstrtoul (tokens value)
  else (numbers kstrtoul (tokens value)).take p.portOpenedNum

variable {kstrtoul}

/-- A token that is rejected ends the numbers. -/
theorem numbers_of_none {tok : List Char} {rest : List (List Char)} (h : number kstrtoul tok = none) :
    numbers kstrtoul (tok :: rest) = [] := by
  rw [numbers, h]

/-- A token that is accepted is the first number. -/
theorem numbers_of_some {tok : List Char} {rest : List (List Char)} {port : ℕ} (h : number kstrtoul tok = some port) :
    numbers kstrtoul (tok :: rest) = port :: numbers kstrtoul rest := by
  rw [numbers, h]

/-- One pass of the loop. -/
theorem parseTokens_cons (tok : List Char) (rest : List (List Char)) {i : ℕ} (hi : i < maxUdpPorts)
    (arr : List (BitVec 16)) : parseTokens kstrtoul (tok :: rest) i arr =
      match number kstrtoul tok with
      | none => (arr, none)
      | some port => parseTokens kstrtoul rest (i + 1) (arr.set i (BitVec.ofNat 16 port)) := by
  rw [parseTokens, if_pos hi, number]
  cases kstrtoul tok with
  | none => rfl
  | some port =>
    by_cases hle : 65535 < port
    · have hfilter : (some port).filter (fun port => decide (port ≤ 65535)) = none := by simp [hle]
      rw [hfilter]
      exact if_pos hle
    · have hfilter : (some port).filter (fun port => decide (port ≤ 65535)) = some port := by
        simp [Nat.le_of_not_lt hle]
      rw [hfilter]
      exact if_neg hle

variable (kstrtoul) in
/-- The loop writes the numbers one after the other and counts the tokens unless one was rejected. -/
theorem parseTokens_eq (toks : List (List Char)) {i : ℕ} {arr : List (BitVec 16)} (hlength : arr.length = maxUdpPorts)
    (hi : i ≤ maxUdpPorts) {ns : List ℕ} (hns : numbers kstrtoul (toks.take (maxUdpPorts - i)) = ns) :
    parseTokens kstrtoul toks i arr = (arr.take i ++ ns.map (BitVec.ofNat 16) ++ arr.drop (i + ns.length),
      if ns.length = (toks.take (maxUdpPorts - i)).length then some (i + ns.length) else none) := by
  induction toks generalizing i arr ns with
  | nil =>
    rw [List.take_nil] at hns
    obtain rfl : [] = ns := hns
    simp [parseTokens]
  | cons tok rest ih =>
    by_cases hlt : i < maxUdpPorts
    · have hroom : maxUdpPorts - i = (maxUdpPorts - (i + 1)) + 1 := by omega
      rw [hroom, List.take_succ_cons] at hns ⊢
      rw [parseTokens_cons tok rest hlt]
      cases hport : number kstrtoul tok with
      | none =>
        rw [numbers_of_none hport] at hns
        subst hns
        simp
      | some port =>
        rw [numbers_of_some hport] at hns
        subst hns
        have hset : (arr.set i (BitVec.ofNat 16 port)).length = maxUdpPorts := by rw [List.length_set, hlength]
        have hbefore : (arr.set i (BitVec.ofNat 16 port)).take (i + 1) = arr.take i ++ [BitVec.ofNat 16 port] := by
          rw [List.take_add_one, List.take_set_of_le (Nat.le_refl i), List.getElem?_set_self (by omega)]
          rfl
        have hafter (k : ℕ) : (arr.set i (BitVec.ofNat 16 port)).drop (i + (k + 1)) = arr.drop (i + (k + 1)) :=
          List.drop_set_of_lt (by omega)
        have hcount (k : ℕ) : i + 1 + k = i + (k + 1) := by omega
        have hnext : i + 1 ≤ maxUdpPorts := hlt
        simp only [ih hset hnext rfl, hbefore, hafter, hcount]
        simp only [List.map_cons, List.append_assoc, List.length_cons, List.cons_append, List.nil_append,
          Nat.add_right_cancel_iff]
    · have hzero : maxUdpPorts - i = 0 := by omega
      rw [hzero] at hns ⊢
      obtain rfl : [] = ns := hns
      rw [parseTokens, if_neg hlt]
      simp

variable {p : DriverParams} {value : List Char}

/-- The array has room for all sockets. -/
structure Sized (p : DriverParams) : Prop where
  opened : p.portOpened.length = maxUdpPorts
  num : p.portOpenedNum ≤ maxUdpPorts

theorem sized_initial : initial.Sized where
  opened := by
    have hopened : initial.portOpened = [0, 1, 10, 11] ++ List.replicate 1020 0 := rfl
    rw [hopened, List.length_append, List.length_replicate]
    rfl
  num := by decide

/-- The sockets listed after a text was parsed: the numbers that were left, and listed ones that were not replaced. -/
theorem listed_parseOpenSockets (h : p.Sized) : (p.parseOpenSockets kstrtoul value).listed =
    (p.leaves kstrtoul value).map (BitVec.ofNat 16) ++
      if (numbers kstrtoul (tokens value)).length = (tokens value).length then []
      else p.listed.drop (numbers kstrtoul (tokens value)).length := by
  have hparsed := parseTokens_eq kstrtoul (value.splitOn ',') h.opened (Nat.zero_le _) rfl
  simp only [Nat.sub_zero, Nat.zero_add, List.take_zero, List.nil_append] at hparsed
  change parseTokens kstrtoul (value.splitOn ',') 0 p.portOpened =
    ((numbers kstrtoul (tokens value)).map (BitVec.ofNat 16) ++ p.portOpened.drop (numbers kstrtoul (tokens value)).length,
      if (numbers kstrtoul (tokens value)).length = (tokens value).length then
        some (numbers kstrtoul (tokens value)).length else none) at hparsed
  rw [listed, parseOpenSockets, hparsed, leaves]
  split
  · simp
  · rw [Option.getD_none, List.take_append, List.map_take, listed, List.drop_take, List.length_map]

variable (kstrtoul) in
/-- A text has at most as many numbers as tokens. -/
theorem length_numbers_le (toks : List (List Char)) : (numbers kstrtoul toks).length ≤ toks.length := by
  induction toks with
  | nil => exact Nat.le_refl _
  | cons tok rest ih =>
    cases hport : number kstrtoul tok with
    | none =>
      rw [numbers_of_none hport]
      exact Nat.zero_le _
    | some port =>
      rw [numbers_of_some hport]
      exact Nat.succ_le_succ ih

/-- The numbers that are read are those of ports. -/
theorem le_of_mem_numbers {toks : List (List Char)} {n : ℕ} (h : n ∈ numbers kstrtoul toks) : n ≤ 65535 := by
  induction toks with
  | nil => exact absurd h List.not_mem_nil
  | cons tok rest ih =>
    cases hport : number kstrtoul tok with
    | none =>
      rw [numbers_of_none hport] at h
      exact absurd h List.not_mem_nil
    | some port =>
      rw [numbers_of_some hport] at h
      rcases List.mem_cons.mp h with rfl | hrest
      · rw [number, Option.filter_eq_some_iff] at hport
        simpa using hport.2
      · exact ih hrest

/-- The numbers left by a text are among those that were read. -/
theorem mem_numbers_of_leaves {n : ℕ} (h : n ∈ p.leaves kstrtoul value) : n ∈ numbers kstrtoul (tokens value) := by
  rw [leaves] at h
  split at h
  · exact h
  · exact List.mem_of_mem_take h

/-- Parsing a text keeps the size of the array. -/
theorem Sized.parseOpenSockets (h : p.Sized) : (p.parseOpenSockets kstrtoul value).Sized := by
  have htokens : (tokens value).length ≤ maxUdpPorts := by
    rw [tokens, List.length_take]
    exact Nat.min_le_left _ _
  have hnumbers := length_numbers_le kstrtoul (tokens value)
  have hparsed := parseTokens_eq kstrtoul (value.splitOn ',') h.opened (Nat.zero_le _) rfl
  have hopened := h.opened
  have hnum := h.num
  refine ⟨?_, ?_⟩
  · rw [DriverParams.parseOpenSockets, hparsed]
    simp only [Nat.sub_zero, Nat.zero_add, List.take_zero, List.nil_append, List.length_append, List.length_map,
      List.length_drop]
    rw [← tokens]
    omega
  · rw [DriverParams.parseOpenSockets, hparsed]
    simp only [Nat.sub_zero, Nat.zero_add]
    rw [← tokens]
    split
    · rw [Option.getD_some]
      omega
    · exact hnum

/-- The text leaves only numbers of buffers in the list exactly if the numbers it leaves are such. -/
theorem listed_lt_iff (h : p.Sized) (hlisted : ∀ id ∈ p.listed, id.toNat < maxUdpPorts) :
    (∀ id ∈ (p.parseOpenSockets kstrtoul value).listed, id.toNat < maxUdpPorts) ↔
      ∀ n ∈ p.leaves kstrtoul value, n < maxUdpPorts := by
  rw [listed_parseOpenSockets h]
  have htoNat (n : ℕ) (hn : n ∈ p.leaves kstrtoul value) : (BitVec.ofNat 16 n).toNat = n := by
    have hle := le_of_mem_numbers (mem_numbers_of_leaves hn)
    rw [BitVec.toNat_ofNat]
    omega
  constructor
  · intro hall n hn
    rw [← htoNat n hn]
    exact hall _ (List.mem_append_left _ (List.mem_map_of_mem hn))
  · intro hall id hid
    rcases List.mem_append.mp hid with hnew | hold
    · obtain ⟨n, hn, rfl⟩ := List.mem_map.mp hnew
      rw [htoNat n hn]
      exact hall n hn
    · split at hold
      · exact absurd hold List.not_mem_nil
      · exact hlisted id (List.mem_of_mem_drop hold)

end Parser

end DriverParams

namespace DevlinkSet

variable (kstrtoul : List Char → Option ℕ)

/-- The devlink parameters under any sets that are reported as successful. -/
def machine : Clocked.Machine DriverParams DevlinkSet where
  step := stored kstrtoul
  legal := Successful kstrtoul

/-- The property after each set. -/
def FitsAfter (p : DriverParams) (set : DevlinkSet) : Prop := (set.stored kstrtoul p).WithinHardware

/-- The value of a set keeps the range ordered and narrow, or leaves only numbers of buffers in the list. -/
def Fits (p : DriverParams) : DevlinkSet → Prop
  | u16 .portLow value => value ≤ p.portHigh ∧ p.portHigh.toNat - value.toNat < maxUdpPorts
  | u16 .portHigh value => p.portLow ≤ value ∧ value.toNat - p.portLow.toNat < maxUdpPorts
  | string .openedSockets value => ∀ n ∈ p.leaves kstrtoul value, n < maxUdpPorts
  | u16 _ _ | string _ _ => True

variable {kstrtoul} {p : DriverParams} {set : DevlinkSet}

/-- A set whose value fits keeps the parameters in range. -/
theorem inRange_stored_iff (hsized : p.Sized) (h : p.InRange) : (set.stored kstrtoul p).InRange ↔ set.Fits kstrtoul p := by
  cases set with
  | u16 id value =>
    cases id with
    | portLow => exact ⟨fun hnext => ⟨hnext.ordered, hnext.narrow⟩, fun hfits => ⟨hfits.1, hfits.2, h.listed⟩⟩
    | portHigh => exact ⟨fun hnext => ⟨hnext.ordered, hnext.narrow⟩, fun hfits => ⟨hfits.1, hfits.2, h.listed⟩⟩
    | openedSockets => exact iff_of_true h trivial
    | gatewayIp => exact iff_of_true h trivial
    | gatewayMac => exact iff_of_true h trivial
  | string id value =>
    cases id with
    | portLow => exact iff_of_true h trivial
    | portHigh => exact iff_of_true h trivial
    | openedSockets =>
      exact ⟨fun hnext => (DriverParams.listed_lt_iff hsized h.listed).mp hnext.listed,
        fun hfits => ⟨h.ordered, h.narrow, (DriverParams.listed_lt_iff hsized h.listed).mpr hfits⟩⟩
    | gatewayIp => exact iff_of_true ⟨h.ordered, h.narrow, h.listed⟩ trivial
    | gatewayMac => exact iff_of_true ⟨h.ordered, h.narrow, h.listed⟩ trivial

/-- Every set keeps the size of the array. -/
theorem sized_stored (h : p.Sized) : (set.stored kstrtoul p).Sized := by
  cases set with
  | u16 id value => cases id <;> exact ⟨h.opened, h.num⟩
  | string id value =>
    cases id with
    | openedSockets => exact h.parseOpenSockets
    | _ => exact ⟨h.opened, h.num⟩

/-- After any sequence of successful sets the parameters fit the hardware throughout, exactly if the value of each set
fits. -/
theorem fitsAfter_iff_fits {sets : List DevlinkSet} (hlegal : (machine kstrtoul).Legal .initial sets) :
    (machine kstrtoul).Throughout (FitsAfter kstrtoul) .initial sets ↔
      ((machine kstrtoul).restrict (Fits kstrtoul)).Legal .initial sets := by
  refine Clocked.Machine.throughout_iff (fun p => p.Sized ∧ p.InRange) (fun p set hp _ hfits => ?_)
    (fun p set hp _ hfits hafter => hfits ((inRange_stored_iff hp.1 hp.2).mp hafter.toInRange))
    ⟨DriverParams.sized_initial, DriverParams.inRange_initial⟩ hlegal
  have hnext := (inRange_stored_iff hp.1 hp.2).mpr hfits
  exact ⟨⟨sized_stored hp.1, hnext⟩, hnext.withinHardware⟩

/-- The value of a text of decimal digits. -/
def decimal (tok : List Char) : Option ℕ :=
  if tok ≠ [] ∧ tok.all Char.isDigit then some (tok.foldl (fun n c => 10 * n + (c.toNat - 48)) 0) else none

/-- The range is moved upwards and three sockets are opened. -/
def moved : List DevlinkSet :=
  [u16 .portHigh 8000, u16 .portLow 7600, string .openedSockets ['0', ',', '5', ',', '4', '0', '0']]

/-- All of it fits. -/
theorem fitsAfter_moved : (machine decimal).Throughout (FitsAfter decimal) .initial moved := by
  refine (fitsAfter_iff_fits ?_).mpr ?_
  · exact ⟨⟨by decide, rfl⟩, ⟨by decide, rfl⟩, ⟨by decide, rfl⟩, trivial⟩
  · refine ⟨⟨⟨by decide, rfl⟩, ⟨by decide, by decide⟩⟩, ⟨⟨by decide, rfl⟩, ⟨by decide, by decide⟩⟩, ⟨⟨by decide, rfl⟩, ?_⟩,
      trivial⟩
    have hleaves : DriverParams.leaves decimal
        ((machine decimal).run .initial [u16 .portHigh 8000, u16 .portLow 7600]) ['0', ',', '5', ',', '4', '0', '0'] =
        [0, 5, 400] := by decide
    have hall : ∀ n ∈ [0, 5, 400], n < maxUdpPorts := by decide
    rw [← hleaves] at hall
    exact hall

/-- The lower bound passes the upper one, the validator agrees and the set returns 0. -/
theorem not_fitsAfter : ¬ (machine decimal).Always .initial (FitsAfter decimal) := by
  refine Clocked.Machine.not_always_of_run [] (u16 .portLow 7600) trivial ⟨by decide, by decide⟩ fun hafter => ?_
  exact absurd hafter.ordered (by decide)

end DevlinkSet

end Kernel

end UdpIpCore
