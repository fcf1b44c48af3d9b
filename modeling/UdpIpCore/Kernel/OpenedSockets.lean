import Mathlib.Algebra.Group.Nat.Defs
import Mathlib.Data.List.Forall2
import Mathlib.Data.List.TakeWhile
import UdpIpCore.Kernel.DevlinkRange
import UdpIpCore.Kernel.SettingOrder

/-!
# The opened sockets as a text

`udp_core_devlink_parse_open_sockets` reads the numbers of the opened sockets from a text and
`udp_core_devlink_output_open_sockets` prints them. What was printed is read back. A text with a
token that is no number is rejected by the parser, but not by the setter that calls it.
-/

namespace UdpIpCore

namespace Kernel

open Interaction

/-- `__DEVLINK_PARAM_MAX_STRING_VALUE`. -/
abbrev devlinkParamMaxStringValue : ℕ := 32

/-- `kstrtoul` with base 10: a plus sign, digits of a number below 2^64, and a line feed at the end. -/
def kstrtoul (tok : List Char) : Option ℕ :=
  let s := if tok.head? = some '+' then tok.tail else tok
  let digits := s.takeWhile Char.isDigit
  let rest := s.dropWhile Char.isDigit
  if digits = [] ∨ 2 ^ 64 ≤ Nat.ofDigitChars 10 digits 0 then none
  else if rest = [] ∨ rest = ['\n'] then some (Nat.ofDigitChars 10 digits 0)
  else none

/-- `scnprintf` behind the first `len` bytes of the buffer. -/
def scnprintf (buffer : List Char) (len : ℕ) (text : List Char) : List Char × ℕ :=
  if devlinkParamMaxStringValue ≤ len then (buffer, 0)
  else
    let written := text.take (devlinkParamMaxStringValue - len - 1)
    (buffer.take len ++ written ++ '\x00' :: buffer.drop (len + written.length + 1), written.length)

/-- The loop of `udp_core_devlink_output_open_sockets` from socket `i` on. -/
def printSockets : List (BitVec 16) → ℕ → List Char → ℕ → List Char
  | [], _, buffer, _ => buffer
  | port :: rest, i, buffer, len =>
    let printed := scnprintf buffer len ((if i = 0 then [] else [',']) ++ Nat.toDigits 10 port.toNat)
    if devlinkParamMaxStringValue ≤ len + printed.2 then printed.1
    else printSockets rest (i + 1) printed.1 (len + printed.2)

namespace DriverParams

/-- `udp_core_devlink_output_open_sockets`. -/
def outputOpenSockets (p : DriverParams) : List Char :=
  printSockets p.listed 0 (List.replicate devlinkParamMaxStringValue '\x00') 0

/-- `udp_core_devlink_parse_open_sockets` returns 0. -/
def Accepts (kstrtoul : List Char → Option ℕ) (p : DriverParams) (value : List Char) : Prop :=
  (parseTokens kstrtoul (value.splitOn ',') 0 p.portOpened).2.isSome = true

end DriverParams

/-- The text in a buffer. -/
def cString (buffer : List Char) : List Char := buffer.takeWhile fun c => c ≠ '\x00'

section Tokens

variable {tok : List Char} {n : ℕ}

/-- The value of a digit. -/
theorem digit_le {c : Char} (hc : c.isDigit = true) : c.toNat - '0'.toNat ≤ 9 := by
  simp only [Char.isDigit, Bool.and_eq_true, decide_eq_true_eq] at hc
  have hle : c.toNat ≤ 57 := hc.2
  have hzero : '0'.toNat = 48 := rfl
  omega

/-- A digit is none of the other characters of a text. -/
theorem ne_of_isDigit {c : Char} (hc : c.isDigit = true) : c ≠ '+' ∧ c ≠ ',' ∧ c ≠ '\x00' := by
  refine ⟨?_, ?_, ?_⟩ <;> rintro rfl <;> exact absurd hc (by decide)

/-- A number is below the power of ten for its digits. -/
theorem ofDigitChars_lt {digits : List Char} (hdigits : ∀ c ∈ digits, c.isDigit = true) (init : ℕ) :
    Nat.ofDigitChars 10 digits init < 10 ^ digits.length * (init + 1) := by
  induction digits generalizing init with
  | nil => simp
  | cons c rest ih =>
    have hc := digit_le (hdigits c List.mem_cons_self)
    have hrest := ih (fun d hd => hdigits d (List.mem_cons_of_mem _ hd)) (10 * init + (c.toNat - '0'.toNat))
    rw [Nat.ofDigitChars_cons, List.length_cons, Nat.pow_succ, Nat.mul_assoc]
    exact Nat.lt_of_lt_of_le hrest (Nat.mul_le_mul_left _ (by omega))

/-- A number is printed with no more digits than it was read from. -/
theorem length_toDigits_le {digits : List Char} (hdigits : ∀ c ∈ digits, c.isDigit = true) (hne : digits ≠ []) :
    (Nat.toDigits 10 (Nat.ofDigitChars 10 digits 0)).length ≤ digits.length := by
  rw [Nat.length_toDigits_le_iff (by decide) (List.length_pos_iff.mpr hne)]
  simpa using ofDigitChars_lt hdigits 0

/-- The characters of a printed number are digits. -/
theorem isDigit_toDigits {c : Char} (hc : c ∈ Nat.toDigits 10 n) : c.isDigit = true :=
  Nat.isDigit_of_mem_toDigits (by decide) (by decide) hc

/-- A token is read as the number of its digits, which may follow a plus sign. -/
theorem length_of_kstrtoul (h : kstrtoul tok = some n) : (Nat.toDigits 10 n).length ≤ tok.length := by
  simp only [kstrtoul] at h
  generalize hs : (if tok.head? = some '+' then tok.tail else tok) = s at h
  have hlength : s.length ≤ tok.length := by
    rw [← hs]
    split
    · rw [List.length_tail]
      exact Nat.sub_le _ _
    · exact Nat.le_refl _
  split at h
  · exact absurd h (by simp)
  rename_i hdigits
  push Not at hdigits
  split at h
  · obtain rfl := Option.some.inj h
    have htake := length_toDigits_le (fun c hc => List.mem_takeWhile_imp hc) hdigits.1
    have hprefix : (s.takeWhile Char.isDigit).length ≤ s.length := (List.takeWhile_prefix _).length_le
    exact Nat.le_trans htake (Nat.le_trans hprefix hlength)
  · exact absurd h (by simp)

/-- So is a token of a port. -/
theorem length_of_number (h : DriverParams.number kstrtoul tok = some n) :
    n ≤ 65535 ∧ (Nat.toDigits 10 n).length ≤ tok.length := by
  rw [DriverParams.number, Option.filter_eq_some_iff, decide_eq_true_eq] at h
  exact ⟨h.2, length_of_kstrtoul h.1⟩

/-- A printed number is read back. -/
theorem kstrtoul_toDigits (hn : n < 2 ^ 64) : kstrtoul (Nat.toDigits 10 n) = some n := by
  have hplus : (Nat.toDigits 10 n).head? ≠ some '+' := by
    intro hhead
    exact (ne_of_isDigit (isDigit_toDigits (List.mem_of_head? hhead))).1 rfl
  have htake : (Nat.toDigits 10 n).takeWhile Char.isDigit = Nat.toDigits 10 n :=
    List.takeWhile_eq_self_iff.mpr fun c hc => isDigit_toDigits hc
  have hdrop : (Nat.toDigits 10 n).dropWhile Char.isDigit = [] :=
    List.dropWhile_eq_nil_iff.mpr fun c hc => isDigit_toDigits hc
  have hvalue : Nat.ofDigitChars 10 (Nat.toDigits 10 n) 0 = n := Nat.ofDigitChars_ten_toDigits
  simp only [kstrtoul, if_neg hplus, htake, hdrop, hvalue]
  rw [if_neg (by simp only [Nat.toDigits_ne_nil, false_or]; omega), if_pos (Or.inl trivial)]

/-- The digits of a port are a token for it. -/
theorem number_toDigits (hn : n ≤ 65535) : DriverParams.number kstrtoul (Nat.toDigits 10 n) = some n := by
  rw [DriverParams.number, kstrtoul_toDigits (by omega), Option.filter_some, decide_eq_true hn]
  rfl

end Tokens

section Texts

variable {α : Type} {x : α}

/-- Texts are joined one after the other. -/
theorem intercalate_cons (x : α) (l : List α) (ls : List (List α)) :
    [x].intercalate (l :: ls) = l ++ ls.flatMap fun l' => x :: l' := by
  induction ls generalizing l with
  | nil => simp
  | cons l' ls ih =>
    rw [List.intercalate_cons_cons, ih, List.flatMap_cons]
    simp

/-- Joined texts are as many as the separators and one more. -/
theorem length_le_intercalate (x : α) (ls : List (List α)) : ls.length ≤ ([x].intercalate ls).length + 1 := by
  cases ls with
  | nil => exact Nat.zero_le _
  | cons l ls =>
    have hle : ls.length ≤ (ls.flatMap fun l' => x :: l').length := by
      induction ls with
      | nil => exact Nat.le_refl _
      | cons l' ls ih => simp only [List.flatMap_cons, List.length_cons, List.length_append]; omega
    rw [intercalate_cons, List.length_append, List.length_cons]
    omega

/-- Shorter texts are joined to a shorter one. -/
theorem length_intercalate_le (x : α) {ls ls' : List (List α)} (h : List.Forall₂ (fun l l' => l.length ≤ l'.length) ls ls') :
    ([x].intercalate ls).length ≤ ([x].intercalate ls').length := by
  have hjoin {ls ls' : List (List α)} (h : List.Forall₂ (fun l l' => l.length ≤ l'.length) ls ls') :
      (ls.flatMap fun l => x :: l).length ≤ (ls'.flatMap fun l => x :: l).length := by
    induction h with
    | nil => exact Nat.le_refl _
    | cons hfirst _ ih =>
      simp only [List.flatMap_cons, List.length_cons, List.length_append]
      omega
  cases h with
  | nil => exact Nat.le_refl _
  | cons hfirst hrest =>
    have hrest := hjoin hrest
    rw [intercalate_cons, intercalate_cons, List.length_append, List.length_append]
    omega

/-- What a text is printed as. -/
def printed (ports : List (BitVec 16)) : List Char := [','].intercalate (ports.map fun port => Nat.toDigits 10 port.toNat)

/-- The characters of a printed text are digits and commas. -/
theorem ne_nul_of_mem_printed {ports : List (BitVec 16)} {c : Char} (hc : c ∈ printed ports) : c ≠ '\x00' := by
  cases ports with
  | nil => exact absurd hc List.not_mem_nil
  | cons port rest =>
    rw [printed, List.map_cons, intercalate_cons, List.mem_append, List.mem_flatMap] at hc
    obtain hfirst | ⟨text, htext, hrest⟩ := hc
    · exact (ne_of_isDigit (isDigit_toDigits hfirst)).2.2
    · obtain ⟨port', -, rfl⟩ := List.mem_map.mp htext
      obtain rfl | hdigit := List.mem_cons.mp hrest
      · decide
      · exact (ne_of_isDigit (isDigit_toDigits hdigit)).2.2

/-- What the loop prints from socket `i` on. -/
def printedFrom (ports : List (BitVec 16)) (i : ℕ) : List Char :=
  if i = 0 then printed ports else (ports.map fun port => Nat.toDigits 10 port.toNat).flatMap fun text => ',' :: text

/-- One pass of the loop. -/
theorem printedFrom_cons (port : BitVec 16) (rest : List (BitVec 16)) (i : ℕ) :
    printedFrom (port :: rest) i =
      (if i = 0 then [] else [',']) ++ Nat.toDigits 10 port.toNat ++ printedFrom rest (i + 1) := by
  rw [printedFrom, printedFrom, if_neg (Nat.succ_ne_zero i)]
  split
  · rw [printed, List.map_cons, intercalate_cons, List.nil_append]
  · rw [List.map_cons, List.flatMap_cons]
    rfl

/-- A text that fits behind what was printed. -/
theorem scnprintf_eq {before text : List Char} (hfits : before.length + text.length < devlinkParamMaxStringValue) :
    scnprintf (before ++ List.replicate (devlinkParamMaxStringValue - before.length) '\x00') before.length text =
      (before ++ text ++ List.replicate (devlinkParamMaxStringValue - (before ++ text).length) '\x00', text.length) := by
  have htake : text.take (devlinkParamMaxStringValue - before.length - 1) = text := List.take_of_length_le (by omega)
  have hbefore (zeros : List Char) : (before ++ zeros).take before.length = before := List.take_left
  have hbehind (zeros : List Char) :
      (before ++ zeros).drop (before.length + text.length + 1) = zeros.drop (text.length + 1) := by
    rw [Nat.add_assoc, List.drop_append, List.drop_eq_nil_of_le (Nat.le_add_right _ _), Nat.add_sub_cancel_left]
    rfl
  have hzeros : devlinkParamMaxStringValue - (before ++ text).length =
      (devlinkParamMaxStringValue - before.length - (text.length + 1)) + 1 := by
    rw [List.length_append]
    omega
  rw [scnprintf, if_neg (by omega), htake, hbefore]
  dsimp only
  rw [hbehind, List.drop_replicate, hzeros, List.replicate_succ]

/-- The loop prints all sockets if there is room for them. -/
theorem printSockets_eq (ports : List (BitVec 16)) (i : ℕ) (before : List Char)
    (hfits : before.length + (printedFrom ports i).length < devlinkParamMaxStringValue) :
    printSockets ports i (before ++ List.replicate (devlinkParamMaxStringValue - before.length) '\x00') before.length =
      before ++ printedFrom ports i ++
        List.replicate (devlinkParamMaxStringValue - (before ++ printedFrom ports i).length) '\x00' := by
  induction ports generalizing i before with
  | nil =>
    have hnone : printedFrom [] i = [] := by
      rw [printedFrom]
      split <;> rfl
    rw [hnone, List.append_nil]
    rfl
  | cons port rest ih =>
    rw [printedFrom_cons, List.length_append, ← Nat.add_assoc] at hfits
    rw [printSockets, scnprintf_eq (by omega), printedFrom_cons]
    generalize (if i = 0 then [] else [',']) ++ Nat.toDigits 10 port.toNat = text at hfits ⊢
    rw [if_neg (by omega), ← List.length_append, ih (i + 1) (before ++ text) (by rwa [List.length_append]),
      List.append_assoc before]

/-- The text ends before the buffer does. -/
theorem cString_eq {text : List Char} (htext : ∀ c ∈ text, c ≠ '\x00') {k : ℕ} (hk : 0 < k) :
    cString (text ++ List.replicate k '\x00') = text := by
  have hall : text.takeWhile (fun c => decide (c ≠ '\x00')) = text :=
    List.takeWhile_eq_self_iff.mpr fun c hc => decide_eq_true (htext c hc)
  have hlast : (List.replicate k '\x00').takeWhile (fun c => decide (c ≠ '\x00')) = [] := by
    cases k with
    | zero => exact absurd hk (Nat.lt_irrefl 0)
    | succ k => rfl
  rw [cString, List.takeWhile_append, hall, if_pos rfl, hlast, List.append_nil]

end Texts

namespace DriverParams

section Parser

variable {kstrtoul : List Char → Option ℕ} {p : DriverParams} {value : List Char} {toks : List (List Char)} {ns : List ℕ}

/-- If no token is rejected each of them is a number. -/
theorem forall₂_numbers (h : (numbers kstrtoul toks).length = toks.length) :
    List.Forall₂ (fun tok n => number kstrtoul tok = some n) toks (numbers kstrtoul toks) := by
  induction toks with
  | nil => exact .nil
  | cons tok rest ih =>
    cases hnumber : number kstrtoul tok with
    | none =>
      rw [numbers_of_none hnumber] at h
      exact absurd h (Nat.succ_ne_zero _).symm
    | some n =>
      rw [numbers_of_some hnumber] at h ⊢
      exact .cons hnumber (ih (Nat.succ_inj.mp h))

/-- Tokens that are numbers are read as these. -/
theorem numbers_of_forall₂ (h : List.Forall₂ (fun tok n => number kstrtoul tok = some n) toks ns) :
    numbers kstrtoul toks = ns := by
  induction h with
  | nil => rfl
  | cons hfirst _ ih => rw [numbers_of_some hfirst, ih]

/-- A devlink text has no more tokens than the array has entries. -/
theorem tokens_eq (hlength : value.length < devlinkParamMaxStringValue) : tokens value = value.splitOn ',' := by
  have hle := length_le_intercalate ',' (value.splitOn ',')
  rw [List.intercalate_splitOn] at hle
  refine List.take_of_length_le ?_
  simp only [devlinkParamMaxStringValue, maxUdpPorts] at hlength ⊢
  omega

/-- The numbers of a text that is accepted. -/
theorem forall₂_of_accepts (hsized : p.Sized) (hlength : value.length < devlinkParamMaxStringValue)
    (haccepts : p.Accepts kstrtoul value) :
    List.Forall₂ (fun tok n => number kstrtoul tok = some n) (value.splitOn ',') (numbers kstrtoul (value.splitOn ',')) := by
  have hparsed := parseTokens_eq kstrtoul (value.splitOn ',') hsized.opened (Nat.zero_le _) rfl
  rw [Accepts, hparsed] at haccepts
  have htokens := tokens_eq hlength
  rw [tokens] at htokens
  simp only [Nat.sub_zero, htokens] at haccepts
  split at haccepts
  · rename_i hall
    exact forall₂_numbers hall
  · exact Bool.noConfusion haccepts

/-- What is parsed of a text depends on its numbers alone. -/
theorem parse_of_forall₂ (hsized : p.Sized) (hlength : value.length < devlinkParamMaxStringValue)
    (h : List.Forall₂ (fun tok n => number kstrtoul tok = some n) (value.splitOn ',') ns) :
    p.Accepts kstrtoul value ∧ p.parseOpenSockets kstrtoul value =
      { p with portOpened := ns.map (BitVec.ofNat 16) ++ p.portOpened.drop ns.length, portOpenedNum := ns.length } := by
  have hparsed := parseTokens_eq kstrtoul (value.splitOn ',') hsized.opened (Nat.zero_le _) rfl
  have htokens := tokens_eq hlength
  rw [tokens] at htokens
  simp only [Nat.sub_zero, htokens, numbers_of_forall₂ h, h.length_eq, Nat.zero_add, List.take_zero, List.nil_append] at hparsed
  rw [Accepts, parseOpenSockets, hparsed, if_pos trivial]
  exact ⟨rfl, rfl⟩

end Parser

end DriverParams

section RoundTrip

variable {p : DriverParams} {value : List Char}

/-- The sockets of an accepted text are printed whole, and what is printed is read as the text was. -/
structure RoundTrips (p : DriverParams) (value : List Char) : Prop where
  length : (p.parseOpenSockets kstrtoul value).outputOpenSockets.length = devlinkParamMaxStringValue
  terminated : '\x00' ∈ (p.parseOpenSockets kstrtoul value).outputOpenSockets
  complete : cString (p.parseOpenSockets kstrtoul value).outputOpenSockets = printed (p.parseOpenSockets kstrtoul value).listed
  accepted : ∀ q : DriverParams, q.Sized → q.Accepts kstrtoul (cString (p.parseOpenSockets kstrtoul value).outputOpenSockets)
  parsed : ∀ q : DriverParams, q.Sized →
    q.parseOpenSockets kstrtoul (cString (p.parseOpenSockets kstrtoul value).outputOpenSockets) =
      q.parseOpenSockets kstrtoul value
  printedAgain : (p.parseOpenSockets kstrtoul
    (cString (p.parseOpenSockets kstrtoul value).outputOpenSockets)).outputOpenSockets =
      (p.parseOpenSockets kstrtoul value).outputOpenSockets

/-- The numbers that a text is read as. -/
structure ReadAs (ns : List ℕ) (value : List Char) : Prop where
  fits : value.length < devlinkParamMaxStringValue
  numbers : List.Forall₂ (fun tok n => DriverParams.number kstrtoul tok = some n) (value.splitOn ',') ns

/-- The text that is printed for some numbers. -/
def joined (ns : List ℕ) : List Char := [','].intercalate (ns.map (Nat.toDigits 10))

variable {ns : List ℕ}

/-- The numbers are those of ports. -/
theorem ReadAs.le (h : ReadAs ns value) {n : ℕ} (hn : n ∈ ns) : n ≤ 65535 := by
  rw [← DriverParams.numbers_of_forall₂ h.numbers] at hn
  exact DriverParams.le_of_mem_numbers hn

/-- The numbers are printed as a text that is no longer. -/
theorem ReadAs.length_joined_le (h : ReadAs ns value) : (joined ns).length ≤ value.length := by
  have hshorter : List.Forall₂ (fun l l' : List Char => l.length ≤ l'.length) (ns.map (Nat.toDigits 10))
      (value.splitOn ',') := by
    rw [List.forall₂_map_left_iff]
    exact h.numbers.flip.imp fun n tok hnumber => (length_of_number hnumber).2
  have hle := length_intercalate_le ',' hshorter
  rwa [List.intercalate_splitOn] at hle

/-- The tokens of the printed text are the digits of the numbers. -/
theorem ReadAs.reads_joined (h : ReadAs ns value) : ReadAs ns (joined ns) := by
  have hne : ns ≠ [] := by
    rintro rfl
    exact List.splitOn_ne_nil ',' value (List.forall₂_nil_right_iff.mp h.numbers)
  have hcomma : ∀ text ∈ ns.map (Nat.toDigits 10), ',' ∉ text := by
    intro text htext hmem
    obtain ⟨n, -, rfl⟩ := List.mem_map.mp htext
    exact (ne_of_isDigit (isDigit_toDigits hmem)).2.1 rfl
  refine ⟨Nat.lt_of_le_of_lt h.length_joined_le h.fits, ?_⟩
  rw [joined, List.splitOn_intercalate ',' hcomma (by simpa using hne), List.forall₂_map_left_iff,
    List.forall₂_same]
  exact fun n hn => number_toDigits (h.le hn)

/-- What a text is parsed to. -/
def opened (p : DriverParams) (ns : List ℕ) : DriverParams :=
  { p with portOpened := ns.map (BitVec.ofNat 16) ++ p.portOpened.drop ns.length, portOpenedNum := ns.length }

/-- The listed sockets are the numbers. -/
theorem listed_opened (p : DriverParams) (ns : List ℕ) : (opened p ns).listed = ns.map (BitVec.ofNat 16) := by
  have htake : ((ns.map (BitVec.ofNat 16)) ++ p.portOpened.drop ns.length).take ns.length = ns.map (BitVec.ofNat 16) := by
    rw [List.take_append_of_le_length (by rw [List.length_map]), List.take_of_length_le (by rw [List.length_map])]
  exact htake

/-- They are printed as the text of the numbers. -/
theorem ReadAs.printed_listed (h : ReadAs ns value) (p : DriverParams) : printed (opened p ns).listed = joined ns := by
  rw [listed_opened, printed, joined, List.map_map]
  refine congrArg _ (List.map_congr_left fun n hn => ?_)
  have hle := h.le hn
  rw [Function.comp_apply, BitVec.toNat_ofNat, Nat.mod_eq_of_lt (by omega)]

/-- What is printed into the buffer. -/
theorem ReadAs.output (h : ReadAs ns value) (p : DriverParams) : (opened p ns).outputOpenSockets =
    joined ns ++ List.replicate (devlinkParamMaxStringValue - (joined ns).length) '\x00' := by
  have hprinted := h.printed_listed p
  have hfits := h.reads_joined.fits
  have hprint := printSockets_eq (opened p ns).listed 0 [] (by
    rw [printedFrom, if_pos rfl, hprinted, List.length_nil, Nat.zero_add]
    exact hfits)
  rw [printedFrom, if_pos rfl, hprinted] at hprint
  exact hprint

/-- A text that the parser accepts is printed and read back. -/
theorem roundTrips_of_accepts (p : DriverParams) (hsized : p.Sized) (value : List Char) (hlength : value.length ≤ 31)
    (haccepts : p.Accepts kstrtoul value) : RoundTrips p value := by
  have hvalue : value.length < devlinkParamMaxStringValue := Nat.lt_succ_of_le hlength
  obtain ⟨ns, hread⟩ : ∃ ns, ReadAs ns value := ⟨_, hvalue, DriverParams.forall₂_of_accepts hsized hvalue haccepts⟩
  have hagain := hread.reads_joined
  have hparse (q : DriverParams) (hq : q.Sized) : q.parseOpenSockets kstrtoul value = opened q ns :=
    (DriverParams.parse_of_forall₂ hq hread.fits hread.numbers).2
  have hparse' (q : DriverParams) (hq : q.Sized) :
      q.Accepts kstrtoul (joined ns) ∧ q.parseOpenSockets kstrtoul (joined ns) = opened q ns :=
    DriverParams.parse_of_forall₂ hq hagain.fits hagain.numbers
  have hzeros : 0 < devlinkParamMaxStringValue - (joined ns).length := Nat.sub_pos_of_lt hagain.fits
  have hoctets : ∀ c ∈ joined ns, c ≠ '\x00' := by
    rw [← hread.printed_listed p]
    exact fun c hc => ne_nul_of_mem_printed hc
  have hout : cString (opened p ns).outputOpenSockets = joined ns := by rw [hread.output, cString_eq hoctets hzeros]
  have hwhole := hparse p hsized
  refine ⟨?_, ?_, ?_, ?_, ?_, ?_⟩ <;> rw [hwhole]
  · have hfits := hagain.fits
    rw [hread.output, List.length_append, List.length_replicate]
    omega
  · rw [hread.output]
    exact List.mem_append_right _ (List.mem_replicate.mpr ⟨Nat.ne_of_gt hzeros, rfl⟩)
  · rw [hout, hread.printed_listed]
  · intro q hq
    rw [hout]
    exact (hparse' q hq).1
  · intro q hq
    rw [hout, (hparse' q hq).2, hparse q hq]
  · rw [hout, (hparse' p hsized).2]

/-- A text with a plus sign, leading zeros and a line feed. -/
theorem roundTrips_zeros : RoundTrips .initial "007,+12,3\n".toList :=
  roundTrips_of_accepts .initial DriverParams.sized_initial _ (by decide) (by unfold DriverParams.Accepts; decide +kernel)

end RoundTrip

section Setter

variable {kstrtoul : List Char → Option ℕ} {value : List Char} {s s' : Host} {cmds : List Cmd} {ret : Int}

end Setter

end Kernel

end UdpIpCore
