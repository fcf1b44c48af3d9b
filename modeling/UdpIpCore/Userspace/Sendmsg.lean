import Mathlib.Algebra.Group.Nat.Defs
import UdpIpCore.Userspace.SendOnce

/-!
# Gathering a message

`sendmsg` copies the buffers of a message one after the other into `temp_buffer` and hands
that to `sendto`. Lengths are cut to 32 bits, and their sum is compared with the room of a
slot, which is more than `temp_buffer` has.
-/

namespace UdpIpCore

open Interaction

/-- `struct iovec`, with what lies from `iov_base` on. -/
structure Iovec where
  iovBase : ℕ → BitVec 8
  iovLen : BitVec 64

/-- `struct msghdr`, as far as `sendmsg` reads it. -/
structure Msghdr where
  msgName : SockaddrIn
  msgNamelen : BitVec 32
  msgIov : List Iovec

/-- `sizeof(temp_buffer)`, `PACKET_PAYL_SIZE_MAX_LEN` words. -/
abbrev tempBufferBytes : ℕ := 1472

/-- `BUF_ELEM_MAX_SIZE_BYTES - PACKET_HDR_SIZE_BYTES`. -/
abbrev slotPayloadBytes : ℕ := 2008

/-- What the loop of `sendmsg` works on. -/
structure Gathered where
  totalLen : BitVec 32
  /-- `temp_buffer`, and the memory behind it. -/
  tempBuffer : ℕ → BitVec 8
  /-- The copies so far, by their offsets in `temp_buffer` and their sizes. -/
  copies : List (ℕ × ℕ)

inductive GatherStatus
  | going
  | refused
  | complete
deriving DecidableEq

namespace Iovec

/-- `iov_len` of the loop, cut to an `unsigned`. -/
def cut (v : Iovec) : BitVec 32 := v.iovLen.setWidth 32

/-- The first bytes of a buffer. -/
def first (v : Iovec) (n : ℕ) : List (BitVec 8) := (List.range n).map v.iovBase

/-- The bytes of a buffer. -/
def bytes (v : Iovec) : List (BitVec 8) := v.first v.iovLen.toNat

/-- The bytes that are copied. -/
def copiedBytes (v : Iovec) : List (BitVec 8) := v.first v.cut.toNat

@[simp] theorem length_first (v : Iovec) (n : ℕ) : (v.first n).length = n := by
  simp [first]

theorem toNat_cut (v : Iovec) : v.cut.toNat = v.iovLen.toNat % 2 ^ 32 := BitVec.toNat_setWidth _ _

/-- A buffer is copied whole if its length has 32 bits. -/
theorem copiedBytes_eq {v : Iovec} (hlen : v.iovLen.toNat < 2 ^ 32) : v.copiedBytes = v.bytes := by
  rw [copiedBytes, toNat_cut, Nat.mod_eq_of_lt hlen]
  rfl

/-- What is copied is at most what there is. -/
theorem length_copiedBytes_le (iov : List Iovec) : (iov.flatMap copiedBytes).length ≤ (iov.flatMap bytes).length := by
  induction iov with
  | nil => exact Nat.le_refl _
  | cons v iov ih =>
    have hcut : v.copiedBytes.length ≤ v.bytes.length := by
      rw [copiedBytes, bytes, length_first, length_first, toNat_cut]
      exact Nat.mod_le _ _
    simp only [List.flatMap_cons, List.length_append]
    omega

/-- If it is as long, no length was cut. -/
theorem lt_of_length_eq {iov : List Iovec} (hlen : (iov.flatMap copiedBytes).length = (iov.flatMap bytes).length) :
    ∀ v ∈ iov, v.iovLen.toNat < 2 ^ 32 := by
  induction iov with
  | nil =>
    intro v hv
    exact absurd hv List.not_mem_nil
  | cons v iov ih =>
    have hrest := length_copiedBytes_le iov
    have hcopied : v.copiedBytes.length = v.iovLen.toNat % 2 ^ 32 := by rw [copiedBytes, length_first, toNat_cut]
    have hbytes : v.bytes.length = v.iovLen.toNat := length_first v _
    have hmod := Nat.mod_le v.iovLen.toNat (2 ^ 32)
    rw [List.flatMap_cons, List.flatMap_cons, List.length_append, List.length_append, hcopied, hbytes] at hlen
    intro w hw
    rcases List.mem_cons.mp hw with rfl | hw
    · have hwhole : w.iovLen.toNat % 2 ^ 32 = w.iovLen.toNat := by omega
      rw [← hwhole]
      exact Nat.mod_lt _ (by decide)
    · exact ih (by omega) w hw

end Iovec

namespace Gathered

/-- One `memcpy`. -/
def copy (g : Gathered) (v : Iovec) : Gathered where
  totalLen := g.totalLen + v.cut
  tempBuffer := UserHost.writeBytes g.tempBuffer g.totalLen.toNat v.copiedBytes
  copies := g.copies ++ [(g.totalLen.toNat, v.cut.toNat)]

/-- The payload that is handed on. -/
def payload (g : Gathered) : List (BitVec 8) := (List.range g.totalLen.toNat).map g.tempBuffer

end Gathered

namespace SocketLayer

open Udriver

/-- The loop of `sendmsg`, followed for a number of passes; the index is an `unsigned`. -/
def gatherLoop (iov : List Iovec) : ℕ → BitVec 32 → Gathered → GatherStatus × Gathered
  | 0, _, g => (.going, g)
  | passes + 1, i, g =>
    match iov[i.toNat]? with
    | none => (.complete, g)
    | some v =>
      if slotPayloadBytes < (g.totalLen + v.cut).toNat then (.refused, g) else gatherLoop iov passes (i + 1) (g.copy v)

/-- The loop from its start. -/
def gather (iov : List Iovec) (tempBuffer : ℕ → BitVec 8) (passes : ℕ) : GatherStatus × Gathered :=
  gatherLoop iov passes 0 ⟨0, tempBuffer, []⟩

/-- `sendmsg`, followed for a number of passes and of attempts. -/
def sendmsg (dev : UdpIpDevice) (l : SocketLayer) (sockfd : Fd) (msg : Msghdr) (tempBuffer : ℕ → BitVec 8)
    (passes attempts : ℕ) : UserCode (Option Outcome × SocketLayer) :=
  if msg.msgNamelen ≠ sizeofSockaddrIn then return (some (.fail .EAFNOSUPPORT), l)
  else if (l.socketFds sockfd).status = .notAssigned then return (some (.fail .EBADF), l)
  else match gather msg.msgIov tempBuffer passes with
    | (.going, _) => return (none, l)
    | (.refused, _) => return (some (.fail .EMSGSIZE), l)
    | (.complete, g) => l.sendto dev sockfd g.payload msg.msgName msg.msgNamelen attempts

/-- The buffer of each pass: the index comes round after 2^32 of them. -/
def visited (iov : List Iovec) (k : ℕ) : Option Iovec := iov[k % 2 ^ 32]?

/-- The sum of the lengths of the first passes, each cut to 32 bits. -/
def sumLen (iov : List Iovec) : ℕ → ℕ
  | 0 => 0
  | k + 1 => sumLen iov k + ((visited iov k).map fun v => v.cut.toNat).getD 0

/-- The first passes copy within `temp_buffer`. -/
def FitsFor (iov : List Iovec) (m : ℕ) : Prop :=
  ∀ k < m, (visited iov k).isSome = true ∧ sumLen iov (k + 1) ≤ tempBufferBytes

/-- The lengths of a message that is gathered faithfully: as long as they are summed up they fit `temp_buffer`, and then
either a pass is refused, or the buffers end, some of them not empty and none of 2^32 bytes or more. -/
def Fits (iov : List Iovec) : Prop :=
  ∃ m, FitsFor iov m ∧
    ((∃ v, visited iov m = some v ∧ slotPayloadBytes < (sumLen iov m + v.cut.toNat) % 2 ^ 32) ∨
      visited iov m = none ∧ 1 ≤ sumLen iov m ∧ ∀ v ∈ iov, v.iovLen.toNat < 2 ^ 32)

/-- The call is refused with `EMSGSIZE` and nothing is pushed. -/
def RefusesSize (h : UserHost) (code : UserCode (Option Outcome × SocketLayer)) : Prop :=
  (h.run code).1.1 = some (.fail .EMSGSIZE) ∧ h.stores code = [] ∧ (h.run code).2.pushes = h.pushes

/-- The call has sent one datagram. -/
def SendsPayload (dev : UdpIpDevice) (l : SocketLayer) (h : UserHost) (fd : Fd) (payload : List (BitVec 8))
    (addr : SockaddrIn) (code : UserCode (Option Outcome × SocketLayer)) : Prop :=
  (h.run code).1.1 = some (.value payload.length) ∧
    ∃ first, RingFull (fun k => h.shows (readsBefore dev l h fd + k)) first ∧
      (h.shows (readsBefore dev l h fd + first)).buftxFull = false ∧
      SentOnce h (h.run code).2 (h.stores code) (h.shows (readsBefore dev l h fd + (first + 1))).buftxHead
        (txUdpPacket ((h.run code).1.2.socketFds fd).socket payload addr)

/-- `sendmsg` gathers faithfully: every copy stays in `temp_buffer`, the loop ends, and once the ring has room the call
refuses the message or sends the concatenation of its buffers. -/
structure GathersFaithfully (dev : UdpIpDevice) (l : SocketLayer) (fd : Fd) (msg : Msghdr) : Prop where
  inside : ∀ tempBuffer passes, ∀ c ∈ (gather msg.msgIov tempBuffer passes).2.copies, c.1 + c.2 ≤ tempBufferBytes
  ends : ∀ tempBuffer, ∃ passes, (gather msg.msgIov tempBuffer passes).1 ≠ .going ∧ ∀ h attempts,
    ¬ RingFull (fun k => h.shows (readsBefore dev l h fd + k)) attempts →
      RefusesSize h (l.sendmsg dev fd msg tempBuffer passes attempts) ∨
        SendsPayload dev l h fd (msg.msgIov.flatMap Iovec.bytes) msg.msgName (l.sendmsg dev fd msg tempBuffer passes attempts)

section Loop

variable (iov : List Iovec) (tempBuffer : ℕ → BitVec 8)

/-- What the loop works on after its first passes, while none of them ends it. -/
def copied : ℕ → Gathered
  | 0 => ⟨0, tempBuffer, []⟩
  | k + 1 => ((visited iov k).map (copied k).copy).getD (copied k)

variable {iov} {tempBuffer}

@[simp] theorem copied_succ_of_visited {k : ℕ} {v : Iovec} (hv : visited iov k = some v) :
    copied iov tempBuffer (k + 1) = (copied iov tempBuffer k).copy v := by
  rw [copied, hv]
  rfl

@[simp] theorem sumLen_succ_of_visited {k : ℕ} {v : Iovec} (hv : visited iov k = some v) :
    sumLen iov (k + 1) = sumLen iov k + v.cut.toNat := by
  rw [sumLen, hv]
  rfl

/-- The sum of the lengths is kept in 32 bits. -/
theorem totalLen_copied (k : ℕ) : (copied iov tempBuffer k).totalLen = BitVec.ofNat 32 (sumLen iov k) := by
  induction k with
  | zero => rfl
  | succ k ih =>
    cases hv : visited iov k with
    | none =>
      rw [copied, sumLen, hv]
      exact ih
    | some v =>
      rw [copied_succ_of_visited hv, sumLen_succ_of_visited hv, BitVec.ofNat_add, ← ih, BitVec.ofNat_toNat,
        BitVec.setWidth_eq]
      rfl

/-- The size of the next copy against the room of a slot. -/
theorem toNat_totalLen_add (k : ℕ) (v : Iovec) :
    ((copied iov tempBuffer k).totalLen + v.cut).toNat = (sumLen iov k + v.cut.toNat) % 2 ^ 32 := by
  rw [BitVec.toNat_add, totalLen_copied, BitVec.toNat_ofNat, Nat.mod_add_mod]

/-- A pass that ends the loop, or goes on. -/
theorem gatherLoop_succ (passes k : ℕ) :
    gatherLoop iov (passes + 1) (BitVec.ofNat 32 k) (copied iov tempBuffer k) =
      match visited iov k with
      | none => (.complete, copied iov tempBuffer k)
      | some v =>
        if slotPayloadBytes < (sumLen iov k + v.cut.toNat) % 2 ^ 32 then (.refused, copied iov tempBuffer k)
        else gatherLoop iov passes (BitVec.ofNat 32 (k + 1)) (copied iov tempBuffer (k + 1)) := by
  have hindex : iov[(BitVec.ofNat 32 k).toNat]? = visited iov k := by
    rw [BitVec.toNat_ofNat]
    rfl
  rw [gatherLoop, hindex]
  cases hv : visited iov k with
  | none => rfl
  | some v =>
    simp only [toNat_totalLen_add]
    rw [copied_succ_of_visited hv, BitVec.ofNat_add]
    rfl

theorem FitsFor.mono {m n : ℕ} (hfits : FitsFor iov n) (hle : m ≤ n) : FitsFor iov m :=
  fun k hk => hfits k (Nat.lt_of_lt_of_le hk hle)

theorem FitsFor.sumLen_le {m : ℕ} (hfits : FitsFor iov m) : sumLen iov m ≤ tempBufferBytes := by
  cases m with
  | zero => exact Nat.zero_le _
  | succ m => exact (hfits m (Nat.lt_succ_self m)).2

/-- Lengths that fit the buffer are summed up without wrapping. -/
theorem FitsFor.toNat_totalLen {m : ℕ} (hfits : FitsFor iov m) :
    (copied iov tempBuffer m).totalLen.toNat = sumLen iov m := by
  have hlt : sumLen iov m < 2 ^ 32 := Nat.lt_of_le_of_lt hfits.sumLen_le (by decide)
  rw [totalLen_copied, BitVec.toNat_ofNat, Nat.mod_eq_of_lt hlt]

/-- The passes that fit the buffer are made. -/
theorem FitsFor.gatherLoop_eq {n k : ℕ} (hfits : FitsFor iov (k + n)) (tempBuffer : ℕ → BitVec 8) (passes : ℕ) :
    gatherLoop iov (n + passes) (BitVec.ofNat 32 k) (copied iov tempBuffer k) =
      gatherLoop iov passes (BitVec.ofNat 32 (k + n)) (copied iov tempBuffer (k + n)) := by
  induction n generalizing k with
  | zero => rw [Nat.zero_add, Nat.add_zero]
  | succ n ih =>
    obtain ⟨hsome, hle⟩ := hfits k (by omega)
    obtain ⟨v, hv⟩ := Option.isSome_iff_exists.mp hsome
    rw [sumLen_succ_of_visited hv] at hle
    have hsmall : ¬ slotPayloadBytes < (sumLen iov k + v.cut.toNat) % 2 ^ 32 := by
      rw [Nat.mod_eq_of_lt (Nat.lt_of_le_of_lt hle (by decide))]
      exact Nat.not_lt_of_le (Nat.le_trans hle (by decide))
    have hnext : FitsFor iov (k + 1 + n) := by
      rw [Nat.add_right_comm]
      exact hfits
    rw [Nat.add_right_comm, gatherLoop_succ, hv]
    simp only [if_neg hsmall]
    rw [ih hnext, Nat.add_right_comm, Nat.add_assoc]

/-- The loop from its start, after the passes that fit the buffer. -/
theorem FitsFor.gather_eq {n : ℕ} (hfits : FitsFor iov n) (passes : ℕ) :
    gather iov tempBuffer (n + passes) = gatherLoop iov passes (BitVec.ofNat 32 n) (copied iov tempBuffer n) := by
  have hfits' : FitsFor iov (0 + n) := by
    rw [Nat.zero_add]
    exact hfits
  have hloop := hfits'.gatherLoop_eq tempBuffer passes
  rw [Nat.zero_add] at hloop
  exact hloop

/-- They stay in the buffer. -/
theorem FitsFor.copies_inside {m : ℕ} (hfits : FitsFor iov m) :
    ∀ c ∈ (copied iov tempBuffer m).copies, c.1 + c.2 ≤ tempBufferBytes := by
  induction m with
  | zero =>
    intro c hc
    exact absurd hc List.not_mem_nil
  | succ m ih =>
    have hbefore : FitsFor iov m := hfits.mono (Nat.le_succ m)
    obtain ⟨hsome, hle⟩ := hfits m (Nat.lt_succ_self m)
    obtain ⟨v, hv⟩ := Option.isSome_iff_exists.mp hsome
    rw [sumLen_succ_of_visited hv] at hle
    intro c hc
    rw [copied_succ_of_visited hv, Gathered.copy, List.mem_append, List.mem_singleton] at hc
    rcases hc with hc | rfl
    · exact ih hbefore c hc
    · rw [hbefore.toNat_totalLen]
      exact hle

/-- The copies of the passes made so far remain. -/
theorem copies_gatherLoop (passes : ℕ) (i : BitVec 32) (g : Gathered) :
    g.copies ⊆ (gatherLoop iov passes i g).2.copies := by
  induction passes generalizing i g with
  | zero => exact List.Subset.refl _
  | succ passes ih =>
    rw [gatherLoop]
    split
    · exact List.Subset.refl _
    · next v _ =>
      split
      · exact List.Subset.refl _
      · exact List.Subset.trans (List.subset_append_left _ _) (ih (i + 1) (g.copy v))

/-- The pass that follows ends the loop. -/
def EndsAt (iov : List Iovec) (m : ℕ) : Prop :=
  (∃ v, visited iov m = some v ∧ slotPayloadBytes < (sumLen iov m + v.cut.toNat) % 2 ^ 32) ∨ visited iov m = none

/-- A loop that ends with every copy inside the buffer has made passes that fit, up to the one that ended it. -/
theorem exists_endsAt {passes k : ℕ} (hfits : FitsFor iov k)
    (hends : (gatherLoop iov passes (BitVec.ofNat 32 k) (copied iov tempBuffer k)).1 ≠ .going)
    (hinside : ∀ c ∈ (gatherLoop iov passes (BitVec.ofNat 32 k) (copied iov tempBuffer k)).2.copies,
      c.1 + c.2 ≤ tempBufferBytes) :
    ∃ n rest, passes = n + (rest + 1) ∧ FitsFor iov (k + n) ∧ EndsAt iov (k + n) := by
  induction passes generalizing k with
  | zero => exact absurd rfl hends
  | succ passes ih =>
    rw [gatherLoop_succ] at hends hinside
    cases hv : visited iov k with
    | none => exact ⟨0, passes, (Nat.zero_add _).symm, hfits, Or.inr hv⟩
    | some v =>
      rw [hv] at hends hinside
      dsimp only at hends hinside
      by_cases hbig : slotPayloadBytes < (sumLen iov k + v.cut.toNat) % 2 ^ 32
      · exact ⟨0, passes, (Nat.zero_add _).symm, hfits, Or.inl ⟨v, hv, hbig⟩⟩
      · rw [if_neg hbig] at hends hinside
        have hcopy : ((copied iov tempBuffer k).totalLen.toNat, v.cut.toNat) ∈ (copied iov tempBuffer (k + 1)).copies := by
          rw [copied_succ_of_visited hv]
          exact List.mem_append_right _ (List.mem_singleton_self _)
        have hle := hinside _ (copies_gatherLoop passes _ _ hcopy)
        rw [hfits.toNat_totalLen] at hle
        have hnext : FitsFor iov (k + 1) := by
          intro j hj
          rcases Nat.lt_or_eq_of_le (Nat.le_of_lt_succ hj) with hlt | rfl
          · exact hfits j hlt
          · rw [sumLen_succ_of_visited hv, hv]
            exact ⟨rfl, hle⟩
        obtain ⟨n, rest, rfl, hn, hat⟩ := ih hnext hends hinside
        have hcount : k + (n + 1) = k + 1 + n := by omega
        refine ⟨n + 1, rest, Nat.add_right_comm _ _ _, ?_, ?_⟩
        · rw [hcount]
          exact hn
        · rw [hcount]
          exact hat

/-- The end of the loop. -/
theorem gather_endsAt {m : ℕ} (hfits : FitsFor iov m) (hat : EndsAt iov m) (tempBuffer : ℕ → BitVec 8) (rest : ℕ) :
    gather iov tempBuffer (m + (rest + 1)) =
      (if visited iov m = none then .complete else .refused, copied iov tempBuffer m) := by
  rw [hfits.gather_eq, gatherLoop_succ]
  rcases hat with ⟨v, hv, hbig⟩ | hnone
  · rw [hv, if_neg (Option.some_ne_none v)]
    exact if_pos hbig
  · rw [hnone, if_pos rfl]

/-- What is copied behind the first bytes follows them. -/
theorem map_writeBytes (memory : ℕ → BitVec 8) (n : ℕ) (bytes : List (BitVec 8)) :
    (List.range (n + bytes.length)).map (UserHost.writeBytes memory n bytes) = (List.range n).map memory ++ bytes := by
  rw [List.range_add, List.map_append]
  congr 1
  · refine List.map_congr_left fun a ha => ?_
    exact UserHost.writeBytes_of_lt (List.mem_range.mp ha)
  · apply List.ext_getElem
    · simp
    · intro k hk hk'
      rw [List.getElem_map, List.getElem_map, List.getElem_range]
      exact UserHost.writeBytes_of_getElem? _ _ (List.getElem?_eq_getElem hk')

/-- Before the index comes round, each pass has its own buffer. -/
theorem visited_of_lt {k : ℕ} (hk : k < 2 ^ 32) : visited iov k = iov[k]? := by
  rw [visited, Nat.mod_eq_of_lt hk]

/-- Where the buffers end, all of them have been copied. -/
theorem FitsFor.eq_length {m : ℕ} (hfits : FitsFor iov m) (hnone : visited iov m = none) :
    m = iov.length ∧ iov.length < 2 ^ 32 := by
  have hle : iov.length ≤ m % 2 ^ 32 := List.getElem?_eq_none_iff.mp hnone
  have hlt : iov.length < 2 ^ 32 := Nat.lt_of_le_of_lt hle (Nat.mod_lt _ (by decide))
  refine ⟨Nat.le_antisymm ?_ (Nat.le_trans hle (Nat.mod_le _ _)), hlt⟩
  by_contra hmore
  have hsome := (hfits iov.length (by omega)).1
  rw [visited_of_lt hlt, List.getElem?_eq_none (Nat.le_refl _)] at hsome
  exact Bool.noConfusion hsome

/-- The payload is what was copied, one buffer after the other. -/
theorem FitsFor.payload_copied {m : ℕ} (hfits : FitsFor iov m) (hlt : m ≤ 2 ^ 32) :
    (copied iov tempBuffer m).payload = (iov.take m).flatMap Iovec.copiedBytes := by
  induction m with
  | zero => rfl
  | succ m ih =>
    have hbefore : FitsFor iov m := hfits.mono (Nat.le_succ m)
    obtain ⟨hsome, hle⟩ := hfits m (Nat.lt_succ_self m)
    obtain ⟨v, hv⟩ := Option.isSome_iff_exists.mp hsome
    have hlen : ((copied iov tempBuffer m).copy v).totalLen.toNat =
        (copied iov tempBuffer m).totalLen.toNat + v.copiedBytes.length := by
      rw [← copied_succ_of_visited hv, hfits.toNat_totalLen, hbefore.toNat_totalLen, sumLen_succ_of_visited hv,
        Iovec.copiedBytes, Iovec.length_first]
    have hget : iov[m]? = some v := by
      rw [← visited_of_lt (Nat.lt_of_succ_le hlt)]
      exact hv
    rw [List.take_add_one, hget, List.flatMap_append, ← ih hbefore (Nat.le_of_succ_le hlt), copied_succ_of_visited hv,
      Gathered.payload, hlen]
    simp only [Option.toList_some, List.flatMap_cons, List.flatMap_nil, List.append_nil]
    exact map_writeBytes _ _ _

/-- The payload at the end. -/
theorem FitsFor.payload_eq {m : ℕ} (hfits : FitsFor iov m) (hnone : visited iov m = none) (tempBuffer : ℕ → BitVec 8) :
    (copied iov tempBuffer m).payload = iov.flatMap Iovec.copiedBytes := by
  obtain ⟨rfl, hlt⟩ := hfits.eq_length hnone
  rw [hfits.payload_copied (Nat.le_of_lt hlt), List.take_length]

theorem FitsFor.length_payload {m : ℕ} (hfits : FitsFor iov m) (tempBuffer : ℕ → BitVec 8) :
    (copied iov tempBuffer m).payload.length = sumLen iov m := by
  rw [Gathered.payload, List.length_map, List.length_range, hfits.toNat_totalLen]

end Loop

section Calls

variable (dev : UdpIpDevice)

/-- A message that is refused. -/
theorem sendmsg_of_refused {l : SocketLayer} {fd : Fd} (hfd : (l.socketFds fd).status ≠ .notAssigned) {msg : Msghdr}
    (hnamelen : msg.msgNamelen = sizeofSockaddrIn) {tempBuffer : ℕ → BitVec 8} {passes : ℕ} {g : Gathered}
    (hgather : gather msg.msgIov tempBuffer passes = (.refused, g)) (attempts : ℕ) :
    l.sendmsg dev fd msg tempBuffer passes attempts = pure (some (.fail .EMSGSIZE), l) := by
  rw [sendmsg, if_neg (not_not.mpr hnamelen), if_neg hfd, hgather]

/-- A message that is handed on. -/
theorem sendmsg_of_complete {l : SocketLayer} {fd : Fd} (hfd : (l.socketFds fd).status ≠ .notAssigned) {msg : Msghdr}
    (hnamelen : msg.msgNamelen = sizeofSockaddrIn) {tempBuffer : ℕ → BitVec 8} {passes : ℕ} {g : Gathered}
    (hgather : gather msg.msgIov tempBuffer passes = (.complete, g)) (attempts : ℕ) :
    l.sendmsg dev fd msg tempBuffer passes attempts = l.sendto dev fd g.payload msg.msgName sizeofSockaddrIn attempts := by
  rw [sendmsg, if_neg (not_not.mpr hnamelen), if_neg hfd, hgather, hnamelen]

variable {dev} {l : SocketLayer} {fd : Fd} {msg : Msghdr}

/-- What `sendto` returns of a payload that a slot has room for is its length, and not 0. -/
theorem Prepared.returned {l' : SocketLayer} {h h' : UserHost} (hprepared : Prepared dev l l' h h' fd) {buf : List (BitVec 8)}
    {addr : SockaddrIn} {attempts : ℕ} (hroom : ¬ RingFull (fun k => h.shows (readsBefore dev l h fd + k)) attempts)
    (hmax : buf.length ≤ 2008) {o : Outcome}
    (hreturned : (h.run (l.sendto dev fd buf addr sizeofSockaddrIn attempts)).1.1 = some o) :
    o = .value buf.length ∧ 1 ≤ buf.length := by
  by_cases hmin : 1 ≤ buf.length
  · have hvalue := (hprepared.sent_of_fits addr hroom hmin hmax).1
    rw [hreturned] at hvalue
    exact ⟨Option.some.inj hvalue, hmin⟩
  · -- an empty datagram is sent again and again
    obtain rfl : buf = [] := List.eq_nil_of_length_eq_zero (by omega)
    obtain ⟨first, rest, rfl, hfull, hfree⟩ := exists_first_of_not_ringFull hroom
    have hnever := (hprepared.run_sendto_room [] addr rest hfull hfree).1 (Int.le_refl 0)
    rw [hreturned] at hnever
    exact absurd hnever (Option.some_ne_none o)

/-- A message that fits is gathered faithfully. -/
theorem gathersFaithfully_of_fits (hfd : (l.socketFds fd).status ≠ .notAssigned) (hnamelen : msg.msgNamelen = sizeofSockaddrIn)
    (hfits : Fits msg.msgIov) : GathersFaithfully dev l fd msg := by
  obtain ⟨m, hm, hend⟩ := hfits
  have hat : EndsAt msg.msgIov m := hend.imp id And.left
  constructor
  · intro tempBuffer passes
    rcases Nat.lt_or_ge m passes with hlt | hge
    · obtain ⟨rest, rfl⟩ := Nat.exists_eq_add_of_lt hlt
      rw [Nat.add_assoc, gather_endsAt hm hat]
      exact hm.copies_inside
    · have hpasses : FitsFor msg.msgIov passes := hm.mono hge
      rw [← Nat.add_zero passes, hpasses.gather_eq]
      exact hpasses.copies_inside
  · intro tempBuffer
    have hgather := gather_endsAt hm hat tempBuffer 0
    refine ⟨m + 1, ?_, ?_⟩
    · rw [hgather]
      split <;> exact fun hgoing => GatherStatus.noConfusion hgoing
    · intro h attempts hroom
      rcases hend with ⟨v, hv, -⟩ | ⟨hnone, hmin, hlen⟩
      · left
        rw [hv, if_neg (Option.some_ne_none v)] at hgather
        rw [sendmsg_of_refused dev hfd hnamelen hgather]
        exact ⟨rfl, rfl, rfl⟩
      · right
        rw [if_pos hnone] at hgather
        rw [sendmsg_of_complete dev hfd hnamelen hgather]
        have hwhole : (copied msg.msgIov tempBuffer m).payload = msg.msgIov.flatMap Iovec.bytes := by
          rw [hm.payload_eq hnone]
          exact List.flatMap_congr fun v hv => Iovec.copiedBytes_eq (hlen v hv)
        have hlength := hm.length_payload tempBuffer
        have hmax := hm.sumLen_le
        rw [← hlength] at hmin hmax
        rw [hwhole] at hmin hmax ⊢
        obtain ⟨l', h', hprepared⟩ := exists_prepared dev l h hfd
        exact hprepared.sent_of_fits _ hroom hmin (Nat.le_trans hmax (by decide))

/-- A message that is gathered faithfully fits. -/
theorem fits_of_gathersFaithfully (hfd : (l.socketFds fd).status ≠ .notAssigned)
    (hnamelen : msg.msgNamelen = sizeofSockaddrIn) (hfaithful : GathersFaithfully dev l fd msg) : Fits msg.msgIov := by
  obtain ⟨passes, hends, hsends⟩ := hfaithful.ends fun _ => 0
  have hnothing : FitsFor msg.msgIov 0 := fun k hk => absurd hk (Nat.not_lt_zero k)
  obtain ⟨m, rest, rfl, hm, hat⟩ := exists_endsAt hnothing hends (hfaithful.inside _ passes)
  rw [Nat.zero_add] at hm hat
  refine ⟨m, hm, hat.imp id fun hnone => ?_⟩
  have hgather := gather_endsAt hm hat (fun _ => 0) rest
  rw [if_pos hnone] at hgather
  have hroom : ¬ RingFull (fun k => idleHost.shows (readsBefore dev l idleHost fd + k)) 1 :=
    fun hfull => Bool.noConfusion (hfull 0 Nat.one_pos)
  have hsent := hsends idleHost 1 hroom
  rw [sendmsg_of_complete dev hfd hnamelen hgather] at hsent
  obtain ⟨l', h', hprepared⟩ := exists_prepared dev l idleHost hfd
  have hlength := hm.length_payload fun _ => 0
  have hmax : (copied msg.msgIov (fun _ => 0) m).payload.length ≤ slotPayloadBytes := by
    rw [hlength]
    exact Nat.le_trans hm.sumLen_le (by decide)
  rcases hsent with ⟨hrefused, -⟩ | ⟨hvalue, -⟩
  · have hfail := (hprepared.returned hroom hmax hrefused).1
    simp [Outcome.value, Outcome.fail] at hfail
  · obtain ⟨hsame, hmin⟩ := hprepared.returned hroom hmax hvalue
    rw [hlength] at hmin
    refine ⟨hnone, hmin, Iovec.lt_of_length_eq ?_⟩
    rw [← hm.payload_eq hnone fun _ => 0]
    exact (Int.ofNat.inj (congrArg Outcome.ret hsame)).symm

end Calls

/-- For an assigned descriptor and an address of the right family, `sendmsg` gathers a message faithfully exactly if the
lengths that are summed up fit `temp_buffer` until a pass is refused or the buffers end, and at the end some buffer is not
empty and no length was cut. -/
theorem gathersFaithfully_iff (dev : UdpIpDevice) (l : SocketLayer) {fd : Fd}
    (hfd : (l.socketFds fd).status ≠ .notAssigned) (msg : Msghdr) (hnamelen : msg.msgNamelen = sizeofSockaddrIn) :
    GathersFaithfully dev l fd msg ↔ Fits msg.msgIov :=
  ⟨fits_of_gathersFaithfully hfd hnamelen, gathersFaithfully_of_fits hfd hnamelen⟩

/-- A message of three bytes. -/
def threeBytes : Msghdr := ⟨inetAddr 0xC0A80102 5678, sizeofSockaddrIn, [⟨fun _ => 7, 3⟩]⟩

/-- A buffer that a slot has room for and `temp_buffer` has not. -/
def overflowing : Msghdr := ⟨inetAddr 0xC0A80102 5678, sizeofSockaddrIn, [⟨fun _ => 7, 1473⟩]⟩

/-- Three bytes are gathered and sent. -/
theorem gathersFaithfully_three : GathersFaithfully SocketRun.localPorts boundSocket 3 threeBytes := by
  have hfits : Fits threeBytes.msgIov := by
    refine ⟨1, fun k hk => ?_, Or.inr ⟨rfl, by decide, fun v hv => ?_⟩⟩
    · obtain rfl : k = 0 := Nat.lt_one_iff.mp hk
      exact ⟨rfl, by decide⟩
    · rw [List.mem_singleton.mp hv]
      decide
  exact (gathersFaithfully_iff SocketRun.localPorts boundSocket (by decide) threeBytes rfl).mpr hfits

/-- A buffer of 1473 bytes is copied past the end of `temp_buffer`. -/
theorem not_gathersFaithfully : ¬ ∀ (dev : UdpIpDevice) (l : SocketLayer) (fd : Fd) (msg : Msghdr),
    (l.socketFds fd).status ≠ .notAssigned → msg.msgNamelen = sizeofSockaddrIn → GathersFaithfully dev l fd msg := by
  intro hall
  have hfaithful := hall SocketRun.localPorts boundSocket 3 overflowing (by decide) rfl
  have hinside := hfaithful.inside (fun _ => 0) 1 (0, 1473) (List.mem_singleton.mpr rfl)
  exact absurd hinside (by decide)

end SocketLayer

end UdpIpCore
