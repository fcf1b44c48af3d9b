import Mathlib.Algebra.Group.Int.Defs
import Mathlib.Algebra.Group.Nat.Defs
import Mathlib.Data.Fintype.Card
import UdpIpCore.Userspace.ConnectSend

/-!
# Waiting in `select`

`select` clears the set it is given before it looks at it, so that it reports whatever is
bound and has data. It probes every bound descriptor below the given number, whatever its
port. The timeout and the start time are locals that are set only if a timeout is given.
-/

namespace UdpIpCore

open Interaction

/-- `fd_set`. -/
abbrev FdSet := Fd → Bool

namespace FdSet

/-- `FD_ZERO`. -/
def fdZero : FdSet := fun _ => false

/-- `FD_SET`. -/
def fdSet (set : FdSet) (fd : Fd) : FdSet := Function.update set fd true

/-- The number of descriptors in a set. -/
def size (set : FdSet) : ℕ := (Finset.univ.filter fun fd => set fd = true).card

@[simp] theorem fdSet_apply (set : FdSet) (fd other : Fd) : set.fdSet fd other = if other = fd then true else set other :=
  Function.update_apply set fd true other

@[simp] theorem size_fdZero : size fdZero = 0 := by
  simp [size, fdZero]

/-- A new descriptor is one more. -/
theorem size_fdSet {set : FdSet} {fd : Fd} (hnew : set fd = false) : (set.fdSet fd).size = set.size + 1 := by
  have hinsert : (Finset.univ.filter fun other => set.fdSet fd other = true) =
      insert fd (Finset.univ.filter fun other => set other = true) := by
    ext other
    simp only [fdSet_apply, Finset.mem_filter, Finset.mem_univ, true_and, Finset.mem_insert]
    split
    · next heq => simp [heq]
    · next hne => simp [hne]
  rw [size, hinsert, Finset.card_insert_of_notMem (by simp [hnew])]
  rfl

/-- A set of no size has no descriptors. -/
theorem size_eq_zero {set : FdSet} : set.size = 0 ↔ ∀ fd, set fd = false := by
  simp [size, Finset.card_eq_zero, Finset.filter_eq_empty_iff]

end FdSet

/-- `struct timeval`. -/
structure Timeval where
  tvSec : BitVec 64
  tvUsec : BitVec 64

namespace Timeval

/-- `TV_TO_USEC` and `TVP_TO_USEC`, in the 64 bits of a `long`. -/
def toUsec (tv : Timeval) : BitVec 64 := tv.tvSec * 1000000 + tv.tvUsec

/-- The microseconds. -/
def usec (tv : Timeval) : ℤ := tv.tvSec.toInt * 1000000 + tv.tvUsec.toInt

/-- The macros compute them modulo 2^64. -/
theorem toInt_toUsec (tv : Timeval) : tv.toUsec.toInt = tv.usec.bmod (2 ^ 64) := by
  have hmillion : (1000000 : BitVec 64).toInt = 1000000 := by decide
  rw [toUsec, BitVec.toInt_add, BitVec.toInt_mul, hmillion, usec, Int.bmod_add_bmod]

/-- Times with room in a `long` are computed as they are. -/
theorem toInt_toUsec_of_lt {tv : Timeval} (hmin : -2 ^ 63 ≤ tv.usec) (hmax : tv.usec < 2 ^ 63) : tv.toUsec.toInt = tv.usec := by
  rw [toInt_toUsec]
  exact Int.bmod_eq_of_le (by omega) (by omega)

end Timeval

/-- What `gettimeofday` answers in a call: a time the macros have room for. -/
structure Clock where
  start : Timeval
  /-- In each pass. -/
  now : ℕ → Timeval
  start_range : 0 ≤ start.usec ∧ start.usec < 2 ^ 62
  now_range : ∀ pass, 0 ≤ (now pass).usec ∧ (now pass).usec < 2 ^ 62

/-- The difference of two times is computed as it is. -/
theorem Clock.toInt_sub (clock : Clock) (pass : ℕ) :
    ((clock.now pass).toUsec - clock.start.toUsec).toInt = (clock.now pass).usec - clock.start.usec := by
  obtain ⟨hstart, hstart'⟩ := clock.start_range
  obtain ⟨hnow, hnow'⟩ := clock.now_range pass
  rw [BitVec.toInt_sub, Timeval.toInt_toUsec_of_lt (by omega) (by omega), Timeval.toInt_toUsec_of_lt (by omega) (by omega)]
  exact Int.bmod_eq_of_le (by omega) (by omega)

/-- The arguments of `select`, and the locals it does not initialize. -/
structure SelectArgs where
  nfds : ℤ
  /-- Not given if it is `NULL`. -/
  readfds : Option FdSet
  timeout : Option Timeval
  timeoutUs : BitVec 64
  start : Timeval

/-- What a call of `select` has come to. -/
inductive Selected
  | going
  /-- An entry behind `socket_fds`, or a word behind the mapped registers, was asked for. -/
  | outside
  /-- What it returned, in which pass, and the set it left behind. -/
  | returned (pass : ℕ) (ret : ℤ) (readfds : Option FdSet)

namespace SocketLayer

open Udriver

variable (dev : UdpIpDevice) (l : SocketLayer)

/-- An index into `socket_fds`. -/
def fdAt (i : ℕ) : Option Fd := if h : i < maxUdpPorts then some ⟨i, h⟩ else none

/-- The descriptors below a number, in order: how many are ready, and the set with them. -/
def selectScan : ℕ → FdSet → UserCode (Option (ℕ × FdSet))
  | 0, readfds => return some (0, readfds)
  | i + 1, readfds => do
    match ← selectScan i readfds with
    | none => return none
    | some (count, readfds) =>
      match fdAt i with
      | none => return none
      | some fd =>
        let id := l.socketFds fd
        if id.status ≠ .bound then return some (count, readfds)
        else match ← udriverProbePort dev (id.socket.srcPort.setWidth 32) with
          | none => return none
          | some true => return some (count + 1, readfds.fdSet fd)
          | some false => return some (count, readfds)

/-- The loop of `select`. -/
def selectPasses (nfds : ℤ) (timeoutUs start : BitVec 64) (now : ℕ → Timeval) :
    ℕ → ℕ → FdSet → UserCode Selected
  | _, 0, _ => return .going
  | pass, passes + 1, readfds => do
    match ← l.selectScan dev nfds.toNat readfds with
    | none => return .outside
    | some (count, readfds) =>
      if 0 < count then return .returned pass count (some readfds)
      else if 0 ≤ timeoutUs.toInt ∧ timeoutUs.toInt ≤ ((now pass).toUsec - start).toInt then
        return .returned pass 0 (some readfds)
      else selectPasses nfds timeoutUs start now (pass + 1) passes readfds

/-- `timeout_us`, as the loop finds it. -/
def timeoutUs (args : SelectArgs) : BitVec 64 := (args.timeout.map Timeval.toUsec).getD args.timeoutUs

/-- The start time, as the loop finds it. -/
def startUsec (args : SelectArgs) (clock : Clock) : BitVec 64 :=
  if args.timeout.isSome then clock.start.toUsec else args.start.toUsec

/-- `select`, followed for a number of passes. -/
def select (args : SelectArgs) (clock : Clock) (passes : ℕ) : UserCode Selected :=
  match args.readfds with
  | none => return .returned 0 (-1) none
  | some _ => l.selectPasses dev args.nfds (timeoutUs args) (startUsec args clock) clock.now 0 passes .fdZero

section Inputs

/-- The number of bound descriptors below a number; each of them is probed once in a pass. -/
def boundBelow : ℕ → ℕ
  | 0 => 0
  | i + 1 => boundBelow i + ((fdAt i).elim 0 fun fd => if (l.socketFds fd).status = .bound then 1 else 0)

/-- What the device shows when a descriptor is probed in a pass over the descriptors below a number. -/
def probeStatus (h : UserHost) (nfds pass : ℕ) (fd : Fd) : StatusInputs :=
  h.shows (pass * l.boundBelow nfds + l.boundBelow fd)

/-- The descriptor is bound and its probe finds data. -/
def Ready (h : UserHost) (nfds pass : ℕ) (fd : Fd) : Prop :=
  fd.val < nfds ∧ (l.socketFds fd).status = .bound ∧
    (h.regs.read (l.probeStatus h nfds pass fd)
      (ConfigRegs.bufferRxCtrl (bufferId dev ((l.socketFds fd).socket.srcPort.setWidth 32)).toNat)).getLsbD
        bufferEmptyOffset = false

/-- The descriptor is bound to a port whose ring is not empty. -/
def HasData (h : UserHost) (nfds pass : ℕ) (fd : Fd) : Prop :=
  (l.socketFds fd).status = .bound ∧ dev.InRange (l.socketFds fd).socket.srcPort ∧
    ((l.probeStatus h nfds pass fd).bufrx (dev.ring (l.socketFds fd).socket.srcPort)).empty = false

/-- The elapsed time has reached what `timeout_us` holds. -/
def Expires (args : SelectArgs) (clock : Clock) (pass : ℕ) : Prop :=
  0 ≤ (timeoutUs args).toInt ∧ (timeoutUs args).toInt ≤ ((clock.now pass).toUsec - startUsec args clock).toInt

instance decidableExpires (args : SelectArgs) (clock : Clock) (pass : ℕ) : Decidable (Expires args clock pass) :=
  inferInstanceAs (Decidable (_ ∧ _))

/-- A pass in which the loop ends. -/
def Decides (h : UserHost) (args : SelectArgs) (clock : Clock) (pass : ℕ) : Prop :=
  (∃ fd, Ready dev l h args.nfds.toNat pass fd) ∨ Expires args clock pass

/-- What `select` returned is what it was asked for. -/
structure Selects (h : UserHost) (args : SelectArgs) (clock : Clock) (pass : ℕ) (ret : ℤ) (readfds : Option FdSet) :
    Prop where
  ready : 0 < ret → ∃ requested set, args.readfds = some requested ∧ readfds = some set ∧ ret = set.size ∧
    ∀ fd, set fd = true ↔ requested fd = true ∧ (fd.val : ℤ) < args.nfds ∧ HasData dev l h args.nfds.toNat pass fd
  elapsed : ret = 0 → ∃ timeout, args.timeout = some timeout ∧ timeout.usec ≤ (clock.now pass).usec - clock.start.usec
  waits : args.timeout = none → 0 < ret

/-- What a call has come to, so far. -/
def Faithful (h : UserHost) (args : SelectArgs) (clock : Clock) : Selected → Prop
  | .going => True
  | .outside => False
  | .returned pass ret readfds => Selects dev l h args clock pass ret readfds

/-- `select` asks for nothing behind `socket_fds` or the mapped registers, and whatever it returns is what it was asked
for. -/
def SelectsFaithfully (h : UserHost) (args : SelectArgs) (clock : Clock) : Prop :=
  ∀ passes, Faithful dev l h args clock (h.run (l.select dev args clock passes)).1

/-- `nfds` is in the table, and the control word of every bound descriptor below it is mapped. -/
structure Inside (args : SelectArgs) : Prop where
  nfds : args.nfds ≤ maxUdpPorts
  mapped : ∀ fd, (fd.val : ℤ) < args.nfds → (l.socketFds fd).status = .bound →
    Mapped dev ((l.socketFds fd).socket.srcPort.setWidth 32)

/-- Without a set a timeout is given. With one, the call looks only into the table and the mapped registers, and in the
first pass that decides every descriptor that is found ready was requested and has a ring, or, if none is, a timeout was
given that has room in a `long`. -/
def SelectsWell (h : UserHost) (args : SelectArgs) (clock : Clock) : Prop :=
  match args.readfds with
  | none => args.timeout ≠ none
  | some requested => l.Inside dev args ∧ ∀ pass, (∀ earlier < pass, ¬ Decides dev l h args clock earlier) →
      (∀ fd, Ready dev l h args.nfds.toNat pass fd →
        requested fd = true ∧ dev.InRange (l.socketFds fd).socket.srcPort) ∧
      ((∀ fd, ¬ Ready dev l h args.nfds.toNat pass fd) → Expires args clock pass →
        ∃ timeout, args.timeout = some timeout ∧ timeout.usec < 2 ^ 63)

end Inputs

section Run

variable {dev} {l} {h : UserHost}

/-- The host after some register reads. -/
def afterReads (h : UserHost) (reads : ℕ) : UserHost := { h with shows := fun k => h.shows (reads + k) }

@[simp] theorem afterReads_zero (h : UserHost) : afterReads h 0 = h := by
  simp [afterReads]

theorem fdAt_of_lt {i : ℕ} (hi : i < maxUdpPorts) : fdAt i = some ⟨i, hi⟩ := dif_pos hi

theorem fdAt_of_le {i : ℕ} (hi : maxUdpPorts ≤ i) : fdAt i = none := dif_neg (Nat.not_lt_of_le hi)

/-- The descriptor is bound, and its probe finds data if the reads of a pass begin where they are said to. -/
def ReadyFrom (dev : UdpIpDevice) (l : SocketLayer) (h : UserHost) (reads : ℕ) (fd : Fd) : Prop :=
  (l.socketFds fd).status = .bound ∧
    (h.regs.read (h.shows (reads + l.boundBelow fd))
      (ConfigRegs.bufferRxCtrl (bufferId dev ((l.socketFds fd).socket.srcPort.setWidth 32)).toNat)).getLsbD
        bufferEmptyOffset = false

/-- One more descriptor below the number. -/
theorem ready_succ_iff {n : ℕ} (hn : n < maxUdpPorts) {set : FdSet} {p : Fd → Prop}
    (hset : ∀ fd, set fd = true ↔ fd.val < n ∧ p fd) (hnew : ¬ p ⟨n, hn⟩) (fd : Fd) :
    set fd = true ↔ fd.val < n + 1 ∧ p fd := by
  rw [hset fd]
  constructor
  · rintro ⟨hlt, hp⟩
    exact ⟨Nat.lt_succ_of_lt hlt, hp⟩
  · rintro ⟨hlt, hp⟩
    refine ⟨Nat.lt_of_le_of_ne (Nat.le_of_lt_succ hlt) fun heq => hnew ?_, hp⟩
    have hfd : fd = ⟨n, hn⟩ := Fin.ext heq
    exact hfd ▸ hp

/-- One probe. -/
theorem run_udriverProbePort (reads : ℕ) {port : BitVec 32} (hmapped : Mapped dev port) :
    (afterReads h reads).run (udriverProbePort dev port) =
      (some !(h.regs.read (h.shows reads) (ConfigRegs.bufferRxCtrl (bufferId dev port).toNat)).getLsbD bufferEmptyOffset,
        afterReads h (reads + 1)) := by
  have hreads : (afterReads h reads).afterRead = afterReads h (reads + 1) := by
    unfold afterReads UserHost.afterRead
    congr 1
    funext k
    exact congrArg h.shows (by omega)
  rw [udriverProbePort, if_pos hmapped, UserHost.run_bind, UserHost.run_readReg, hreads, setWidth_bufferRxCtrlBaseOffset]
  rfl

/-- A pass over descriptors of the table finds those that are ready. -/
theorem run_selectScan (dev : UdpIpDevice) (l : SocketLayer) (h : UserHost) (reads : ℕ) {n : ℕ} (hn : n ≤ maxUdpPorts)
    (hmapped : ∀ fd, fd.val < n → (l.socketFds fd).status = .bound →
      Mapped dev ((l.socketFds fd).socket.srcPort.setWidth 32)) :
    ∃ set : FdSet, (afterReads h reads).run (l.selectScan dev n .fdZero) =
      (some (set.size, set), afterReads h (reads + l.boundBelow n)) ∧
        ∀ fd, set fd = true ↔ fd.val < n ∧ ReadyFrom dev l h reads fd := by
  induction n with
  | zero =>
    refine ⟨.fdZero, ?_, fun fd => ?_⟩
    · rw [selectScan, FdSet.size_fdZero]
      rfl
    · simp [FdSet.fdZero]
  | succ n ih =>
    have hlt : n < maxUdpPorts := hn
    obtain ⟨set, hrun, hset⟩ := ih (Nat.le_of_lt hlt) fun fd hfd => hmapped fd (Nat.lt_succ_of_lt hfd)
    rw [selectScan, UserHost.run_bind, hrun, fdAt_of_lt hlt, boundBelow, fdAt_of_lt hlt]
    dsimp only [Option.elim_some]
    by_cases hbound : (l.socketFds ⟨n, hlt⟩).status = .bound
    · rw [if_neg (not_not.mpr hbound), if_pos hbound, UserHost.run_bind]
      rw [run_udriverProbePort _ (hmapped ⟨n, hlt⟩ (Nat.lt_succ_self n) hbound)]
      by_cases hready : ReadyFrom dev l h reads ⟨n, hlt⟩
      · have hnew : set ⟨n, hlt⟩ = false := by
          rw [← Bool.not_eq_true, hset]
          exact fun hbelow => absurd hbelow.1 (Nat.lt_irrefl n)
        refine ⟨set.fdSet ⟨n, hlt⟩, ?_, fun fd => ?_⟩
        · rw [hready.2, FdSet.size_fdSet hnew]
          rfl
        · rw [FdSet.fdSet_apply]
          split
          · next heq =>
            subst heq
            exact iff_of_true rfl ⟨Nat.lt_succ_self n, hready⟩
          · next hne =>
            rw [hset fd]
            refine and_congr_left fun _ => ⟨Nat.lt_succ_of_lt, fun hle => ?_⟩
            exact Nat.lt_of_le_of_ne (Nat.le_of_lt_succ hle) fun heq => hne (Fin.ext heq)
      · have hempty := Bool.not_eq_false _ ▸ (not_and.mp hready hbound)
        refine ⟨set, ?_, ready_succ_iff hlt hset hready⟩
        rw [hempty]
        rfl
    · rw [if_pos hbound, if_neg hbound, Nat.add_zero]
      exact ⟨set, rfl, ready_succ_iff hlt hset fun hready => hbound hready.1⟩

variable {args : SelectArgs} {clock : Clock}

/-- The loop from a pass on. -/
def loopFrom (dev : UdpIpDevice) (l : SocketLayer) (h : UserHost) (args : SelectArgs) (clock : Clock) (pass passes : ℕ) :
    Selected :=
  ((afterReads h (pass * l.boundBelow args.nfds.toNat)).run
    (l.selectPasses dev args.nfds (timeoutUs args) (startUsec args clock) clock.now pass passes .fdZero)).1

/-- One pass: the ready descriptors are returned, or the loop goes on with an empty set. -/
theorem loopFrom_succ (hinside : l.Inside dev args) (clock : Clock) (pass passes : ℕ) :
    ∃ set : FdSet, (∀ fd, set fd = true ↔ Ready dev l h args.nfds.toNat pass fd) ∧
      loopFrom dev l h args clock pass (passes + 1) =
        if 0 < set.size then .returned pass set.size (some set)
        else if Expires args clock pass then .returned pass 0 (some set)
        else loopFrom dev l h args clock (pass + 1) passes := by
  obtain ⟨set, hrun, hset⟩ := run_selectScan dev l h (pass * l.boundBelow args.nfds.toNat)
    (Int.toNat_le.mpr hinside.nfds) fun fd hfd => hinside.mapped fd (Int.lt_toNat.mp hfd)
  refine ⟨set, hset, ?_⟩
  rw [loopFrom, selectPasses, UserHost.run_bind, hrun]
  dsimp only
  split
  · rfl
  · next hsize =>
    have hempty : set = .fdZero := by
      funext fd
      exact FdSet.size_eq_zero.mp (Nat.eq_zero_of_not_pos hsize) fd
    by_cases hend : Expires args clock pass
    · rw [if_pos hend]
      exact congrArg (fun code => (UserHost.run _ code).1) (if_pos hend)
    · rw [if_neg hend, hempty, ← Nat.succ_mul]
      exact congrArg (fun code => (UserHost.run _ code).1) (if_neg hend)

/-- Whether a pass finds a ready descriptor. -/
theorem size_pos_iff {set : FdSet} {pass : ℕ} (hset : ∀ fd, set fd = true ↔ Ready dev l h args.nfds.toNat pass fd) :
    0 < set.size ↔ ∃ fd, Ready dev l h args.nfds.toNat pass fd := by
  rw [Nat.pos_iff_ne_zero, Ne, FdSet.size_eq_zero, not_forall]
  simp only [Bool.not_eq_false, hset]

/-- The passes in which nothing is ready and the time has not elapsed are made. -/
theorem loopFrom_of_not_decides (hinside : l.Inside dev args) {pass : ℕ}
    (hgoing : ∀ earlier < pass, ¬ Decides dev l h args clock earlier) (passes : ℕ) :
    loopFrom dev l h args clock 0 (pass + passes) = loopFrom dev l h args clock pass passes := by
  induction pass generalizing passes with
  | zero => rw [Nat.zero_add]
  | succ pass ih =>
    have hbefore := ih (fun earlier hlt => hgoing earlier (Nat.lt_succ_of_lt hlt)) (passes + 1)
    have hnot := hgoing pass (Nat.lt_succ_self pass)
    obtain ⟨set, hset, hloop⟩ := loopFrom_succ hinside clock pass passes
    rw [if_neg fun hpos => hnot (Or.inl ((size_pos_iff hset).mp hpos)), if_neg fun hexpires => hnot (Or.inr hexpires)] at hloop
    rw [Nat.add_right_comm, Nat.add_assoc, hbefore, hloop]

/-- A bound descriptor with a ring is found ready exactly if its ring is not empty. -/
theorem ready_iff_hasData {nfds pass : ℕ} {fd : Fd} (hrange : dev.InRange (l.socketFds fd).socket.srcPort) :
    Ready dev l h nfds pass fd ↔ fd.val < nfds ∧ HasData dev l h nfds pass fd := by
  have hring : ConfigRegs.ringOf (ConfigRegs.bufferRxCtrl
      (bufferId dev ((l.socketFds fd).socket.srcPort.setWidth 32)).toNat) =
      some (dev.ring (l.socketFds fd).socket.srcPort) := by
    rw [dev.bufferId_toNat hrange]
    exact ConfigRegs.ringOf_of_lt (dev.sub_lt hrange)
  rw [Ready, HasData, ConfigRegs.read, hring]
  simp only [ConfigRegs.getLsbD_rxWord_empty, hrange, true_and]

/-- A pass that comes to the end of the table, or to a bound descriptor that is not mapped, ends there. -/
theorem run_selectScan_outside {n i : ℕ} (hi : i < n) (hout : ∀ fd, fdAt i = some fd →
      (l.socketFds fd).status = .bound ∧ ¬ Mapped dev ((l.socketFds fd).socket.srcPort.setWidth 32)) (set : FdSet) :
    (h.run (l.selectScan dev n set)).1 = none := by
  induction n with
  | zero => exact absurd hi (Nat.not_lt_zero _)
  | succ n ih =>
    rw [selectScan, UserHost.run_bind]
    rcases Nat.lt_or_eq_of_le (Nat.le_of_lt_succ hi) with hlt | rfl
    · rw [ih hlt]
      rfl
    · cases (h.run (l.selectScan dev i set)).1 with
      | none => rfl
      | some found =>
        dsimp only
        cases hfd : fdAt i with
        | none => rfl
        | some fd =>
          obtain ⟨hbound, hunmapped⟩ := hout fd hfd
          dsimp only
          rw [if_neg (not_not.mpr hbound), udriverProbePort, if_neg hunmapped]
          rfl

/-- So a call with a set goes outside in its first pass unless it stays inside. -/
theorem run_select_outside {requested : FdSet} (hrequested : args.readfds = some requested)
    (hout : ¬ l.Inside dev args) : (h.run (l.select dev args clock 1)).1 = .outside := by
  have hscan : (h.run (l.selectScan dev args.nfds.toNat .fdZero)).1 = none := by
    by_cases hnfds : args.nfds ≤ maxUdpPorts
    · have hunmapped : ¬ ∀ fd, (fd.val : ℤ) < args.nfds → (l.socketFds fd).status = .bound →
          Mapped dev ((l.socketFds fd).socket.srcPort.setWidth 32) := fun hmapped => hout ⟨hnfds, hmapped⟩
      simp only [not_forall] at hunmapped
      obtain ⟨fd, hlt, hbound, hunmapped⟩ := hunmapped
      refine run_selectScan_outside (Int.lt_toNat.mpr hlt) (fun fd' hfd' => ?_) _
      obtain rfl := Option.some.inj ((fdAt_of_lt fd.isLt).symm.trans hfd')
      exact ⟨hbound, hunmapped⟩
    · have hlt : maxUdpPorts < args.nfds.toNat := by omega
      refine run_selectScan_outside hlt (fun fd hfd => ?_) _
      rw [fdAt_of_le (Nat.le_refl _)] at hfd
      exact absurd hfd.symm (Option.some_ne_none fd)
  rw [select, hrequested, selectPasses, UserHost.run_bind, hscan]
  rfl

/-- With a set, `select` is its loop. -/
theorem run_select {requested : FdSet} (hrequested : args.readfds = some requested) (passes : ℕ) :
    (h.run (l.select dev args clock passes)).1 = loopFrom dev l h args clock 0 passes := by
  rw [select, hrequested, loopFrom, Nat.zero_mul, afterReads_zero]

/-- Descriptors that are found ready are reported faithfully if they were requested and have rings. -/
theorem selects_ready_iff {requested : FdSet} (hrequested : args.readfds = some requested) {pass : ℕ} {set : FdSet}
    (hset : ∀ fd, set fd = true ↔ Ready dev l h args.nfds.toNat pass fd) (hsize : 0 < set.size) :
    Selects dev l h args clock pass set.size (some set) ↔
      ∀ fd, Ready dev l h args.nfds.toNat pass fd →
        requested fd = true ∧ dev.InRange (l.socketFds fd).socket.srcPort := by
  have hbelow (fd : Fd) : fd.val < args.nfds.toNat ↔ (fd.val : ℤ) < args.nfds := by omega
  constructor
  · intro hselects fd hready
    obtain ⟨requested', set', hrequested', hset', -, hiff⟩ := hselects.ready (Int.natCast_pos.mpr hsize)
    obtain rfl := Option.some.inj (hrequested.symm.trans hrequested')
    obtain rfl := Option.some.inj hset'
    obtain ⟨hasked, -, hdata⟩ := (hiff fd).mp ((hset fd).mpr hready)
    exact ⟨hasked, hdata.2.1⟩
  · intro hall
    refine ⟨fun _ => ⟨requested, set, hrequested, rfl, rfl, fun fd => ?_⟩, fun hzero => ?_, fun _ => Int.natCast_pos.mpr hsize⟩
    · rw [hset fd]
      constructor
      · intro hready
        obtain ⟨hasked, hrange⟩ := hall fd hready
        obtain ⟨hlt, hdata⟩ := (ready_iff_hasData hrange).mp hready
        exact ⟨hasked, (hbelow fd).mp hlt, hdata⟩
      · rintro ⟨-, hlt, hdata⟩
        exact (ready_iff_hasData hdata.2.1).mpr ⟨(hbelow fd).mpr hlt, hdata⟩
    · exact absurd (Int.natCast_eq_zero.mp hzero) (Nat.ne_of_gt hsize)

/-- What has elapsed is the timeout if one was given that has room in a `long`. -/
theorem selects_elapsed_iff {pass : ℕ} (hexpires : Expires args clock pass) (set : Option FdSet) :
    Selects dev l h args clock pass 0 set ↔ ∃ timeout, args.timeout = some timeout ∧ timeout.usec < 2 ^ 63 := by
  obtain ⟨hmin, hmax⟩ := hexpires
  obtain ⟨hstart, hstart'⟩ := clock.start_range
  obtain ⟨hnow, hnow'⟩ := clock.now_range pass
  constructor
  · intro hselects
    obtain ⟨timeout, htimeout, hle⟩ := hselects.elapsed rfl
    exact ⟨timeout, htimeout, by omega⟩
  · rintro ⟨timeout, htimeout, hlt⟩
    refine ⟨fun hpos => absurd hpos (Int.lt_irrefl 0), fun _ => ⟨timeout, htimeout, ?_⟩, fun hnone => ?_⟩
    · by_cases hlow : -2 ^ 63 ≤ timeout.usec
      · have hus : (timeoutUs args).toInt = timeout.usec := by
          rw [timeoutUs, htimeout]
          exact Timeval.toInt_toUsec_of_lt hlow hlt
        have hsince : startUsec args clock = clock.start.toUsec := by
          rw [startUsec, htimeout]
          rfl
        rw [hus, hsince, clock.toInt_sub] at hmax
        exact hmax
      · omega
    · rw [htimeout] at hnone
      exact absurd hnone (Option.some_ne_none timeout)

/-- The loop ends faithfully from any pass on that is reached. -/
theorem loopFrom_faithful {requested : FdSet} (hrequested : args.readfds = some requested)
    (hwell : SelectsWell dev l h args clock) {pass : ℕ} (passes : ℕ)
    (hgoing : ∀ earlier < pass, ¬ Decides dev l h args clock earlier) :
    Faithful dev l h args clock (loopFrom dev l h args clock pass passes) := by
  have hwell' := hwell
  rw [SelectsWell, hrequested] at hwell'
  obtain ⟨hinside, hall⟩ := hwell'
  induction passes generalizing pass with
  | zero => trivial
  | succ passes ih =>
    obtain ⟨hready, hexpires⟩ := hall pass hgoing
    obtain ⟨set, hset, hloop⟩ := loopFrom_succ hinside clock pass passes
    by_cases hsize : 0 < set.size
    · rw [if_pos hsize] at hloop
      rw [hloop]
      exact (selects_ready_iff hrequested hset hsize).mpr hready
    · have hnone : ∀ fd, ¬ Ready dev l h args.nfds.toNat pass fd :=
        fun fd hfd => hsize ((size_pos_iff hset).mpr ⟨fd, hfd⟩)
      rw [if_neg hsize] at hloop
      by_cases hend : Expires args clock pass
      · rw [if_pos hend] at hloop
        rw [hloop]
        exact (selects_elapsed_iff hend _).mpr (hexpires hnone hend)
      · rw [if_neg hend] at hloop
        rw [hloop]
        refine ih fun earlier hlt => ?_
        rcases Nat.lt_or_eq_of_le (Nat.le_of_lt_succ hlt) with hbefore | rfl
        · exact hgoing earlier hbefore
        · rintro (⟨fd, hfd⟩ | hexpired)
          · exact hnone fd hfd
          · exact hend hexpired

/-- A call that is answered faithfully asks well. -/
theorem selectsWell_of_faithful (hfaithful : SelectsFaithfully dev l h args clock) : SelectsWell dev l h args clock := by
  rw [SelectsWell]
  cases hrequested : args.readfds with
  | none =>
    have hreturned := hfaithful 0
    rw [select, hrequested] at hreturned
    exact fun hnone => absurd (hreturned.waits hnone) (by decide)
  | some requested =>
    have hinside : l.Inside dev args := by
      by_contra hout
      have hreturned := hfaithful 1
      rw [run_select_outside hrequested hout] at hreturned
      exact hreturned
    refine ⟨hinside, fun pass hgoing => ?_⟩
    have hreturned := hfaithful (pass + 1)
    obtain ⟨set, hset, hloop⟩ := loopFrom_succ hinside clock pass 0
    rw [run_select hrequested, loopFrom_of_not_decides hinside hgoing, hloop] at hreturned
    by_cases hsize : 0 < set.size
    · rw [if_pos hsize] at hreturned
      refine ⟨(selects_ready_iff hrequested hset hsize).mp hreturned, fun hnone => ?_⟩
      obtain ⟨fd, hfd⟩ := (size_pos_iff hset).mp hsize
      exact absurd hfd (hnone fd)
    · rw [if_neg hsize] at hreturned
      refine ⟨fun fd hfd => absurd ((size_pos_iff hset).mpr ⟨fd, hfd⟩) hsize, fun _ hend => ?_⟩
      rw [if_pos hend] at hreturned
      exact (selects_elapsed_iff hend _).mp hreturned

end Run

/-- `select` reports what it was asked for, and waits for it, exactly if every bound descriptor below `nfds` can be probed,
every descriptor that is found ready in the pass that decides was requested and has a ring, and the time that decides
otherwise is that of a timeout that was given. -/
theorem selectsFaithfully_iff (dev : UdpIpDevice) (l : SocketLayer) (h : UserHost) (args : SelectArgs) (clock : Clock) :
    SelectsFaithfully dev l h args clock ↔ SelectsWell dev l h args clock := by
  constructor
  · exact selectsWell_of_faithful
  · intro hwell passes
    cases hrequested : args.readfds with
    | none =>
      rw [SelectsWell, hrequested] at hwell
      rw [select, hrequested]
      exact ⟨fun hpos => absurd hpos (by decide), fun hzero => absurd hzero (by decide), fun hnone => absurd hnone hwell⟩
    | some requested =>
      rw [run_select hrequested]
      exact loopFrom_faithful hrequested hwell passes fun earlier hlt => absurd hlt (Nat.not_lt_zero earlier)

/-- A device with data in every ring. -/
def filledHost : UserHost :=
  ⟨.reset, fun _ => 0, 0, fun _ => { SocketRun.idleStatus with bufrx := fun _ => ⟨false, false, false, 0, 0⟩ }⟩

/-- A clock that stands. -/
def stoppedClock : Clock := ⟨⟨0, 0⟩, fun _ => ⟨0, 0⟩, by decide, fun _ => by decide⟩

/-- No descriptor is requested, and the bound descriptor 3 is reported. -/
theorem not_selectsFaithfully : ¬ ∀ (dev : UdpIpDevice) (l : SocketLayer) (h : UserHost) (args : SelectArgs) (clock : Clock),
    SelectsFaithfully dev l h args clock := by
  intro hall
  have hwell := selectsWell_of_faithful
    (hall SocketRun.localPorts boundSocket filledHost ⟨4, some .fdZero, some ⟨1, 0⟩, 0, ⟨0, 0⟩⟩ stoppedClock)
  have hready : Ready SocketRun.localPorts boundSocket filledHost 4 0 3 :=
    (ready_iff_hasData (by decide)).mpr ⟨by decide, by decide, by decide, rfl⟩
  have hrequested := ((hwell.2 0 fun earlier hlt => absurd hlt (Nat.not_lt_zero earlier)).1 3 hready).1
  exact Bool.noConfusion hrequested

end SocketLayer

end UdpIpCore
