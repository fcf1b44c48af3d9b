import UdpIpCore.Simulation
import UdpIpCore.Userspace.DescriptorRun
import UdpIpCore.Userspace.SocketRun

/-!
# The layer as a table

The calls of `socket.c` are modelled twice: over a `SocketLayer`, whose descriptors are those of
the table, and as accesses to a `DescriptorTable` with any integers. A layer is a table in which
exactly the assigned entries have a pointer. On it a call does the same in both models, access
by access of the device, so that every run of the layer is one of the table.
-/

namespace UdpIpCore

open Interaction Clocked

/-- An entry of an instance, in the table. -/
def EpollEntry.listed (entry : EpollEntry) : ListedFd := ⟨entry.sockfd.val, entry.data, entry.events⟩

/-- An entry of `socket_fds`, in the table. -/
def UdriverSocketId.slot (id : UdriverSocketId) : TableSlot :=
  ⟨id.epfd, id.status, if id.status = .notAssigned then none else some id.socket⟩

/-- The layer as a table. -/
def SocketLayer.table (l : SocketLayer) : DescriptorTable where
  slots fd := (l.socketFds fd).slot
  instances id := (l.epollInstances id).map (List.map EpollEntry.listed)
  fault := false

namespace DescriptorTable

open SocketLayer Udriver

/-- The device answers the accesses of a driver program. -/
def answer (answers : Answers) (c : Access) : c.Response × Answers := (answers 0 c, fun k => answers (k + 1))

/-- Whatever a program sees of its environment, the device may answer the same. -/
theorem exists_answers {S α : Type} (execute : S → (c : Access) → c.Response × S) (q : UserCode α) (s : S) :
    ∃ answers, (q.eval answer answers).1 = (q.eval execute s).1 := by
  induction q generalizing s with
  | done a => exact ⟨fun _ c => (execute s c).1, rfl⟩
  | perform c next ih =>
    obtain ⟨later, hlater⟩ := ih (execute s c).1 (execute s c).2
    refine ⟨fun k => Nat.casesOn k (fun c' => (execute s c').1) later, ?_⟩
    exact hlater

/-- The program on the table does what the program of the layer does, under the same answers. -/
def Follows {α : Type} (p : TableCode α) (l : SocketLayer) (q : UserCode (α × SocketLayer)) : Prop :=
  ∀ answers, p.eval execute (l.table, answers) =
    ((q.eval answer answers).1.1, (q.eval answer answers).1.2.table, (q.eval answer answers).2)

variable {α β : Type} {l : SocketLayer} {fd : Fd} {answers : Answers} {dev : UdpIpDevice}

section Rules

/-- The table that is left, where the result is not followed. -/
theorem Follows.table {p : TableCode α} {q : UserCode (α × SocketLayer)} (h : Follows p l q) (answers : Answers) :
    ((p >>= fun _ => (pure () : TableCode Unit)).eval execute (l.table, answers)).2.1 = (q.eval answer answers).1.2.table := by
  rw [Program.eval_bind, Program.eval_pure, h answers]

/-- The driver leaves the table alone. -/
@[simp] theorem eval_onDevice (q : UserCode α) (t : DescriptorTable) (answers : Answers) :
    (onDevice q).eval execute (t, answers) = ((q.eval answer answers).1, t, (q.eval answer answers).2) := by
  induction q generalizing answers with
  | done a => rfl
  | perform c next ih => exact ih _ _

end Rules

section Accesses

@[simp] theorem fdOf_val (fd : Fd) : fdOf fd.val = some fd := by
  rw [fdOf, dif_pos ⟨Int.natCast_nonneg _, Int.ofNat_lt.mpr fd.isLt⟩]
  simp

@[simp] theorem eval_status (l : SocketLayer) (fd : Fd) (answers : Answers) :
    (status fd.val).eval execute (l.table, answers) = ((l.socketFds fd).status, l.table, answers) := by
  simp [status, execute, atIndex, SocketLayer.table, UdriverSocketId.slot]

@[simp] theorem eval_epfd (l : SocketLayer) (fd : Fd) (answers : Answers) :
    (epfd fd.val).eval execute (l.table, answers) = ((l.socketFds fd).epfd, l.table, answers) := by
  simp [epfd, execute, atIndex, SocketLayer.table, UdriverSocketId.slot]

@[simp] theorem eval_ptr (l : SocketLayer) (fd : Fd) (answers : Answers) :
    (ptr fd.val).eval execute (l.table, answers) = ((l.socketFds fd).slot.socketPtr, l.table, answers) := by
  simp [ptr, execute, atIndex, SocketLayer.table]

/-- The pointer of an assigned entry can be followed. -/
theorem eval_load (hassigned : (l.socketFds fd).status ≠ .notAssigned) (answers : Answers) :
    (load fd.val).eval execute (l.table, answers) = ((l.socketFds fd).socket, l.table, answers) := by
  simp [load, execute, atIndex, SocketLayer.table, UdriverSocketId.slot, hassigned]

/-- A replaced entry of the layer is a replaced entry of the table. -/
theorem setSlot_table (l : SocketLayer) (fd : Fd) (id : UdriverSocketId) :
    l.table.setSlot fd id.slot = (l.setFd fd id).table := by
  simp only [setSlot, SocketLayer.table, setFd, DescriptorTable.mk.injEq, and_true]
  funext other
  by_cases heq : other = fd
  · simp [heq]
  · simp [heq]

@[simp] theorem eval_setEpfd (l : SocketLayer) (fd : Fd) (id : ℤ) (answers : Answers) :
    (setEpfd fd.val id).eval execute (l.table, answers) =
      ((), (l.setFd fd { l.socketFds fd with epfd := id }).table, answers) := by
  rw [← setSlot_table]
  simp [setEpfd, execute, atIndex, SocketLayer.table, UdriverSocketId.slot]

theorem eval_store (hassigned : (l.socketFds fd).status ≠ .notAssigned) (socket : UdriverSocket) (answers : Answers) :
    (store fd.val socket).eval execute (l.table, answers) = ((), (l.setSocket fd socket).table, answers) := by
  rw [SocketLayer.setSocket, ← setSlot_table]
  simp [store, execute, atIndex, SocketLayer.table, UdriverSocketId.slot, hassigned]

/-- An assigned entry stays assigned. -/
theorem eval_setStatus (hassigned : (l.socketFds fd).status ≠ .notAssigned) {new : UdriverSocketStatus}
    (hnew : new ≠ .notAssigned) (answers : Answers) : (setStatus fd.val new).eval execute (l.table, answers) =
      ((), (l.setFd fd { l.socketFds fd with status := new }).table, answers) := by
  rw [← setSlot_table]
  simp [setStatus, execute, atIndex, SocketLayer.table, UdriverSocketId.slot, hassigned, hnew]

end Accesses

section Calls

/-- The descriptor that `open` has returned, or a failure. -/
def openedInt (opened : Option Fd) : ℤ := opened.elim (-1) fun fd => fd.val

theorem eval_fdsGetFreeFd (l : SocketLayer) (opened : Option Fd) (answers : Answers) :
    (fdsGetFreeFd (openedInt opened)).eval execute (l.table, answers) =
      (openedInt (l.fdsGetFreeFd opened), l.table, answers) := by
  cases opened with
  | none => rfl
  | some fd =>
    have hnonneg : ¬ (fd.val : ℤ) < 0 := by omega
    simp only [openedInt, Option.elim_some]
    rw [DescriptorTable.fdsGetFreeFd, if_neg hnonneg, Program.eval_bind, eval_status, SocketLayer.fdsGetFreeFd]
    by_cases hfree : (l.socketFds fd).status = .notAssigned
    · simp [hfree, Option.filter]
    · simp [hfree, Option.filter]

theorem eval_fdCreate (l : SocketLayer) (opened : Option Fd) (allocated : Bool) (answers : Answers) :
    (fdCreate (openedInt opened) allocated).eval execute (l.table, answers) =
      (openedInt (l.fdCreate opened allocated).1, (l.fdCreate opened allocated).2.table, answers) := by
  rw [DescriptorTable.fdCreate, Program.eval_bind, eval_fdsGetFreeFd, SocketLayer.fdCreate]
  cases hfree : l.fdsGetFreeFd opened with
  | none => simp [openedInt]
  | some fd =>
    have hne : ¬ (fd.val : ℤ) = -1 := by omega
    cases allocated with
    | false => simp [openedInt, hne]
    | true =>
      simp only [openedInt, Option.elim_some, if_neg hne, Bool.true_eq_false, if_false, if_true, ← setSlot_table,
        Program.eval_bind, eval_setEpfd]
      simp [setStatus, setPtr, execute, atIndex, SocketLayer.table, UdriverSocketId.slot, setSlot]

theorem follows_socket (l : SocketLayer) (domain type : ℤ) (opened : Option Fd) (allocated : Bool) :
    Follows (DescriptorTable.socket domain type (openedInt opened) allocated) l
      (pure (l.socket domain type opened allocated)) := by
  intro answers
  rw [DescriptorTable.socket, SocketLayer.socket]
  by_cases hargs : domain ≠ afInet ∧ type ≠ sockDgram
  · rw [if_pos hargs, if_pos hargs]
    rfl
  · rw [if_neg hargs, if_neg hargs, Program.eval_bind, eval_fdCreate]
    rcases hcreated : l.fdCreate opened allocated with ⟨created, l'⟩
    cases created with
    | none => rfl
    | some fd =>
      have hnonneg : ¬ (fd.val : ℤ) < 0 := by omega
      simp [openedInt, hnonneg]

/-- The instances of the layer are those of the table. -/
theorem instanceOf_val {epfd : ℕ} (h : epfd < maxEpollFds) : instanceOf epfd = some ⟨epfd, h⟩ := by
  rw [instanceOf, dif_pos ⟨Int.natCast_nonneg _, Int.ofNat_lt.mpr h⟩]
  simp

theorem setInstance_table (l : SocketLayer) (id : Fin maxEpollFds) (entries : List EpollEntry) :
    { l.table with instances := Function.update l.table.instances id (some (entries.map EpollEntry.listed)) } =
      (l.setInstance id entries).table := by
  simp only [SocketLayer.table, setInstance, DescriptorTable.mk.injEq, and_true, true_and]
  funext other
  by_cases heq : other = id
  · simp [heq]
  · simp [heq]

theorem clearInstance_table (l : SocketLayer) (id : Fin maxEpollFds) :
    { l.table with instances := Function.update l.table.instances id none } = (l.clearInstance id).table := by
  simp only [SocketLayer.table, clearInstance, DescriptorTable.mk.injEq, and_true, true_and]
  funext other
  by_cases heq : other = id
  · simp [heq]
  · simp [heq]

theorem follows_epollCreate (l : SocketLayer) (opened : Option Fd) (allocated : Bool) :
    Follows (DescriptorTable.epollCreate (openedInt opened) allocated) l (pure (l.epollCreate opened allocated)) := by
  intro answers
  rw [DescriptorTable.epollCreate, Program.eval_bind, eval_fdsGetFreeFd, SocketLayer.epollCreate]
  cases hfree : l.fdsGetFreeFd opened with
  | none => rfl
  | some fd =>
    simp only [openedInt, Option.elim_some]
    by_cases hlt : fd.val < maxEpollFds
    · rw [instanceOf_val hlt, dif_pos hlt]
      cases allocated with
      | false => simp [setListed, execute, clearInstance_table]
      | true => simpa [setListed, execute] using setInstance_table l ⟨fd.val, hlt⟩ []
    · have hnone : instanceOf (fd.val : ℤ) = none := by
        rw [instanceOf, dif_neg fun hin => hlt (Int.ofNat_lt.mp hin.2)]
      rw [hnone, dif_neg hlt]
      rfl

/-- An entry is listed for the same descriptor. -/
theorem sockfd_listed (entry : EpollEntry) (fd : Fd) : entry.listed.sockfd = fd.val ↔ entry.sockfd = fd :=
  Int.ofNat_inj.trans Fin.ext_iff.symm

theorem any_listed (entries : List EpollEntry) (fd : Fd) :
    ((entries.map EpollEntry.listed).any fun entry => entry.sockfd = (fd.val : ℤ)) =
      entries.any fun entry => entry.sockfd = fd := by
  simp only [List.any_map, Function.comp_def, sockfd_listed]

theorem eraseP_listed (entries : List EpollEntry) (fd : Fd) :
    ((entries.map EpollEntry.listed).eraseP fun entry : ListedFd => entry.sockfd = (fd.val : ℤ)) =
      (entries.eraseP fun entry => entry.sockfd = fd).map EpollEntry.listed := by
  simp only [List.eraseP_map, Function.comp_def, sockfd_listed]

theorem follows_epollCtl (l : SocketLayer) (epfd op : ℤ) (fd : Fd) (data : BitVec 64) (events : BitVec 32) :
    Follows (DescriptorTable.epollCtl epfd op fd.val data events) l (pure (l.epollCtl epfd op fd data events)) := by
  intro answers
  rw [DescriptorTable.epollCtl, SocketLayer.epollCtl, epollInstance, instanceOf]
  by_cases hin : 0 ≤ epfd ∧ epfd < maxEpollFds
  · rw [dif_pos hin, dif_pos hin]
    dsimp only
    set id : Fin maxEpollFds := ⟨epfd.toNat, toNat_lt_maxEpollFds hin⟩
    have hlisted : (listed id).eval execute (l.table, answers) =
        ((l.epollInstances id).map (List.map EpollEntry.listed), l.table, answers) := rfl
    rw [Program.eval_bind, hlisted]
    cases hentries : l.epollInstances id with
    | none => rfl
    | some entries =>
      have hset (l' : SocketLayer) (entries' : List EpollEntry) :
          (setListed id (some (entries'.map EpollEntry.listed))).eval execute (l'.table, answers) =
            ((), (l'.setInstance id entries').table, answers) := by
        rw [← setInstance_table]
        rfl
      simp only [Option.map_some, any_listed, List.length_map, eraseP_listed]
      by_cases hadd : op = epollCtlAdd
      · rw [if_pos hadd, if_pos hadd]
        split
        · rfl
        split
        · rfl
        have happend : entries.map EpollEntry.listed ++ [⟨fd.val, data, events⟩] =
            (entries ++ [(⟨fd, data, events⟩ : EpollEntry)]).map EpollEntry.listed := by simp [EpollEntry.listed]
        rw [happend, Program.eval_bind, eval_setEpfd, Program.eval_bind, hset]
        rfl
      · rw [if_neg hadd, if_neg hadd]
        by_cases hdel : op = epollCtlDel
        · rw [if_pos hdel, if_pos hdel]
          split
          · rw [Program.eval_bind, eval_setEpfd, Program.eval_bind, hset]
            rfl
          · rfl
        · rw [if_neg hdel, if_neg hdel]
          rfl
  · rw [dif_neg hin, dif_neg hin]
    rfl

variable (dev)

/-- The port that `shutdown` closes. -/
def closePort (l : SocketLayer) (fd : Fd) (how : ℤ) : UserCode Unit :=
  if ¬ (how = shutWr ∨ how = shutRdwr) ∧ (how = shutRd ∨ how = shutRdwr) ∧ (l.socketFds fd).status = .bound then do
    let _ ← udriverSetSocketStatus dev ((l.socketFds fd).socket.srcPort.setWidth 32) udriverSocketClosed
    return ()
  else return ()

/-- What `shutdown` does to the peer of the socket. -/
def clearPeer (l : SocketLayer) (fd : Fd) (how : ℤ) : SocketLayer :=
  if how = shutWr ∨ how = shutRdwr then l.setSocket fd { (l.socketFds fd).socket with destIp := 0, destPort := 0 } else l

theorem eval_shutdownSocket {l : SocketLayer} {fd : Fd} (hassigned : (l.socketFds fd).status ≠ .notAssigned) (how : ℤ)
    (answers : Answers) : (shutdownSocket dev fd.val how).eval execute (l.table, answers) =
      ((), (clearPeer l fd how).table, ((closePort dev l fd how).eval answer answers).2) := by
  rw [shutdownSocket, closePort, clearPeer]
  by_cases hwr : how = shutWr ∨ how = shutRdwr
  · rw [if_pos hwr, if_pos hwr, if_neg fun h => h.1 hwr, Program.eval_bind, eval_load hassigned, eval_store hassigned]
    rfl
  · rw [if_neg hwr, if_neg hwr]
    by_cases hrd : how = shutRd ∨ how = shutRdwr
    · rw [if_pos hrd, Program.eval_bind, eval_status]
      by_cases hbound : (l.socketFds fd).status = .bound
      · rw [if_pos hbound, if_pos ⟨hwr, hrd, hbound⟩, Program.eval_bind, eval_load hassigned, Program.eval_bind, eval_onDevice,
          Program.eval_bind]
        rfl
      · rw [if_neg hbound, if_neg fun h => hbound h.2.2]
        rfl
    · rw [if_neg hrd, if_neg fun h => hrd h.2.1]
      rfl

/-- `shutdown` past its checks, first on the device. -/
theorem shutdown_eq {l : SocketLayer} {fd : Fd} {how : ℤ} (hassigned : (l.socketFds fd).status ≠ .notAssigned)
    (hvalid : ¬ (how ≠ shutWr ∧ how ≠ shutRd ∧ how ≠ shutRdwr)) :
    l.shutdown dev fd how = closePort dev l fd how >>= fun _ => pure (.value 0, l.shutdownLayer fd how) := by
  rw [SocketLayer.shutdown, closePort]
  dsimp only
  rw [if_neg hassigned, if_neg hvalid]
  split
  · rw [Program.bind_assoc]
    rfl
  · rfl

theorem follows_shutdown (l : SocketLayer) (fd : Fd) (how : ℤ) :
    Follows (DescriptorTable.shutdown dev fd.val how) l (l.shutdown dev fd how) := by
  intro answers
  rw [DescriptorTable.shutdown, Program.eval_bind, eval_status]
  by_cases hassigned : (l.socketFds fd).status = .notAssigned
  · simp [SocketLayer.shutdown, hassigned]
  rw [if_neg hassigned, Program.eval_bind, eval_ptr]
  by_cases hvalid : how ≠ shutWr ∧ how ≠ shutRd ∧ how ≠ shutRdwr
  · simp [SocketLayer.shutdown, hassigned, hvalid]
  have hepfd : ((clearPeer l fd how).socketFds fd).epfd = (l.socketFds fd).epfd := by
    rw [clearPeer]
    split
    · simp [setSocket, setFd]
    · rfl
  rw [if_neg hvalid, Program.eval_bind, eval_shutdownSocket dev hassigned, Program.eval_bind, eval_epfd, hepfd,
    shutdown_eq dev hassigned hvalid, Program.eval_bind, Program.eval_pure, SocketLayer.shutdownLayer, ← clearPeer]
  by_cases hid : (l.socketFds fd).epfd ≠ -1
  · rw [if_pos hid, if_pos hid, Program.eval_bind, follows_epollCtl]
    rfl
  · rw [if_neg hid, if_neg hid]
    rfl

/-- The entry is given back. -/
theorem eval_release (l : SocketLayer) (fd : Fd) (answers : Answers) :
    (setPtr fd.val none).eval execute ((setStatus fd.val .notAssigned).eval execute (l.table, answers)).2 =
      ((), (l.setFd fd { l.socketFds fd with status := .notAssigned }).table, answers) := by
  rw [← setSlot_table]
  simp [setStatus, setPtr, execute, atIndex, SocketLayer.table, UdriverSocketId.slot, setSlot]

theorem follows_close (l : SocketLayer) (fd : Fd) (libc : LibcClose) :
    Follows (DescriptorTable.close dev fd.val libc) l (l.close dev fd libc) := by
  intro answers
  rw [DescriptorTable.close, SocketLayer.close]
  by_cases hresolved : libc.resolved = true
  · rw [if_neg (not_not.mpr hresolved), if_neg (not_not.mpr hresolved), Program.eval_bind, eval_status]
    by_cases hassigned : (l.socketFds fd).status = .notAssigned
    · rw [if_pos hassigned, if_pos hassigned]
      rfl
    · rw [if_neg hassigned, if_neg hassigned, Program.eval_bind, follows_shutdown, Program.eval_bind, eval_ptr]
      simp only [Program.eval_bind, eval_release, Program.eval_pure]
  · rw [if_pos hresolved, if_pos hresolved]
    rfl

theorem eval_autoPort (fd : Fd) (addr : SockaddrIn) : autoPort fd.val addr = bindPort fd addr := by
  rw [autoPort, bindPort, BitVec.ofInt_natCast]

theorem follows_bind (l : SocketLayer) (fd : Fd) (addr : SockaddrIn) (addrlen : BitVec 32) :
    Follows (DescriptorTable.bind dev fd.val addr addrlen) l (l.bind dev fd addr addrlen) := by
  intro answers
  rw [DescriptorTable.bind, SocketLayer.bind, Program.eval_bind, eval_status]
  dsimp only
  by_cases hassigned : (l.socketFds fd).status = .notAssigned
  · rw [if_pos hassigned, if_pos hassigned]
    rfl
  rw [if_neg hassigned, if_neg hassigned, Program.eval_bind, eval_status]
  by_cases hbound : (l.socketFds fd).status = .bound
  · rw [if_pos hbound, if_pos hbound]
    rfl
  rw [if_neg hbound, if_neg hbound]
  split
  · rfl
  have hstatus : ((l.setFd fd { l.socketFds fd with status := .bound }).socketFds fd).status ≠ .notAssigned := by simp [setFd]
  rw [eval_autoPort, Program.eval_bind, eval_onDevice, Program.eval_bind, eval_onDevice, Program.eval_bind,
    eval_setStatus hassigned (show UdriverSocketStatus.bound ≠ .notAssigned by decide), Program.eval_bind, eval_load hstatus,
    Program.eval_bind, eval_store hstatus, Program.eval_bind, eval_onDevice]
  simp only [Program.eval_bind, Program.eval_pure, Prod.mk.injEq, true_and, and_true]
  congr 1
  simp only [setSocket, setFd, SocketLayer.mk.injEq, and_true]
  funext other
  by_cases heq : other = fd
  · simp [heq]
  · simp [heq]

/-- `bind` leaves an assigned entry assigned. -/
theorem assigned_bind {l : SocketLayer} {fd : Fd} (hassigned : (l.socketFds fd).status ≠ .notAssigned) (addr : SockaddrIn)
    (addrlen : BitVec 32) (answers : Answers) :
    (((l.bind dev fd addr addrlen).eval answer answers).1.2.socketFds fd).status ≠ .notAssigned := by
  rw [SocketLayer.bind]
  dsimp only
  rw [if_neg hassigned]
  split
  · exact hassigned
  split
  · exact hassigned
  · simp [setFd]

theorem follows_connect (l : SocketLayer) (fd : Fd) (addr : SockaddrIn) (addrlen : BitVec 32) :
    Follows (DescriptorTable.connect fd.val addr addrlen) l (pure (l.connect fd addr addrlen)) := by
  intro answers
  rw [DescriptorTable.connect, SocketLayer.connect]
  dsimp only
  split
  · rfl
  rw [Program.eval_bind, eval_status]
  by_cases hassigned : (l.socketFds fd).status = .notAssigned
  · rw [if_pos hassigned, if_pos hassigned]
    rfl
  · rw [if_neg hassigned, if_neg hassigned, Program.eval_bind, eval_load hassigned, Program.eval_bind, eval_store hassigned]
    rfl

theorem follows_setsockopt (l : SocketLayer) (fd : Fd) (level optname : ℤ) :
    Follows (DescriptorTable.setsockopt fd.val level optname) l (pure (l.setsockopt fd level optname)) := by
  intro answers
  rw [DescriptorTable.setsockopt, SocketLayer.setsockopt, Program.eval_bind, eval_status]
  dsimp only
  by_cases hassigned : (l.socketFds fd).status = .notAssigned
  · rw [if_pos hassigned, if_pos hassigned]
    rfl
  rw [if_neg hassigned, if_neg hassigned]
  split
  · rw [Program.eval_bind, eval_load hassigned, Program.eval_bind, eval_store hassigned]
    rfl
  · rfl

theorem follows_sendtoBound {l : SocketLayer} {fd : Fd} (hassigned : (l.socketFds fd).status ≠ .notAssigned)
    (buf : List (BitVec 8)) (destAddr : SockaddrIn) (addrlen : BitVec 32) (attempts : ℕ) :
    Follows (DescriptorTable.sendtoBound fd.val buf destAddr addrlen attempts) l
      (l.sendtoBound fd buf destAddr addrlen attempts) := by
  intro answers
  rw [DescriptorTable.sendtoBound, SocketLayer.sendtoBound]
  split
  · rfl
  · rw [Program.eval_bind, eval_load hassigned, Program.eval_bind, eval_onDevice, Program.eval_bind]
    rfl

theorem follows_sendto (l : SocketLayer) (fd : Fd) (buf : List (BitVec 8)) (destAddr : SockaddrIn) (addrlen : BitVec 32)
    (attempts : ℕ) : Follows (DescriptorTable.sendto dev fd.val buf destAddr addrlen attempts) l
      (l.sendto dev fd buf destAddr addrlen attempts) := by
  intro answers
  rw [DescriptorTable.sendto, SocketLayer.sendto, Program.eval_bind, eval_status]
  dsimp only
  by_cases hassigned : (l.socketFds fd).status = .notAssigned
  · rw [if_pos hassigned, if_pos hassigned]
    rfl
  rw [if_neg hassigned, if_neg hassigned, Program.eval_bind, eval_status]
  by_cases hbound : (l.socketFds fd).status ≠ .bound
  · rw [if_pos hbound, if_pos hbound, Program.eval_bind, follows_bind, Program.eval_bind]
    split
    · rfl
    · exact follows_sendtoBound (assigned_bind dev hassigned _ _ _) buf destAddr addrlen attempts _
  · rw [if_neg hbound, if_neg hbound]
    exact follows_sendtoBound hassigned buf destAddr addrlen attempts answers

theorem follows_send (l : SocketLayer) (fd : Fd) (buf : List (BitVec 8)) (attempts : ℕ) :
    Follows (DescriptorTable.send dev fd.val buf attempts) l (l.send dev fd buf attempts) := by
  intro answers
  rw [DescriptorTable.send, SocketLayer.send, Program.eval_bind, eval_status]
  dsimp only
  by_cases hassigned : (l.socketFds fd).status = .notAssigned
  · rw [if_pos hassigned, if_pos hassigned]
    rfl
  rw [if_neg hassigned, if_neg hassigned, Program.eval_bind, eval_load hassigned]
  split
  · rfl
  · exact follows_sendto dev l fd buf _ _ attempts answers

theorem follows_sendmsg (l : SocketLayer) (fd : Fd) (msg : Msghdr) (tempBuffer : ℕ → BitVec 8) (passes attempts : ℕ) :
    Follows (DescriptorTable.sendmsg dev fd.val msg tempBuffer passes attempts) l
      (l.sendmsg dev fd msg tempBuffer passes attempts) := by
  intro answers
  rw [DescriptorTable.sendmsg, SocketLayer.sendmsg]
  split
  · rfl
  rw [Program.eval_bind, eval_status]
  by_cases hassigned : (l.socketFds fd).status = .notAssigned
  · rw [if_pos hassigned, if_pos hassigned]
    rfl
  rw [if_neg hassigned, if_neg hassigned]
  rcases gather msg.msgIov tempBuffer passes with ⟨status, g⟩
  cases status with
  | going => rfl
  | refused => rfl
  | complete => exact follows_sendto dev l fd _ _ _ attempts answers

/-- `recvfrom` leaves the table as it is. -/
theorem follows_recvfrom (l : SocketLayer) (fd : Fd) (args : RecvArgs) (attempts : ℕ) :
    Follows (DescriptorTable.recvfrom dev fd.val args attempts) l
      (l.recvfrom dev fd args attempts >>= fun r => pure (r, l)) := by
  intro answers
  rw [DescriptorTable.recvfrom, SocketLayer.recvfrom, Program.eval_bind, eval_status, Program.eval_bind]
  dsimp only
  by_cases hbound : (l.socketFds fd).status ≠ .bound
  · rw [if_pos hbound, if_pos hbound]
    rfl
  have hassigned : (l.socketFds fd).status ≠ .notAssigned := by
    rw [not_not.mp hbound]
    decide
  rw [if_neg hbound, if_neg hbound, Program.eval_bind, eval_load hassigned]
  split
  · rfl
  rw [Program.eval_bind, eval_onDevice, Program.eval_bind]
  rcases (recvLoop (bufferId dev ((l.socketFds fd).socket.srcPort.setWidth 32)).toNat attempts).eval answer answers with
    ⟨received, later⟩
  cases received <;> rfl

theorem follows_recvmsg (l : SocketLayer) (fd : Fd) (msg : RecvMsghdr) (locals : RecvLocals) (attempts : ℕ) :
    Follows (DescriptorTable.recvmsg dev fd.val msg locals attempts) l
      (l.recvmsg dev fd msg locals attempts >>= fun r => pure (r, l)) := by
  intro answers
  rw [DescriptorTable.recvmsg, SocketLayer.recvmsg, Program.eval_bind, follows_recvfrom]
  simp only [Program.eval_bind, Program.eval_pure]

end Calls

end DescriptorTable

section Runs

open DescriptorTable SocketLayer

/-- A call on the layer, as a call on the table. -/
def ApiCall.onTable : ApiCall → TableCall
  | .socket domain type opened allocated => .socket domain type (openedInt opened) allocated
  | .shutdown sockfd how => .shutdown sockfd.val how
  | .close fd libc => .close fd.val libc
  | .bind sockfd addr addrlen => .bind sockfd.val addr addrlen
  | .connect sockfd addr addrlen => .connect sockfd.val addr addrlen
  | .setsockopt sockfd level optname => .setsockopt sockfd.val level optname
  | .sendto sockfd buf destAddr addrlen attempts => .sendto sockfd.val buf destAddr addrlen attempts
  | .send sockfd buf attempts => .send sockfd.val buf attempts
  | .epollCreate opened allocated => .epollCreate (openedInt opened) allocated
  | .epollCtl epfd op fd data events => .epollCtl epfd op fd.val data events

variable (dev : UdpIpDevice)

/-- A call leaves the table of the layer that it leaves. -/
theorem ApiCall.eval_onTable (call : ApiCall) (l : SocketLayer) (answers : Answers) :
    ((call.onTable.code dev).eval execute (l.table, answers)).2.1 = ((call.code dev l).eval answer answers).1.2.table := by
  have hreturned (q : UserCode (Outcome × SocketLayer)) :
      ((do return returned (← q)).eval answer answers).1.2 = (q.eval answer answers).1.2 := by
    rw [Program.eval_bind]
    rfl
  cases call with
  | socket domain type opened allocated =>
    rw [ApiCall.onTable, TableCall.code, (follows_socket l domain type opened allocated).table]
    rfl
  | shutdown sockfd how => rw [ApiCall.onTable, TableCall.code, (follows_shutdown dev l sockfd how).table, ApiCall.code, hreturned]
  | close fd libc => rw [ApiCall.onTable, TableCall.code, (follows_close dev l fd libc).table, ApiCall.code, hreturned]
  | bind sockfd addr addrlen =>
    rw [ApiCall.onTable, TableCall.code, (follows_bind dev l sockfd addr addrlen).table, ApiCall.code, hreturned]
  | connect sockfd addr addrlen =>
    rw [ApiCall.onTable, TableCall.code, (follows_connect l sockfd addr addrlen).table]
    rfl
  | setsockopt sockfd level optname =>
    rw [ApiCall.onTable, TableCall.code, (follows_setsockopt l sockfd level optname).table]
    rfl
  | sendto sockfd buf destAddr addrlen attempts =>
    rw [ApiCall.onTable, TableCall.code, (follows_sendto dev l sockfd buf destAddr addrlen attempts).table, ApiCall.code]
  | send sockfd buf attempts =>
    rw [ApiCall.onTable, TableCall.code, (follows_send dev l sockfd buf attempts).table, ApiCall.code]
  | epollCreate opened allocated =>
    rw [ApiCall.onTable, TableCall.code, (follows_epollCreate l opened allocated).table]
    rfl
  | epollCtl epfd op fd data events =>
    rw [ApiCall.onTable, TableCall.code, (follows_epollCtl l epfd op fd data events).table]
    rfl

/-- A call that can fail, as a call on the table. -/
def FallibleCall.onTable : FallibleCall → TableCall
  | .bind sockfd addr addrlen => .bind sockfd.val addr addrlen
  | .connect sockfd addr addrlen => .connect sockfd.val addr addrlen
  | .sendto sockfd buf destAddr addrlen attempts => .sendto sockfd.val buf destAddr addrlen attempts
  | .send sockfd buf attempts => .send sockfd.val buf attempts
  | .sendmsg sockfd msg tempBuffer passes attempts => .sendmsg sockfd.val msg tempBuffer passes attempts
  | .recvfrom sockfd args attempts => .recvfrom sockfd.val args attempts
  | .recvmsg sockfd msg locals attempts => .recvmsg sockfd.val msg locals attempts
  | .epollCtl epfd op fd data events => .epollCtl epfd op fd.val data events
  | .close fd libc => .close fd.val libc

theorem FallibleCall.eval_onTable (call : FallibleCall) (l : SocketLayer) (answers : Answers) :
    ((call.onTable.code dev).eval execute (l.table, answers)).2.1 = ((call.code dev l).eval answer answers).1.layer.table := by
  cases call with
  | bind sockfd addr addrlen =>
    rw [FallibleCall.onTable, TableCall.code, (follows_bind dev l sockfd addr addrlen).table, FallibleCall.code,
      Program.eval_bind, Program.eval_pure]
  | connect sockfd addr addrlen =>
    rw [FallibleCall.onTable, TableCall.code, (follows_connect l sockfd addr addrlen).table]
    rfl
  | sendto sockfd buf destAddr addrlen attempts =>
    rw [FallibleCall.onTable, TableCall.code, (follows_sendto dev l sockfd buf destAddr addrlen attempts).table,
      FallibleCall.code, Program.eval_bind, Program.eval_pure]
  | send sockfd buf attempts =>
    rw [FallibleCall.onTable, TableCall.code, (follows_send dev l sockfd buf attempts).table, FallibleCall.code,
      Program.eval_bind, Program.eval_pure]
  | sendmsg sockfd msg tempBuffer passes attempts =>
    rw [FallibleCall.onTable, TableCall.code, (follows_sendmsg dev l sockfd msg tempBuffer passes attempts).table,
      FallibleCall.code, Program.eval_bind, Program.eval_pure]
  | recvfrom sockfd args attempts =>
    rw [FallibleCall.onTable, TableCall.code, (follows_recvfrom dev l sockfd args attempts).table, FallibleCall.code,
      Program.eval_bind, Program.eval_bind, Program.eval_pure, Program.eval_pure]
  | recvmsg sockfd msg locals attempts =>
    rw [FallibleCall.onTable, TableCall.code, (follows_recvmsg dev l sockfd msg locals attempts).table, FallibleCall.code,
      Program.eval_bind, Program.eval_bind, Program.eval_pure, Program.eval_pure]
  | epollCtl epfd op fd data events =>
    rw [FallibleCall.onTable, TableCall.code, (follows_epollCtl l epfd op fd data events).table]
    rfl
  | close fd libc =>
    rw [FallibleCall.onTable, TableCall.code, (follows_close dev l fd libc).table, FallibleCall.code, Program.eval_bind,
      Program.eval_pure]

/-- Every call of the layer is one on its table, with some answers of the device. -/
theorem simulates_table : (SocketRun.machine dev).Simulates (tableMachine dev) fun s t => t = s.layer.table := by
  rintro s t e rfl -
  obtain ⟨answers, hanswers⟩ := exists_answers UserHost.execute (e.call.code dev s.layer) (s.hostAt e)
  refine ⟨⟨e.call.onTable, answers⟩, trivial, ?_⟩
  exact (ApiCall.eval_onTable dev e.call s.layer answers).trans (congrArg (fun r => r.2.table) hanswers)

/-- Before any call no entry is assigned. -/
theorem table_fdsInit : fdsInit.table = DescriptorTable.init := rfl

/-- Every run of the layer is a run of the table, which it never leaves. -/
theorem reachable_table {regs : ConfigRegs} {memory : ℕ → BitVec 8} {shows : ℕ → StatusInputs} {s : SocketRun}
    (h : (SocketRun.machine dev).Reachable (SocketRun.start regs memory shows) s) :
    (tableMachine dev).Reachable DescriptorTable.init s.layer.table := by
  obtain ⟨t, hreach, rfl⟩ := (simulates_table dev).reachable table_fdsInit.symm h
  exact hreach

end Runs

end UdpIpCore
