import UdpIpCore.Userspace.Recvfrom
import UdpIpCore.Userspace.Sendmsg

/-!
# Calls that fail

Most calls check their arguments before they change anything. `sendto` binds a descriptor
before it looks at the address, `close` tears a descriptor down before it asks the library,
and `recvmsg` writes its results before it looks at what it has received, which it keeps
without a sign.
-/

namespace UdpIpCore

open Interaction

/-- `struct msghdr` with the first of its buffers, as `recvmsg` reads and writes it. -/
structure RecvMsghdr where
  msgName : Option SockaddrIn
  msgNamelen : BitVec 32
  iovBase : Option (ℕ → BitVec 8)
  iovLen : BitVec 64
  msgIovlen : BitVec 64

/-- The locals `recvmsg` and `recvfrom` do not initialize. -/
structure RecvLocals where
  addr : SockaddrIn
  addrlen : BitVec 32
  pointer : BitVec 64

/-- How a call has ended, if it has. -/
inductive CallEnd
  | going
  /-- A null pointer was dereferenced, with `errno` as it was set before. -/
  | crashed (errno : Option Errno)
  | returned (outcome : Outcome)
deriving DecidableEq

/-- What lies at the pointers the caller has passed and may be written. -/
structure CallerData where
  buf : Option (ℕ → BitVec 8)
  srcAddr : Option SockaddrIn
  addrlen : Option (BitVec 32)
  msg : Option RecvMsghdr

namespace CallerData

/-- The caller has passed no such pointer. -/
def nothing : CallerData := ⟨none, none, none, none⟩

end CallerData

/-- What a call has come to. -/
structure CallReturn where
  callEnd : CallEnd
  layer : SocketLayer
  data : CallerData

/-- The calls that can fail. -/
inductive FallibleCall
  | bind (sockfd : Fd) (addr : SockaddrIn) (addrlen : BitVec 32)
  | connect (sockfd : Fd) (addr : SockaddrIn) (addrlen : BitVec 32)
  | sendto (sockfd : Fd) (buf : List (BitVec 8)) (destAddr : SockaddrIn) (addrlen : BitVec 32) (attempts : ℕ)
  | send (sockfd : Fd) (buf : List (BitVec 8)) (attempts : ℕ)
  | sendmsg (sockfd : Fd) (msg : Msghdr) (tempBuffer : ℕ → BitVec 8) (passes attempts : ℕ)
  | recvfrom (sockfd : Fd) (args : RecvArgs) (attempts : ℕ)
  | recvmsg (sockfd : Fd) (msg : RecvMsghdr) (locals : RecvLocals) (attempts : ℕ)
  | epollCtl (epfd op : ℤ) (fd : Fd) (data : BitVec 64) (events : BitVec 32)
  | close (fd : Fd) (libc : SocketLayer.LibcClose)

namespace SocketLayer

variable (dev : UdpIpDevice) (l : SocketLayer)

/-- What `recvmsg` makes of what `recvfrom` has returned; `received` is an `unsigned int`. -/
def finishRecvmsg (msg : RecvMsghdr) (locals : RecvLocals) : Recvd → CallEnd × RecvMsghdr
  | .going => (.going, msg)
  | .crashed => (.crashed none, msg)
  | .returned r =>
    let received := BitVec.ofInt 32 r.outcome.ret
    let written : RecvMsghdr := {
      msgName := msg.msgName.map fun _ => r.srcAddr.getD locals.addr
      msgNamelen := r.addrlen.getD locals.addrlen
      iovBase := r.buf
      iovLen := received.setWidth 64
      msgIovlen := 1 }
    if msg.msgName = none then (.crashed r.outcome.errno, written)
    else (.returned ⟨received.toNat, r.outcome.errno⟩, written)

/-- `recvmsg`, followed for a number of attempts. -/
def recvmsg (sockfd : Fd) (msg : RecvMsghdr) (locals : RecvLocals) (attempts : ℕ) : UserCode (CallEnd × RecvMsghdr) := do
  let received ← l.recvfrom dev sockfd
    ⟨msg.iovBase, msg.iovLen, some locals.addr, some locals.addrlen, locals.pointer⟩ attempts
  return finishRecvmsg msg locals received

/-- The end of a call that may go on. -/
def endOf : Option Outcome → CallEnd
  | none => .going
  | some outcome => .returned outcome

/-- The end of `recvfrom`, and what it leaves at its pointers. -/
def finishRecvfrom (args : RecvArgs) : Recvd → CallEnd × CallerData
  | .going => (.going, ⟨args.buf, args.srcAddr, args.addrlen, none⟩)
  | .crashed => (.crashed none, ⟨args.buf, args.srcAddr, args.addrlen, none⟩)
  | .returned r => (.returned r.outcome, ⟨r.buf, r.srcAddr, r.addrlen, none⟩)

end SocketLayer

namespace FallibleCall

open SocketLayer

/-- What lies at the pointers before the call. -/
def data : FallibleCall → CallerData
  | .recvfrom _ args _ => ⟨args.buf, args.srcAddr, args.addrlen, none⟩
  | .recvmsg _ msg _ _ => { CallerData.nothing with msg := some msg }
  | _ => .nothing

/-- The call. -/
def code (dev : UdpIpDevice) (l : SocketLayer) : FallibleCall → UserCode CallReturn
  | .bind sockfd addr addrlen => do
    let r ← l.bind dev sockfd addr addrlen
    return ⟨.returned r.1, r.2, .nothing⟩
  | .connect sockfd addr addrlen =>
    return ⟨.returned (l.connect sockfd addr addrlen).1, (l.connect sockfd addr addrlen).2, .nothing⟩
  | .sendto sockfd buf destAddr addrlen attempts => do
    let r ← l.sendto dev sockfd buf destAddr addrlen attempts
    return ⟨endOf r.1, r.2, .nothing⟩
  | .send sockfd buf attempts => do
    let r ← l.send dev sockfd buf attempts
    return ⟨endOf r.1, r.2, .nothing⟩
  | .sendmsg sockfd msg tempBuffer passes attempts => do
    let r ← l.sendmsg dev sockfd msg tempBuffer passes attempts
    return ⟨endOf r.1, r.2, .nothing⟩
  | .recvfrom sockfd args attempts => do
    let r ← l.recvfrom dev sockfd args attempts
    return ⟨(finishRecvfrom args r).1, l, (finishRecvfrom args r).2⟩
  | .recvmsg sockfd msg locals attempts => do
    let r ← l.recvmsg dev sockfd msg locals attempts
    return ⟨r.1, l, { CallerData.nothing with msg := some r.2 }⟩
  | .epollCtl epfd op fd data events =>
    return ⟨.returned (l.epollCtl epfd op fd data events).1, (l.epollCtl epfd op fd data events).2, .nothing⟩
  | .close fd libc => do
    let r ← l.close dev fd libc
    return ⟨.returned r.1, r.2, .nothing⟩

end FallibleCall

namespace CallEnd

/-- The call has failed: it has set `errno`, or returned a negative value. -/
def Failed : CallEnd → Prop
  | .going => False
  | .crashed errno => errno ≠ none
  | .returned outcome => outcome.errno ≠ none ∨ outcome.ret < 0

/-- The call has returned a negative value. -/
def Negative : CallEnd → Prop
  | .returned outcome => outcome.ret < 0
  | _ => False

end CallEnd

namespace SocketLayer

/-- Nothing has changed but what the registers show. -/
structure Untouched (l : SocketLayer) (h : UserHost) (data : CallerData) (r : CallReturn × UserHost) : Prop where
  layer : r.1.layer = l
  regs : r.2.regs = h.regs
  memory : r.2.memory = h.memory
  pushes : r.2.pushes = h.pushes
  data : r.1.data = data

/-- If the call fails, it returns a negative value and nothing has changed. -/
def FailsAtomically (dev : UdpIpDevice) (l : SocketLayer) (h : UserHost) (call : FallibleCall) : Prop :=
  (h.run (call.code dev l)).1.callEnd.Failed →
    (h.run (call.code dev l)).1.callEnd.Negative ∧ Untouched l h call.data (h.run (call.code dev l))

/-- The call fails once it has changed something: `sendto` on a descriptor that is not bound with an address of another
size, `close` of an assigned descriptor that the library refuses to close, or `recvmsg` on a descriptor that is not bound. -/
def FailsLate (l : SocketLayer) : FallibleCall → Prop
  | .sendto sockfd _ _ addrlen _ => (l.socketFds sockfd).status = .initialized ∧ addrlen ≠ sizeofSockaddrIn
  | .close fd libc => libc.resolved = true ∧ (l.socketFds fd).status ≠ .notAssigned ∧ libc.ret < 0
  | .recvmsg sockfd _ _ _ => (l.socketFds sockfd).status ≠ .bound
  | _ => False

section Calls

variable {dev : UdpIpDevice} {l : SocketLayer} {h : UserHost} {fd : Fd}

/-- A value that is not negative is no failure. -/
theorem not_failed_value {ret : ℤ} (hret : 0 ≤ ret) : ¬ (CallEnd.returned (.value ret)).Failed := by
  rintro (herrno | hneg)
  · exact herrno rfl
  · exact absurd hret (Int.not_le.mpr hneg)

/-- The loop of `sendto` returns a positive number. -/
theorem run_sendLoop_pos (h : UserHost) (p : UdpPacket) (attempts : ℕ) :
    ∀ ret, (h.run (sendLoop p attempts)).1 = some ret → 0 < ret := by
  induction attempts generalizing h with
  | zero =>
    intro ret hret
    exact absurd hret nofun
  | succ attempts ih =>
    intro ret hret
    rw [sendLoop, UserHost.run_bind] at hret
    split at hret
    · exact ih _ ret hret
    · next hpos =>
      obtain rfl := Option.some.inj hret
      exact Int.not_le.mp hpos

/-- Sending to an address of the right size does not fail. -/
theorem not_failed_sendtoBound (h : UserHost) (l : SocketLayer) (buf : List (BitVec 8)) (addr : SockaddrIn) (attempts : ℕ) :
    ¬ (endOf (h.run (l.sendtoBound fd buf addr sizeofSockaddrIn attempts)).1.1).Failed := by
  rw [sendtoBound, if_neg (not_not.mpr rfl), UserHost.run_bind, UserHost.run_pure]
  cases hret : (h.run (sendLoop (txUdpPacket (l.socketFds fd).socket buf addr) attempts)).1 with
  | none => exact id
  | some ret => exact not_failed_value (Int.le_of_lt (run_sendLoop_pos h _ attempts ret hret))

/-- Nor does it on an assigned descriptor that is bound first. -/
theorem not_failed_sendto (hfd : (l.socketFds fd).status ≠ .notAssigned) (buf : List (BitVec 8)) (addr : SockaddrIn)
    (attempts : ℕ) : ¬ (endOf (h.run (l.sendto dev fd buf addr sizeofSockaddrIn attempts)).1.1).Failed := by
  obtain ⟨l', h', hprepared⟩ := exists_prepared dev l h hfd
  rw [(hprepared.sendto buf addr sizeofSockaddrIn attempts).1]
  exact not_failed_sendtoBound h' l' buf addr attempts

/-- A call that fails before it does anything. -/
theorem failsAtomically_of_run {call : FallibleCall} {e : Errno}
    (hrun : h.run (call.code dev l) = (⟨.returned (.fail e), l, call.data⟩, h)) : FailsAtomically dev l h call := by
  intro _
  rw [hrun]
  exact ⟨(by decide : (-1 : ℤ) < 0), rfl, rfl, rfl, rfl, rfl⟩

/-- A call that does not fail. -/
theorem failsAtomically_of_not_failed {call : FallibleCall} (hnot : ¬ (h.run (call.code dev l)).1.callEnd.Failed) :
    FailsAtomically dev l h call := fun hfailed => absurd hfailed hnot

/-- `bind` checks everything first. -/
theorem failsAtomically_bind (addr : SockaddrIn) (addrlen : BitVec 32) :
    FailsAtomically dev l h (.bind fd addr addrlen) := by
  by_cases hbinds : l.Binds fd addr addrlen
  · refine failsAtomically_of_not_failed ?_
    rw [FallibleCall.code, UserHost.run_bind, run_bind_eq dev h hbinds]
    exact not_failed_value (Int.le_refl 0)
  · obtain ⟨e, hrun⟩ := run_bind_of_not_binds dev h hbinds
    refine failsAtomically_of_run (e := e) ?_
    rw [FallibleCall.code, UserHost.run_bind, hrun]
    rfl

/-- `connect` checks everything first. -/
theorem failsAtomically_connect (addr : SockaddrIn) (addrlen : BitVec 32) :
    FailsAtomically dev l h (.connect fd addr addrlen) := by
  by_cases haddr : (addr.sinFamily.toNat : ℤ) ≠ afInet ∨ addrlen ≠ sizeofSockaddrIn
  · refine failsAtomically_of_run (e := .EAFNOSUPPORT) ?_
    rw [FallibleCall.code, connect, if_pos haddr]
    rfl
  · by_cases hfd : (l.socketFds fd).status = .notAssigned
    · refine failsAtomically_of_run (e := .EBADF) ?_
      rw [FallibleCall.code, connect, if_neg haddr, if_pos hfd]
      rfl
    · refine failsAtomically_of_not_failed ?_
      rw [FallibleCall.code, connect, if_neg haddr, if_neg hfd]
      exact not_failed_value (Int.le_refl 0)

/-- `sendto` binds an assigned descriptor before it looks at the size of the address. -/
theorem failsAtomically_sendto_iff (buf : List (BitVec 8)) (addr : SockaddrIn) (addrlen : BitVec 32) (attempts : ℕ) :
    FailsAtomically dev l h (.sendto fd buf addr addrlen attempts) ↔
      ¬ ((l.socketFds fd).status = .initialized ∧ addrlen ≠ sizeofSockaddrIn) := by
  by_cases hfd : (l.socketFds fd).status = .notAssigned
  · refine iff_of_true (failsAtomically_of_run (e := .EBADF) ?_) (by simp [hfd])
    rw [FallibleCall.code, sendto, if_pos hfd]
    rfl
  · by_cases haddrlen : addrlen = sizeofSockaddrIn
    · subst haddrlen
      refine iff_of_true (failsAtomically_of_not_failed ?_) (by simp)
      rw [FallibleCall.code, UserHost.run_bind]
      exact not_failed_sendto hfd buf addr attempts
    · cases hstatus : (l.socketFds fd).status with
      | notAssigned => exact absurd hstatus hfd
      | bound =>
        refine iff_of_true (failsAtomically_of_run (e := .EAFNOSUPPORT) ?_) (by simp)
        rw [FallibleCall.code, sendto, if_neg hfd, if_neg (not_not.mpr hstatus), sendtoBound, if_pos haddrlen]
        rfl
      | initialized =>
        refine iff_of_false (fun hatomic => ?_) (not_not.mpr ⟨rfl, haddrlen⟩)
        have hrun : (h.run (FallibleCall.code dev l (.sendto fd buf addr addrlen attempts))).1 =
            ⟨.returned (.fail .EAFNOSUPPORT), l.boundTo fd (h.run (bindPassed dev fd ephemeral)).1.1
              (h.run (bindPassed dev fd ephemeral)).1.2, .nothing⟩ := by
          rw [FallibleCall.code, UserHost.run_bind, run_sendto_initialized dev h hstatus, sendtoBound, if_pos haddrlen]
          rfl
        have hlayer := (hatomic (by rw [hrun]; exact Or.inl (Option.some_ne_none _))).2.layer
        rw [hrun] at hlayer
        have hbound := congrArg (fun l : SocketLayer => (l.socketFds fd).status) hlayer
        rw [hstatus] at hbound
        simp [boundTo, setFd] at hbound

/-- `send` passes an address of the right size. -/
theorem failsAtomically_send (buf : List (BitVec 8)) (attempts : ℕ) : FailsAtomically dev l h (.send fd buf attempts) := by
  by_cases hfd : (l.socketFds fd).status = .notAssigned
  · refine failsAtomically_of_run (e := .EBADF) ?_
    rw [FallibleCall.code, send, if_pos hfd]
    rfl
  · by_cases hpeer : (l.socketFds fd).socket.destIp = 0
    · refine failsAtomically_of_run (e := .ENOTCONN) ?_
      rw [FallibleCall.code, send, if_neg hfd, if_pos hpeer]
      rfl
    · refine failsAtomically_of_not_failed ?_
      rw [FallibleCall.code, send, if_neg hfd, if_neg hpeer, UserHost.run_bind]
      exact not_failed_sendto hfd buf _ attempts

/-- `sendmsg` looks at the size of the address first. -/
theorem failsAtomically_sendmsg (msg : Msghdr) (tempBuffer : ℕ → BitVec 8) (passes attempts : ℕ) :
    FailsAtomically dev l h (.sendmsg fd msg tempBuffer passes attempts) := by
  by_cases hnamelen : msg.msgNamelen = sizeofSockaddrIn
  · by_cases hfd : (l.socketFds fd).status = .notAssigned
    · refine failsAtomically_of_run (e := .EBADF) ?_
      rw [FallibleCall.code, sendmsg, if_neg (not_not.mpr hnamelen), if_pos hfd]
      rfl
    · rcases hgather : gather msg.msgIov tempBuffer passes with ⟨status, g⟩
      cases status with
      | going =>
        refine failsAtomically_of_not_failed ?_
        rw [FallibleCall.code, sendmsg, if_neg (not_not.mpr hnamelen), if_neg hfd, hgather]
        exact id
      | refused =>
        refine failsAtomically_of_run (e := .EMSGSIZE) ?_
        rw [FallibleCall.code, sendmsg_of_refused dev hfd hnamelen hgather]
        rfl
      | complete =>
        refine failsAtomically_of_not_failed ?_
        rw [FallibleCall.code, sendmsg_of_complete dev hfd hnamelen hgather, UserHost.run_bind]
        exact not_failed_sendto hfd _ _ attempts
  · refine failsAtomically_of_run (e := .EAFNOSUPPORT) ?_
    rw [FallibleCall.code, sendmsg, if_pos hnamelen]
    rfl

/-- What is received from a bound descriptor is no failure. -/
theorem recvfrom_of_bound (hfd : (l.socketFds fd).status = .bound) (args : RecvArgs) (attempts : ℕ) (r : RecvReturn)
    (hr : (h.run (l.recvfrom dev fd args attempts)).1 = .returned r) : r.outcome.errno = none ∧ 0 ≤ r.outcome.ret := by
  rw [recvfrom, if_neg (not_not.mpr hfd)] at hr
  by_cases hmulticast : (l.socketFds fd).socket.multicast = 1
  · rw [if_pos hmulticast] at hr
    obtain rfl := Recvd.returned.inj hr
    exact ⟨rfl, Int.le_refl 0⟩
  · rw [if_neg hmulticast, UserHost.run_bind] at hr
    split at hr
    · exact Recvd.noConfusion hr
    · rw [UserHost.run_pure, deliver] at hr
      split at hr
      · exact Recvd.noConfusion hr
      · split at hr
        · exact Recvd.noConfusion hr
        · obtain rfl := Recvd.returned.inj hr
          refine ⟨rfl, ?_⟩
          dsimp only [Outcome.value]
          split <;> exact Int.natCast_nonneg _

/-- A descriptor that is not bound is refused at once. -/
theorem recvfrom_of_not_bound (hfd : (l.socketFds fd).status ≠ .bound) (args : RecvArgs) (attempts : ℕ) :
    l.recvfrom dev fd args attempts = pure (.returned ⟨.fail .EINVAL, args.buf, 0, args.srcAddr, args.addrlen⟩) :=
  if_pos hfd

/-- `recvfrom` looks at the descriptor first. -/
theorem failsAtomically_recvfrom (args : RecvArgs) (attempts : ℕ) :
    FailsAtomically dev l h (.recvfrom fd args attempts) := by
  by_cases hfd : (l.socketFds fd).status = .bound
  · refine failsAtomically_of_not_failed ?_
    rw [FallibleCall.code, UserHost.run_bind, UserHost.run_pure]
    cases hr : (h.run (l.recvfrom dev fd args attempts)).1 with
    | going => exact id
    | crashed => exact fun hfailed => hfailed rfl
    | returned r =>
      obtain ⟨herrno, hret⟩ := recvfrom_of_bound hfd args attempts r hr
      exact fun hfailed => hfailed.elim (fun hset => hset herrno) (Int.not_lt.mpr hret)
  · refine failsAtomically_of_run (e := .EINVAL) ?_
    rw [FallibleCall.code, recvfrom_of_not_bound hfd]
    rfl

/-- `recvmsg` writes its results and returns a number without a sign whatever it has received. -/
theorem failsAtomically_recvmsg_iff (msg : RecvMsghdr) (locals : RecvLocals) (attempts : ℕ) :
    FailsAtomically dev l h (.recvmsg fd msg locals attempts) ↔ ¬ (l.socketFds fd).status ≠ .bound := by
  by_cases hfd : (l.socketFds fd).status = .bound
  · refine iff_of_true (failsAtomically_of_not_failed ?_) (not_not.mpr hfd)
    rw [FallibleCall.code, recvmsg, UserHost.run_bind, UserHost.run_bind, UserHost.run_pure, UserHost.run_pure]
    cases hr : (h.run (l.recvfrom dev fd
        ⟨msg.iovBase, msg.iovLen, some locals.addr, some locals.addrlen, locals.pointer⟩ attempts)).1 with
    | going => exact id
    | crashed => exact fun hfailed => hfailed rfl
    | returned r =>
      have herrno := (recvfrom_of_bound hfd _ attempts r hr).1
      rw [finishRecvmsg]
      split
      · exact fun hfailed => hfailed herrno
      · exact fun hfailed => hfailed.elim (fun hset => hset herrno) (Int.not_lt.mpr (Int.natCast_nonneg _))
  · refine iff_of_false (fun hatomic => ?_) (not_not.mpr hfd)
    have hend : (h.run (FallibleCall.code dev l (.recvmsg fd msg locals attempts))).1.callEnd =
        if msg.msgName = none then .crashed (some .EINVAL) else .returned ⟨4294967295, some .EINVAL⟩ := by
      rw [FallibleCall.code, recvmsg, recvfrom_of_not_bound hfd, UserHost.run_bind, UserHost.run_bind]
      change (finishRecvmsg msg locals (.returned ⟨.fail .EINVAL, _, _, _, _⟩)).1 = _
      rw [finishRecvmsg]
      split <;> rfl
    rw [FailsAtomically, hend] at hatomic
    by_cases hname : msg.msgName = none
    · rw [if_pos hname] at hatomic
      exact (hatomic nofun).1
    · rw [if_neg hname] at hatomic
      exact absurd (hatomic (Or.inl nofun)).1 (by decide : ¬ (4294967295 : ℤ) < 0)

/-- `epoll_ctl` changes an instance only when it succeeds. -/
theorem failsAtomically_epollCtl (epfd op : ℤ) (data : BitVec 64) (events : BitVec 32) :
    FailsAtomically dev l h (.epollCtl epfd op fd data events) := by
  have hresult : (l.epollCtl epfd op fd data events).1 = .value 0 ∨
      (l.epollCtl epfd op fd data events).1.ret = -1 ∧ (l.epollCtl epfd op fd data events).2 = l := by
    unfold epollCtl
    split
    · exact Or.inr ⟨rfl, rfl⟩
    · split
      · split
        · exact Or.inr ⟨rfl, rfl⟩
        · split
          · exact Or.inr ⟨rfl, rfl⟩
          · exact Or.inl rfl
      · split
        · split
          · exact Or.inl rfl
          · exact Or.inr ⟨rfl, rfl⟩
        · exact Or.inr ⟨rfl, rfl⟩
  rcases hresult with hvalue | ⟨hret, hlayer⟩
  · refine failsAtomically_of_not_failed ?_
    rw [FallibleCall.code, hvalue]
    exact not_failed_value (Int.le_refl 0)
  · intro _
    refine ⟨?_, hlayer, rfl, rfl, rfl, rfl⟩
    change (l.epollCtl epfd op fd data events).1.ret < 0
    rw [hret]
    decide

/-- `close` of an assigned descriptor tears it down before the library is asked. -/
theorem failsAtomically_close_iff (libc : LibcClose) : FailsAtomically dev l h (.close fd libc) ↔
    ¬ (libc.resolved = true ∧ (l.socketFds fd).status ≠ .notAssigned ∧ libc.ret < 0) := by
  cases hresolved : libc.resolved with
  | false =>
    refine iff_of_true (failsAtomically_of_run (e := .ENOSYS) ?_) (by simp)
    rw [FallibleCall.code, close, if_pos (by simp [hresolved])]
    rfl
  | true =>
    by_cases hfd : (l.socketFds fd).status = .notAssigned
    · refine iff_of_true ?_ (by simp [hfd])
      have hrun : h.run (FallibleCall.code dev l (.close fd libc)) =
          (⟨.returned (if libc.valid then .value libc.ret else .fail .EBADF), l, .nothing⟩, h) := by
        rw [FallibleCall.code, close, if_neg (by simp [hresolved]), if_pos hfd]
        rfl
      intro hfailed
      rw [hrun] at hfailed ⊢
      refine ⟨?_, rfl, rfl, rfl, rfl, rfl⟩
      cases hvalid : libc.valid with
      | false => exact (by decide : (-1 : ℤ) < 0)
      | true =>
        rw [hvalid] at hfailed
        exact hfailed.resolve_left (not_not.mpr rfl)
    · have hend : (h.run (FallibleCall.code dev l (.close fd libc))).1.callEnd = .returned (.value libc.ret) := by
        rw [FallibleCall.code, close, if_neg (by simp [hresolved]), if_neg hfd, UserHost.run_bind, UserHost.run_bind]
        rfl
      have hlayer : ((h.run (FallibleCall.code dev l (.close fd libc))).1.layer.socketFds fd).status = .notAssigned := by
        rw [FallibleCall.code, close, if_neg (by simp [hresolved]), if_neg hfd, UserHost.run_bind, UserHost.run_bind]
        simp [setFd]
      by_cases hret : libc.ret < 0
      · refine iff_of_false (fun hatomic => ?_) (not_not.mpr ⟨rfl, hfd, hret⟩)
        have hsame := (hatomic (by rw [hend]; exact Or.inr hret)).2.layer
        rw [hsame] at hlayer
        exact hfd hlayer
      · refine iff_of_true (failsAtomically_of_not_failed ?_) (fun hlate => hret hlate.2.2)
        rw [hend]
        exact not_failed_value (Int.not_lt.mp hret)

end Calls

/-- In every state, a call that fails returns a negative value and changes nothing, unless it fails late. -/
theorem failsAtomically_iff (dev : UdpIpDevice) (l : SocketLayer) (h : UserHost) (call : FallibleCall) :
    FailsAtomically dev l h call ↔ ¬ FailsLate l call := by
  cases call with
  | bind sockfd addr addrlen => exact iff_of_true (failsAtomically_bind addr addrlen) id
  | connect sockfd addr addrlen => exact iff_of_true (failsAtomically_connect addr addrlen) id
  | sendto sockfd buf destAddr addrlen attempts => exact failsAtomically_sendto_iff buf destAddr addrlen attempts
  | send sockfd buf attempts => exact iff_of_true (failsAtomically_send buf attempts) id
  | sendmsg sockfd msg tempBuffer passes attempts =>
    exact iff_of_true (failsAtomically_sendmsg msg tempBuffer passes attempts) id
  | recvfrom sockfd args attempts => exact iff_of_true (failsAtomically_recvfrom args attempts) id
  | recvmsg sockfd msg locals attempts => exact failsAtomically_recvmsg_iff msg locals attempts
  | epollCtl epfd op fd data events => exact iff_of_true (failsAtomically_epollCtl epfd op data events) id
  | close fd libc => exact failsAtomically_close_iff libc

/-- `recvmsg` on a descriptor that was never opened returns 4294967295. -/
theorem not_failsAtomically : ¬ ∀ (dev : UdpIpDevice) (l : SocketLayer) (h : UserHost) (call : FallibleCall),
    FailsAtomically dev l h call := by
  intro hall
  have hatomic := hall SocketRun.localPorts fdsInit idleHost
    (.recvmsg 3 ⟨some (inetAddr 0 0), 16, some fun _ => 0, 8, 1⟩ ⟨inetAddr 0 0, 0, 0⟩ 1)
  exact (failsAtomically_recvmsg_iff _ _ _).mp hatomic (by decide)

end SocketLayer

end UdpIpCore
