import UdpIpCore.Userspace.DescriptorRange

/-!
# Runs of calls and the bounds of the table

The calls of the socket layer one after the other. A descriptor at or above `MAX_UDP_PORTS`, or
below 0, leaves the table wherever a call looks it up: no call compares it with the bounds.
-/

namespace UdpIpCore

open Interaction Clocked

namespace DescriptorTable

open SocketLayer Udriver

/-- A call, with what the operating system and `malloc` answer to it. -/
inductive TableCall
  | socket (domain type opened : ℤ) (allocated : Bool)
  | shutdown (sockfd how : ℤ)
  | close (fd : ℤ) (libc : LibcClose)
  | bind (sockfd : ℤ) (addr : SockaddrIn) (addrlen : BitVec 32)
  | connect (sockfd : ℤ) (addr : SockaddrIn) (addrlen : BitVec 32)
  | getsockname (sockfd : ℤ)
  | setsockopt (sockfd level optname : ℤ)
  | recvfrom (sockfd : ℤ) (args : RecvArgs) (attempts : ℕ)
  | recv (sockfd : ℤ) (buf : Option (ℕ → BitVec 8)) (len : BitVec 64) (locals : RecvLocals) (attempts : ℕ)
  | recvmsg (sockfd : ℤ) (msg : RecvMsghdr) (locals : RecvLocals) (attempts : ℕ)
  | sendto (sockfd : ℤ) (buf : List (BitVec 8)) (destAddr : SockaddrIn) (addrlen : BitVec 32) (attempts : ℕ)
  | send (sockfd : ℤ) (buf : List (BitVec 8)) (attempts : ℕ)
  | sendmsg (sockfd : ℤ) (msg : Msghdr) (tempBuffer : ℕ → BitVec 8) (passes attempts : ℕ)
  | select (nfds : ℤ) (readfds : Option (ℕ → Bool)) (expired : ℕ → Bool) (more : ℕ)
  | epollCreate (opened : ℤ) (allocated : Bool)
  | epollCtl (epfd op fd : ℤ) (data : BitVec 64) (events : BitVec 32)
  | epollWait (epfd maxevents timeout : ℤ) (expired : ℕ → Bool) (passes : ℕ)

/-- What a call does; its result is not followed. -/
def TableCall.code (dev : UdpIpDevice) : TableCall → TableCode Unit
  | .socket domain type opened allocated => DescriptorTable.socket domain type opened allocated >>= fun _ => pure ()
  | .shutdown sockfd how => DescriptorTable.shutdown dev sockfd how >>= fun _ => pure ()
  | .close fd libc => DescriptorTable.close dev fd libc >>= fun _ => pure ()
  | .bind sockfd addr addrlen => DescriptorTable.bind dev sockfd addr addrlen >>= fun _ => pure ()
  | .connect sockfd addr addrlen => DescriptorTable.connect sockfd addr addrlen >>= fun _ => pure ()
  | .getsockname sockfd => DescriptorTable.getsockname sockfd >>= fun _ => pure ()
  | .setsockopt sockfd level optname => DescriptorTable.setsockopt sockfd level optname >>= fun _ => pure ()
  | .recvfrom sockfd args attempts => DescriptorTable.recvfrom dev sockfd args attempts >>= fun _ => pure ()
  | .recv sockfd buf len locals attempts =>
    DescriptorTable.recv dev sockfd buf len locals attempts >>= fun _ => pure ()
  | .recvmsg sockfd msg locals attempts => DescriptorTable.recvmsg dev sockfd msg locals attempts >>= fun _ => pure ()
  | .sendto sockfd buf destAddr addrlen attempts =>
    DescriptorTable.sendto dev sockfd buf destAddr addrlen attempts >>= fun _ => pure ()
  | .send sockfd buf attempts => DescriptorTable.send dev sockfd buf attempts >>= fun _ => pure ()
  | .sendmsg sockfd msg tempBuffer passes attempts =>
    DescriptorTable.sendmsg dev sockfd msg tempBuffer passes attempts >>= fun _ => pure ()
  | .select nfds readfds expired more => DescriptorTable.select dev nfds readfds expired more >>= fun _ => pure ()
  | .epollCreate opened allocated => DescriptorTable.epollCreate opened allocated >>= fun _ => pure ()
  | .epollCtl epfd op fd data events => DescriptorTable.epollCtl epfd op fd data events >>= fun _ => pure ()
  | .epollWait epfd maxevents timeout expired passes =>
    DescriptorTable.epollWait dev epfd maxevents timeout expired passes >>= fun _ => pure ()

/-- A call and what the device answers during it. -/
structure TableEvent where
  call : TableCall
  answers : Answers

/-- The socket layer, a call at a time. -/
def tableMachine (dev : UdpIpDevice) : Machine DescriptorTable TableEvent where
  step t e := ((e.call.code dev).eval execute (t, e.answers)).2.1
  legal _ _ := True

/-- An index of the table. -/
def InTable (i : ℤ) : Prop := 0 ≤ i ∧ i < maxUdpPorts

/-- The indices that the call looks up are in the table. -/
def Within (t : DescriptorTable) : TableCall → Prop
  | .socket domain type opened _ => (domain ≠ afInet ∧ type ≠ sockDgram) ∨ opened < maxUdpPorts
  | .shutdown sockfd _ => InTable sockfd
  | .close fd libc => libc.resolved = false ∨ InTable fd
  | .bind sockfd _ _ => InTable sockfd
  | .connect sockfd addr addrlen =>
    ((addr.sinFamily.toNat : ℤ) ≠ afInet ∨ addrlen ≠ sizeofSockaddrIn) ∨ InTable sockfd
  | .getsockname sockfd => InTable sockfd
  | .setsockopt sockfd _ _ => InTable sockfd
  | .recvfrom sockfd _ _ => InTable sockfd
  | .recv sockfd _ _ _ _ => InTable sockfd
  | .recvmsg sockfd _ _ _ => InTable sockfd
  | .sendto sockfd _ _ _ _ => InTable sockfd
  | .send sockfd _ _ => InTable sockfd
  | .sendmsg sockfd msg _ _ _ => msg.msgNamelen ≠ sizeofSockaddrIn ∨ InTable sockfd
  | .select nfds readfds _ _ => readfds = none ∨ nfds ≤ maxUdpPorts
  | .epollCreate opened _ => opened < maxUdpPorts
  | .epollCtl epfd op fd _ _ => AddsUnseen t epfd op fd → InTable fd
  | .epollWait _ _ _ _ _ => True

/-- Every access of the call is in the table, and through pointers that are not null. -/
def StaysInTable (dev : UdpIpDevice) (t : DescriptorTable) (e : TableEvent) : Prop :=
  ((tableMachine dev).step t e).fault = false

variable {α β : Type} {dev : UdpIpDevice} {t : DescriptorTable} {i : ℤ}

theorem fdOf_of_inTable (hi : InTable i) : ∃ fd, fdOf i = some fd := ⟨_, dif_pos hi⟩

theorem fdOf_of_not_inTable (hi : ¬ InTable i) : fdOf i = none := dif_neg hi

section Faults

/-- The program leaves the table, whatever the device answers. -/
def Leaves (p : TableCode α) (t : DescriptorTable) : Prop :=
  ∀ answers, (p.eval execute (t, answers)).2.1.fault = true

theorem fault_atIndex (otherwise : α) (f : Fd → α × DescriptorTable)
    (hf : ∀ fd, (f fd).2.fault = true) : (t.atIndex i otherwise f).2.fault = true := by
  unfold atIndex
  split
  · rfl
  · exact hf _

/-- A fault stays. -/
theorem fault_execute (hfault : t.fault = true) (answers : Answers) (c : TableAccess) :
    (execute (t, answers) c).2.1.fault = true := by
  cases c with
  | status i => exact fault_atIndex _ _ fun _ => hfault
  | setStatus i status => exact fault_atIndex _ _ fun _ => hfault
  | epfd i => exact fault_atIndex _ _ fun _ => hfault
  | setEpfd i epfd => exact fault_atIndex _ _ fun _ => hfault
  | ptr i => exact fault_atIndex _ _ fun _ => hfault
  | setPtr i ptr => exact fault_atIndex _ _ fun _ => hfault
  | load i =>
    refine fault_atIndex _ _ fun fd => ?_
    split
    · rfl
    · exact hfault
  | store i socket =>
    refine fault_atIndex _ _ fun fd => ?_
    split
    · rfl
    · exact hfault
  | listed id => exact hfault
  | setListed id fds => exact hfault
  | device c => exact hfault

theorem leaves_of_fault (p : TableCode α) (hfault : t.fault = true) : Leaves p t := by
  intro answers
  induction p generalizing t answers with
  | done a => exact hfault
  | perform c next ih => exact ih _ (fault_execute hfault answers c) _

theorem leaves_bind {p : TableCode α} (h : Leaves p t) (f : α → TableCode β) : Leaves (p >>= f) t := by
  intro answers
  rw [Program.eval_bind]
  exact leaves_of_fault _ (h answers) _

theorem leaves_bind_of_forall {p : TableCode α} {f : α → TableCode β} (h : ∀ a t', Leaves (f a) t') :
    Leaves (p >>= f) t := by
  intro answers
  rw [Program.eval_bind]
  exact h _ _ _

/-- A status is looked up at an index that the table does not have. -/
theorem leaves_status (hi : ¬ InTable i) (f : UdriverSocketStatus → TableCode β) : Leaves (status i >>= f) t := by
  refine leaves_bind (fun answers => ?_) f
  simp only [status, Program.eval_command, execute, atIndex, fdOf_of_not_inTable hi, faulted]

theorem leaves_fdsGetFreeFd {opened : ℤ} (hopened : ¬ opened < maxUdpPorts) : Leaves (fdsGetFreeFd opened) t := by
  have hnonneg : ¬ opened < 0 := fun hneg => hopened (by omega)
  rw [fdsGetFreeFd, if_neg hnonneg]
  exact leaves_status (fun hin => hopened hin.2) _

/-- The loop over the descriptors reaches the end of the table. -/
theorem leaves_selectScan {n : ℕ} (hn : maxUdpPorts < n) (readfds : ℕ → Bool) :
    Leaves (selectScan dev n readfds) t := by
  induction n with
  | zero => exact absurd hn (Nat.not_lt_zero _)
  | succ n ih =>
    rw [selectScan]
    rcases Nat.lt_or_eq_of_le (Nat.le_of_lt_succ hn) with hlt | heq
    · exact leaves_bind (ih hlt) _
    · have hout : ¬ InTable (n : ℤ) := fun hin => Nat.ne_of_lt (Int.ofNat_lt.mp hin.2) heq.symm
      exact leaves_bind_of_forall fun _ _ => leaves_status hout _

theorem leaves_epollCtl {epfd op number : ℤ} (hadds : AddsUnseen t epfd op number) (hnumber : ¬ InTable number)
    (data : BitVec 64) (events : BitVec 32) : Leaves (epollCtl epfd op number data events) t := by
  obtain ⟨hop, id, fds, hid, hlisted, hnew, hroom⟩ := hadds
  have hany : ¬ (fds.any fun entry => decide (entry.sockfd = number)) = true := by simpa using hnew
  intro answers
  rw [epollCtl, hid]
  dsimp only
  rw [Program.eval_bind, listed, Program.eval_command]
  simp only [execute, hlisted, if_pos hop, if_neg hany, if_neg (Nat.not_le.mpr hroom)]
  refine leaves_bind (fun answers => ?_) _ _
  simp only [setEpfd, Program.eval_command, execute, atIndex, fdOf_of_not_inTable hnumber, faulted]

end Faults

/-- One call: within the table it keeps it sound, and otherwise it leaves it. -/
theorem code_keeps (dev : UdpIpDevice) (hs : Sound t) {call : TableCall} (hwithin : Within t call) : Keeps (call.code dev) t := by
  have hdone {α : Type} {p : TableCode α} (hp : Keeps p t) : Keeps (p >>= fun _ => (pure () : TableCode Unit)) t :=
    Program.Safe.bind (hp.mono fun _ _ hs' => .pure hs')
  cases call with
  | socket domain type opened allocated => exact hdone (socket_keeps hs hwithin allocated)
  | shutdown sockfd how =>
    obtain ⟨fd, hfd⟩ := fdOf_of_inTable hwithin
    exact hdone (shutdown_keeps dev hs hfd how)
  | close fd libc =>
    rcases hwithin with hresolved | hin
    · rw [TableCall.code, close, if_pos (by simp [hresolved])]
      exact hdone (.pure hs)
    · obtain ⟨fd, hfd⟩ := fdOf_of_inTable hin
      exact hdone (close_keeps dev hs hfd libc)
  | bind sockfd addr addrlen =>
    obtain ⟨fd, hfd⟩ := fdOf_of_inTable hwithin
    exact hdone ((bind_safe dev hs hfd addr addrlen).mono fun _ _ hs' => hs'.1)
  | connect sockfd addr addrlen =>
    rcases hwithin with hrefused | hin
    · rw [TableCall.code, connect, if_pos hrefused]
      exact hdone (.pure hs)
    · obtain ⟨fd, hfd⟩ := fdOf_of_inTable hin
      exact hdone (connect_keeps hs hfd addr addrlen)
  | getsockname sockfd =>
    obtain ⟨fd, hfd⟩ := fdOf_of_inTable hwithin
    exact hdone (getsockname_keeps hs hfd)
  | setsockopt sockfd level optname =>
    obtain ⟨fd, hfd⟩ := fdOf_of_inTable hwithin
    exact hdone (setsockopt_keeps hs hfd level optname)
  | recvfrom sockfd args attempts =>
    obtain ⟨fd, hfd⟩ := fdOf_of_inTable hwithin
    exact hdone (recvfrom_keeps dev hs hfd args attempts)
  | recv sockfd buf len locals attempts =>
    obtain ⟨fd, hfd⟩ := fdOf_of_inTable hwithin
    exact hdone (recvfrom_keeps dev hs hfd _ attempts)
  | recvmsg sockfd msg locals attempts =>
    obtain ⟨fd, hfd⟩ := fdOf_of_inTable hwithin
    exact hdone (recvmsg_keeps dev hs hfd msg locals attempts)
  | sendto sockfd buf destAddr addrlen attempts =>
    obtain ⟨fd, hfd⟩ := fdOf_of_inTable hwithin
    exact hdone (sendto_keeps dev hs hfd buf destAddr addrlen attempts)
  | send sockfd buf attempts =>
    obtain ⟨fd, hfd⟩ := fdOf_of_inTable hwithin
    exact hdone (send_keeps dev hs hfd buf attempts)
  | sendmsg sockfd msg tempBuffer passes attempts =>
    rcases hwithin with hnamelen | hin
    · rw [TableCall.code, sendmsg, if_pos hnamelen]
      exact hdone (.pure hs)
    · obtain ⟨fd, hfd⟩ := fdOf_of_inTable hin
      exact hdone (sendmsg_keeps dev hs hfd msg tempBuffer passes attempts)
  | select nfds readfds expired more => exact hdone (select_keeps dev hs hwithin expired more)
  | epollCreate opened allocated => exact hdone (epollCreate_keeps hs hwithin allocated)
  | epollCtl epfd op fd data events =>
    exact hdone (epollCtl_keeps hs (fun hadds => fdOf_of_inTable (hwithin hadds)) data events)
  | epollWait epfd maxevents timeout expired passes =>
    exact hdone (epollWait_keeps dev hs epfd maxevents timeout expired passes)

theorem code_leaves (dev : UdpIpDevice) {call : TableCall} (hout : ¬ Within t call) : Leaves (call.code dev) t := by
  cases call with
  | socket domain type opened allocated =>
    obtain ⟨hsupported, hopened⟩ := not_or.mp hout
    rw [TableCall.code, socket, if_neg hsupported]
    exact leaves_bind (leaves_bind (leaves_bind (leaves_fdsGetFreeFd hopened) _) _) _
  | shutdown sockfd how => exact leaves_bind (leaves_status hout _) _
  | close fd libc =>
    obtain ⟨hresolved, hfd⟩ := not_or.mp hout
    rw [TableCall.code, close, if_neg (by simpa using hresolved)]
    exact leaves_bind (leaves_status hfd _) _
  | bind sockfd addr addrlen => exact leaves_bind (leaves_status hout _) _
  | connect sockfd addr addrlen =>
    obtain ⟨hsupported, hsockfd⟩ := not_or.mp hout
    rw [TableCall.code, connect, if_neg hsupported]
    exact leaves_bind (leaves_status hsockfd _) _
  | getsockname sockfd => exact leaves_bind (leaves_status hout _) _
  | setsockopt sockfd level optname => exact leaves_bind (leaves_status hout _) _
  | recvfrom sockfd args attempts => exact leaves_bind (leaves_status hout _) _
  | recv sockfd buf len locals attempts => exact leaves_bind (leaves_status hout _) _
  | recvmsg sockfd msg locals attempts => exact leaves_bind (leaves_bind (leaves_status hout _) _) _
  | sendto sockfd buf destAddr addrlen attempts => exact leaves_bind (leaves_status hout _) _
  | send sockfd buf attempts => exact leaves_bind (leaves_status hout _) _
  | sendmsg sockfd msg tempBuffer passes attempts =>
    obtain ⟨hnamelen, hsockfd⟩ := not_or.mp hout
    rw [TableCall.code, sendmsg, if_neg hnamelen]
    exact leaves_bind (leaves_status hsockfd _) _
  | select nfds readfds expired more =>
    obtain ⟨hreadfds, hnfds⟩ := not_or.mp hout
    cases readfds with
    | none => exact absurd rfl hreadfds
    | some readfds =>
      have hn : maxUdpPorts < nfds.toNat := by omega
      exact leaves_bind (leaves_bind (leaves_bind (leaves_selectScan hn _) _) _) _
  | epollCreate opened allocated => exact leaves_bind (leaves_bind (leaves_fdsGetFreeFd hout) _) _
  | epollCtl epfd op fd data events =>
    obtain ⟨hadds, hfd⟩ := Classical.not_imp.mp hout
    exact leaves_bind (leaves_epollCtl hadds hfd data events) _
  | epollWait epfd maxevents timeout expired passes => exact absurd trivial hout

theorem init_sound : Sound init := ⟨rfl, fun _ hassigned => absurd rfl hassigned, fun _ _ hlisted => nomatch hlisted⟩

/-- In every run of calls, no access is outside of the table or through a null pointer exactly if each call looks up
indices of the table. -/
theorem staysInTable_iff (dev : UdpIpDevice) (calls : List TableEvent) :
    (tableMachine dev).Throughout (StaysInTable dev) init calls ↔
      ((tableMachine dev).restrict fun t e => Within t e.call).Legal init calls := by
  have hlegal : (tableMachine dev).Legal init calls := Machine.legal_of_forall _ (fun _ _ => trivial) _ _
  refine Machine.throughout_iff Sound (fun t e hs _ hwithin => ?_) (fun t e _ _ hout => ?_) init_sound hlegal
  · have hsound := eval_of_safe (code_keeps dev hs hwithin) e.answers
    exact ⟨hsound, hsound.defined⟩
  · intro hstays
    have hfault := code_leaves dev hout e.answers
    rw [StaysInTable, tableMachine, hfault] at hstays
    exact Bool.noConfusion hstays

/-- A device that answers 0. -/
def zeroAnswers : Answers
  | _, .readReg _ => 0
  | _, .writeReg _ _ => ()
  | _, .load _ => 0
  | _, .store _ _ => ()

/-- `close` of descriptor 1024, which the process opened elsewhere. -/
theorem not_staysInTable : ¬ ∀ (dev : UdpIpDevice) (calls : List TableEvent),
    (tableMachine dev).Throughout (StaysInTable dev) init calls := by
  intro hall
  have hstays := (hall SocketRun.localPorts [⟨.close 1024 ⟨true, true, 0⟩, zeroAnswers⟩]).1
  have hout : ¬ Within init (.close 1024 ⟨true, true, 0⟩) := by
    simp [Within, InTable, maxUdpPorts]
  have hfault := code_leaves SocketRun.localPorts hout zeroAnswers
  exact Bool.noConfusion (hfault.symm.trans hstays)

end DescriptorTable

end UdpIpCore
