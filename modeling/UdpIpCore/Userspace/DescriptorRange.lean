import UdpIpCore.Clocked
import UdpIpCore.Userspace.DescriptorTable

/-!
# Descriptors in range

Almost every call looks up the status of its descriptor first, and none of them compares it
with the size of the table. As long as the arguments, and the numbers that the operating
system gives out, are below `MAX_UDP_PORTS` where they are looked up, the table is never
left, and an assigned descriptor has a socket.
-/

namespace UdpIpCore

open Interaction

namespace DescriptorTable

open SocketLayer Udriver

/-- No fault has occurred. -/
def Defined (t : DescriptorTable) : Prop := t.fault = false

/-- Assigned descriptors have a socket, and the epoll instances list entries of the table. -/
structure Sound (t : DescriptorTable) : Prop where
  defined : t.Defined
  assigned : ∀ fd, (t.slots fd).status ≠ .notAssigned → ∃ socket, (t.slots fd).socketPtr = some socket
  listed : ∀ id fds, t.instances id = some fds → ∀ entry ∈ fds, ∃ fd, fdOf entry.sockfd = some fd

/-- One access, whatever the device answers. -/
def responds (t : DescriptorTable) (c : TableAccess) (r : c.Response) (t' : DescriptorTable) : Prop :=
  ∃ answers answers', execute (t, answers) c = (r, t', answers')

variable {α β : Type} {t : DescriptorTable} {i : ℤ} {fd : Fd} {post : β → DescriptorTable → Prop}

/-- What a safe program leaves behind. -/
theorem eval_of_safe {p : TableCode α} {post : α → DescriptorTable → Prop} (h : p.Safe responds Defined post t)
    (answers : Answers) : post (p.eval execute (t, answers)).1 (p.eval execute (t, answers)).2.1 := by
  induction h generalizing answers with
  | done hpost => exact hpost
  | perform _ _ ih => exact ih _ _ ⟨answers, _, rfl⟩ _

section Rules

/-- An access with one response. -/
theorem safe_access {c : TableAccess} {r : c.Response} {t' : DescriptorTable} {f : c.Response → TableCode β}
    (hexecute : ∀ answers, execute (t, answers) c = (r, t', answers))
    (h : (f r).Safe responds Defined post t') (hdefined : t'.Defined) :
    ((Program.command c : TableCode c.Response) >>= f).Safe responds Defined post t := by
  refine Program.Safe.bind (Program.Safe.command fun r' s' hr => ?_)
  obtain ⟨answers, answers', hr⟩ := hr
  rw [hexecute] at hr
  obtain ⟨rfl, hrest⟩ := Prod.mk.inj hr
  obtain ⟨rfl, -⟩ := Prod.mk.inj hrest
  exact ⟨hdefined, h⟩

theorem atIndex_of_fdOf (hi : fdOf i = some fd) (otherwise : α) (f : Fd → α × DescriptorTable) :
    t.atIndex i otherwise f = f fd := by
  rw [atIndex, hi]

theorem safe_status (hi : fdOf i = some fd) (hdefined : t.Defined) {f : UdriverSocketStatus → TableCode β}
    (h : (f (t.slots fd).status).Safe responds Defined post t) : (status i >>= f).Safe responds Defined post t := by
  refine safe_access (c := .status i) (fun answers => ?_) h hdefined
  simp only [execute, atIndex_of_fdOf hi]

theorem safe_epfd (hi : fdOf i = some fd) (hdefined : t.Defined) {f : ℤ → TableCode β}
    (h : (f (t.slots fd).epfd).Safe responds Defined post t) : (epfd i >>= f).Safe responds Defined post t := by
  refine safe_access (c := .epfd i) (fun answers => ?_) h hdefined
  simp only [execute, atIndex_of_fdOf hi]

theorem safe_ptr (hi : fdOf i = some fd) (hdefined : t.Defined) {f : Option UdriverSocket → TableCode β}
    (h : (f (t.slots fd).socketPtr).Safe responds Defined post t) : (ptr i >>= f).Safe responds Defined post t := by
  refine safe_access (c := .ptr i) (fun answers => ?_) h hdefined
  simp only [execute, atIndex_of_fdOf hi]

theorem safe_load (hi : fdOf i = some fd) (hdefined : t.Defined) {socket : UdriverSocket}
    (hptr : (t.slots fd).socketPtr = some socket) {f : UdriverSocket → TableCode β}
    (h : (f socket).Safe responds Defined post t) : (load i >>= f).Safe responds Defined post t := by
  refine safe_access (c := .load i) (fun answers => ?_) h hdefined
  simp only [execute, atIndex_of_fdOf hi, hptr]

theorem safe_setStatus (hi : fdOf i = some fd) (hdefined : t.Defined) {value : UdriverSocketStatus} {f : Unit → TableCode β}
    (h : (f ()).Safe responds Defined post (t.setSlot fd { t.slots fd with status := value })) :
    (setStatus i value >>= f).Safe responds Defined post t := by
  refine safe_access (c := .setStatus i value) (fun answers => ?_) h hdefined
  simp only [execute, atIndex_of_fdOf hi]

theorem safe_setEpfd (hi : fdOf i = some fd) (hdefined : t.Defined) {value : ℤ} {f : Unit → TableCode β}
    (h : (f ()).Safe responds Defined post (t.setSlot fd { t.slots fd with epfd := value })) :
    (setEpfd i value >>= f).Safe responds Defined post t := by
  refine safe_access (c := .setEpfd i value) (fun answers => ?_) h hdefined
  simp only [execute, atIndex_of_fdOf hi]

theorem safe_setPtr (hi : fdOf i = some fd) (hdefined : t.Defined) {value : Option UdriverSocket} {f : Unit → TableCode β}
    (h : (f ()).Safe responds Defined post (t.setSlot fd { t.slots fd with socketPtr := value })) :
    (setPtr i value >>= f).Safe responds Defined post t := by
  refine safe_access (c := .setPtr i value) (fun answers => ?_) h hdefined
  simp only [execute, atIndex_of_fdOf hi]

theorem safe_store (hi : fdOf i = some fd) (hdefined : t.Defined) {socket value : UdriverSocket}
    (hptr : (t.slots fd).socketPtr = some socket) {f : Unit → TableCode β}
    (h : (f ()).Safe responds Defined post (t.setSlot fd { t.slots fd with socketPtr := some value })) :
    (store i value >>= f).Safe responds Defined post t := by
  refine safe_access (c := .store i value) (fun answers => ?_) h hdefined
  simp only [execute, atIndex_of_fdOf hi, hptr]

theorem safe_listed {id : Fin maxEpollFds} (hdefined : t.Defined) {f : Option (List ListedFd) → TableCode β}
    (h : (f (t.instances id)).Safe responds Defined post t) : (listed id >>= f).Safe responds Defined post t :=
  safe_access (c := .listed id) (fun _ => rfl) h hdefined

theorem safe_setListed {id : Fin maxEpollFds} {fds : Option (List ListedFd)} (hdefined : t.Defined)
    {f : Unit → TableCode β}
    (h : (f ()).Safe responds Defined post { t with instances := Function.update t.instances id fds }) :
    (setListed id fds >>= f).Safe responds Defined post t :=
  safe_access (c := .setListed id fds) (fun _ => rfl) h hdefined

/-- The driver does not touch the table. -/
theorem safe_onDevice (p : UserCode α) (hdefined : t.Defined) {f : α → TableCode β}
    (h : ∀ a, (f a).Safe responds Defined post t) : (onDevice p >>= f).Safe responds Defined post t := by
  induction p with
  | done a => exact h a
  | perform c next ih =>
    refine .perform (fun r t' hr => ?_) fun r t' hr => ?_
    · obtain ⟨answers, answers', hr⟩ := hr
      obtain ⟨-, hrest⟩ := Prod.mk.inj hr
      obtain ⟨rfl, -⟩ := Prod.mk.inj hrest
      exact hdefined
    · obtain ⟨answers, answers', hr⟩ := hr
      obtain ⟨-, hrest⟩ := Prod.mk.inj hr
      obtain ⟨rfl, -⟩ := Prod.mk.inj hrest
      exact ih r

end Rules

section Updates

/-- An entry that is assigned with a socket, or not assigned, may be stored. -/
theorem Sound.setSlot (hs : Sound t) (fd : Fd) (slot : TableSlot)
    (hslot : slot.status ≠ .notAssigned → ∃ socket, slot.socketPtr = some socket) : Sound (t.setSlot fd slot) := by
  refine ⟨hs.defined, fun other hassigned => ?_, hs.listed⟩
  by_cases hsame : other = fd
  · subst hsame
    simp only [DescriptorTable.setSlot, Function.update_self] at hassigned ⊢
    exact hslot hassigned
  · simp only [DescriptorTable.setSlot, Function.update_of_ne hsame] at hassigned ⊢
    exact hs.assigned other hassigned

/-- An epoll instance that lists entries of the table may be stored. -/
theorem Sound.setListed (hs : Sound t) {id : Fin maxEpollFds} {fds : Option (List ListedFd)}
    (hfds : ∀ listed, fds = some listed → ∀ entry ∈ listed, ∃ fd, fdOf entry.sockfd = some fd) :
    Sound { t with instances := Function.update t.instances id fds } := by
  refine ⟨hs.defined, hs.assigned, fun other listed hlisted => ?_⟩
  change Function.update t.instances id fds other = some listed at hlisted
  by_cases hsame : other = id
  · subst hsame
    rw [Function.update_self] at hlisted
    exact hfds listed hlisted
  · rw [Function.update_of_ne hsame] at hlisted
    exact hs.listed other listed hlisted

/-- The status of an entry after a store to it. -/
@[simp] theorem setSlot_slots_self (slot : TableSlot) : (t.setSlot fd slot).slots fd = slot :=
  Function.update_self ..

end Updates

section InRange

/-- The program stays in the table and leaves a sound one. -/
abbrev Keeps (p : TableCode α) (t : DescriptorTable) : Prop := p.Safe responds Defined (fun _ => Sound) t

theorem fdsGetFreeFd_safe {opened : ℤ} (hs : Sound t) (hopened : opened < maxUdpPorts) :
    (fdsGetFreeFd opened).Safe responds Defined
      (fun r t' => t' = t ∧ (r = -1 ∨ r = opened ∧ ∃ fd, fdOf opened = some fd)) t := by
  unfold fdsGetFreeFd
  split
  · exact .pure ⟨rfl, Or.inl rfl⟩
  · rename_i hnonneg
    have hfd : fdOf opened = some ⟨opened.toNat, by omega⟩ := dif_pos (by omega)
    refine safe_status hfd hs.defined ?_
    split
    · exact .pure ⟨rfl, Or.inl rfl⟩
    · exact .pure ⟨rfl, Or.inr ⟨rfl, _, hfd⟩⟩

theorem fdCreate_keeps {opened : ℤ} (hs : Sound t) (hopened : opened < maxUdpPorts) (allocated : Bool) :
    Keeps (fdCreate opened allocated) t := by
  unfold fdCreate
  refine Program.Safe.bind ((fdsGetFreeFd_safe hs hopened).mono fun r t' hr => ?_)
  obtain ⟨rfl, hr⟩ := hr
  split
  · exact .pure hs
  · split
    · exact .pure hs
    · rename_i hcreated _
      obtain ⟨rfl, fd, hfd⟩ := hr.resolve_left hcreated
      refine safe_setEpfd hfd hs.defined ?_
      refine safe_setStatus (t := t'.setSlot fd _) hfd hs.defined ?_
      refine safe_setPtr (t := (t'.setSlot fd _).setSlot fd _) hfd hs.defined (.pure ?_)
      -- the status is stored before the pointer; only both together are sound
      have hstored : ((t'.setSlot fd { t'.slots fd with epfd := -1 }).setSlot fd
          { t'.slots fd with epfd := -1, status := .initialized }).setSlot fd
            ⟨-1, .initialized, some .zero⟩ = t'.setSlot fd ⟨-1, .initialized, some .zero⟩ := by
        simp only [DescriptorTable.setSlot, Function.update_idem]
      simp only [setSlot_slots_self]
      rw [hstored]
      exact hs.setSlot _ _ fun _ => ⟨_, rfl⟩

theorem socket_keeps {domain type opened : ℤ} (hs : Sound t)
    (hopened : (domain ≠ afInet ∧ type ≠ sockDgram) ∨ opened < maxUdpPorts) (allocated : Bool) :
    Keeps (socket domain type opened allocated) t := by
  unfold socket
  split
  · exact .pure hs
  · rename_i hsupported
    refine Program.Safe.bind ((fdCreate_keeps hs (hopened.resolve_left hsupported) allocated).mono fun r t' hs' => ?_)
    split <;> exact .pure hs'

theorem epollCreate_keeps {opened : ℤ} (hs : Sound t) (hopened : opened < maxUdpPorts) (allocated : Bool) :
    Keeps (epollCreate opened allocated) t := by
  unfold epollCreate
  refine Program.Safe.bind ((fdsGetFreeFd_safe hs hopened).mono fun r t' hr => ?_)
  obtain ⟨rfl, -⟩ := hr
  split
  · exact .pure hs
  · refine safe_setListed hs.defined ?_
    cases allocated with
    | false => exact .pure (hs.setListed fun listed hlisted => nomatch hlisted)
    | true =>
      refine .pure (hs.setListed fun listed hlisted entry hentry => ?_)
      obtain rfl := Option.some.inj hlisted
      exact absurd hentry List.not_mem_nil

/-- A descriptor that an instance lists is in the table; only a new one is stored unseen. -/
def AddsUnseen (t : DescriptorTable) (epfd op fd : ℤ) : Prop :=
  op = epollCtlAdd ∧ ∃ id listed, instanceOf epfd = some id ∧ t.instances id = some listed ∧
    (∀ entry ∈ listed, entry.sockfd ≠ fd) ∧ listed.length < maxEpollFds

theorem epollCtl_keeps {epfd op number : ℤ} (hs : Sound t)
    (hnumber : AddsUnseen t epfd op number → ∃ fd, fdOf number = some fd) (data : BitVec 64) (events : BitVec 32) :
    Keeps (epollCtl epfd op number data events) t := by
  unfold epollCtl
  split
  · exact .pure hs
  · rename_i id hid
    refine safe_listed hs.defined ?_
    split
    · exact .pure hs
    · rename_i listed hlisted
      split
      · rename_i hadd
        split
        · exact .pure hs
        · split
          · exact .pure hs
          · rename_i hnew hroom
            obtain ⟨fd, hfd⟩ := hnumber ⟨hadd, id, listed, hid, hlisted, by simpa using hnew, by omega⟩
            have hs' := hs.setSlot fd { t.slots fd with epfd := epfd } (hs.assigned fd)
            refine safe_setEpfd hfd hs.defined (safe_setListed (t := t.setSlot fd _) hs'.defined (.pure (hs'.setListed ?_)))
            intro after hafter entry hentry
            obtain rfl := Option.some.inj hafter
            rcases List.mem_append.mp hentry with hold | hadded
            · exact hs.listed id listed hlisted entry hold
            · obtain rfl := List.mem_singleton.mp hadded
              exact ⟨fd, hfd⟩
      · split
        · split
          · rename_i hany
            obtain ⟨entry, hentry, hsockfd⟩ := List.any_eq_true.mp hany
            obtain ⟨fd, hfd⟩ := hs.listed id listed hlisted entry hentry
            rw [of_decide_eq_true hsockfd] at hfd
            have hs' := hs.setSlot fd { t.slots fd with epfd := -1 } (hs.assigned fd)
            refine safe_setEpfd hfd hs.defined (safe_setListed (t := t.setSlot fd _) hs'.defined (.pure (hs'.setListed ?_)))
            intro after hafter entry hentry
            obtain rfl := Option.some.inj hafter
            exact hs.listed id listed hlisted entry (List.mem_of_mem_eraseP hentry)
          · exact .pure hs
        · exact .pure hs

variable (dev : UdpIpDevice) (hs : Sound t) (hi : fdOf i = some fd)

include hs hi

theorem shutdownSocket_keeps {socket : UdriverSocket} (hptr : (t.slots fd).socketPtr = some socket) (how : ℤ) :
    Keeps (shutdownSocket dev i how) t := by
  unfold shutdownSocket
  split
  · refine safe_load hi hs.defined hptr ?_
    exact safe_store (f := pure) hi hs.defined hptr (.pure (hs.setSlot _ _ fun _ => ⟨_, rfl⟩))
  · split
    · refine safe_status hi hs.defined ?_
      split
      · refine safe_load hi hs.defined hptr ?_
        exact safe_onDevice _ hs.defined fun _ => .pure hs
      · exact .pure hs
    · exact .pure hs

theorem shutdown_keeps (how : ℤ) : Keeps (shutdown dev i how) t := by
  unfold shutdown
  refine safe_status hi hs.defined ?_
  split
  · exact .pure hs
  · rename_i hassigned
    obtain ⟨socket, hptr⟩ := hs.assigned fd hassigned
    refine safe_ptr hi hs.defined ?_
    split
    · exact .pure hs
    · refine Program.Safe.bind ((shutdownSocket_keeps dev hs hi hptr how).mono fun _ t' hs' => ?_)
      refine safe_epfd hi hs'.defined ?_
      split
      · refine Program.Safe.bind ((epollCtl_keeps hs' (fun _ => ⟨fd, hi⟩) 0 0).mono fun _ t'' hs'' => ?_)
        exact .pure hs''
      · exact .pure hs'

theorem close_keeps (libc : LibcClose) : Keeps (close dev i libc) t := by
  unfold close
  split
  · exact .pure hs
  · refine safe_status hi hs.defined ?_
    split
    · exact .pure hs
    · refine Program.Safe.bind ((shutdown_keeps dev hs hi shutRdwr).mono fun _ t' hs' => ?_)
      have hs'' := hs'.setSlot fd { t'.slots fd with status := .notAssigned }
        fun hassigned => absurd rfl hassigned
      refine safe_ptr hi hs'.defined (safe_setStatus hi hs'.defined ?_)
      refine safe_setPtr (t := t'.setSlot fd _) hi hs''.defined (.pure (hs''.setSlot _ _ fun hassigned => ?_))
      rw [setSlot_slots_self] at hassigned
      exact absurd rfl hassigned

/-- `bind` leaves an assigned descriptor assigned. -/
theorem bind_safe (addr : SockaddrIn) (addrlen : BitVec 32) : (bind dev i addr addrlen).Safe responds Defined
    (fun _ t' => Sound t' ∧ ((t.slots fd).status ≠ .notAssigned → (t'.slots fd).status ≠ .notAssigned)) t := by
  unfold bind
  refine safe_status hi hs.defined ?_
  split
  · exact .pure ⟨hs, id⟩
  · rename_i hassigned
    obtain ⟨socket, hptr⟩ := hs.assigned fd hassigned
    refine safe_status hi hs.defined ?_
    split
    · exact .pure ⟨hs, id⟩
    · split
      · exact .pure ⟨hs, id⟩
      · refine safe_onDevice _ hs.defined fun ip => safe_onDevice _ hs.defined fun port => ?_
        have hs' := hs.setSlot fd { t.slots fd with status := .bound } fun _ => ⟨socket, hptr⟩
        have hptr' : ((t.setSlot fd { t.slots fd with status := .bound }).slots fd).socketPtr = some socket := by
          rw [setSlot_slots_self]
          exact hptr
        refine safe_setStatus hi hs.defined (safe_load hi hs'.defined hptr' ?_)
        have hs'' := hs'.setSlot fd
          ⟨(t.slots fd).epfd, .bound, some { socket with srcIp := ip, srcPort := port }⟩ fun _ => ⟨_, rfl⟩
        refine safe_store hi hs'.defined hptr' ?_
        rw [setSlot_slots_self]
        refine safe_onDevice _ hs''.defined fun _ => .pure ⟨hs'', fun _ => ?_⟩
        rw [setSlot_slots_self]
        exact nofun

theorem connect_keeps (addr : SockaddrIn) (addrlen : BitVec 32) : Keeps (connect i addr addrlen) t := by
  unfold connect
  split
  · exact .pure hs
  · refine safe_status hi hs.defined ?_
    split
    · exact .pure hs
    · rename_i hassigned
      obtain ⟨socket, hptr⟩ := hs.assigned fd hassigned
      exact safe_load hi hs.defined hptr (safe_store hi hs.defined hptr (.pure (hs.setSlot _ _ fun _ => ⟨_, rfl⟩)))

theorem getsockname_keeps : Keeps (getsockname i) t := by
  unfold getsockname
  refine safe_status hi hs.defined ?_
  split
  · exact .pure hs
  · rename_i hassigned
    obtain ⟨socket, hptr⟩ := hs.assigned fd hassigned
    exact safe_load hi hs.defined hptr (.pure hs)

theorem setsockopt_keeps (level optname : ℤ) : Keeps (setsockopt i level optname) t := by
  unfold setsockopt
  refine safe_status hi hs.defined ?_
  split
  · exact .pure hs
  · rename_i hassigned
    split
    · obtain ⟨socket, hptr⟩ := hs.assigned fd hassigned
      exact safe_load hi hs.defined hptr (safe_store hi hs.defined hptr (.pure (hs.setSlot _ _ fun _ => ⟨_, rfl⟩)))
    · exact .pure hs

theorem recvfrom_keeps (args : RecvArgs) (attempts : ℕ) : Keeps (recvfrom dev i args attempts) t := by
  unfold recvfrom
  refine safe_status hi hs.defined ?_
  split
  · exact .pure hs
  · rename_i hbound
    obtain ⟨socket, hptr⟩ := hs.assigned fd (by rw [not_not.mp hbound]; exact nofun)
    refine safe_load hi hs.defined hptr ?_
    split
    · exact .pure hs
    · refine safe_onDevice _ hs.defined fun received => ?_
      cases received with
      | none => exact .pure hs
      | some rxUdpPacket => exact .pure hs

theorem recvmsg_keeps (msg : RecvMsghdr) (locals : RecvLocals) (attempts : ℕ) :
    Keeps (recvmsg dev i msg locals attempts) t :=
  Program.Safe.bind ((recvfrom_keeps dev hs hi _ attempts).mono fun _ _ hs' => .pure hs')

theorem sendtoBound_keeps (hassigned : (t.slots fd).status ≠ .notAssigned) (buf : List (BitVec 8))
    (destAddr : SockaddrIn) (addrlen : BitVec 32) (attempts : ℕ) :
    Keeps (sendtoBound i buf destAddr addrlen attempts) t := by
  unfold sendtoBound
  split
  · exact .pure hs
  · obtain ⟨socket, hptr⟩ := hs.assigned fd hassigned
    exact safe_load hi hs.defined hptr (safe_onDevice _ hs.defined fun _ => .pure hs)

theorem sendto_keeps (buf : List (BitVec 8)) (destAddr : SockaddrIn) (addrlen : BitVec 32) (attempts : ℕ) :
    Keeps (sendto dev i buf destAddr addrlen attempts) t := by
  unfold sendto
  refine safe_status hi hs.defined ?_
  split
  · exact .pure hs
  · rename_i hassigned
    refine safe_status hi hs.defined ?_
    split
    · refine Program.Safe.bind ((bind_safe dev hs hi ephemeral sizeofSockaddrIn).mono fun retval t' hbound => ?_)
      split
      · exact .pure hbound.1
      · exact sendtoBound_keeps hbound.1 hi (hbound.2 hassigned) buf destAddr addrlen attempts
    · exact sendtoBound_keeps hs hi hassigned buf destAddr addrlen attempts

theorem send_keeps (buf : List (BitVec 8)) (attempts : ℕ) : Keeps (send dev i buf attempts) t := by
  unfold send
  refine safe_status hi hs.defined ?_
  split
  · exact .pure hs
  · rename_i hassigned
    obtain ⟨socket, hptr⟩ := hs.assigned fd hassigned
    refine safe_load hi hs.defined hptr ?_
    split
    · exact .pure hs
    · exact sendto_keeps dev hs hi buf _ _ attempts

theorem sendmsg_keeps (msg : Msghdr) (tempBuffer : ℕ → BitVec 8) (passes attempts : ℕ) :
    Keeps (sendmsg dev i msg tempBuffer passes attempts) t := by
  unfold sendmsg
  split
  · exact .pure hs
  · refine safe_status hi hs.defined ?_
    split
    · exact .pure hs
    · split
      · exact .pure hs
      · exact .pure hs
      · exact sendto_keeps dev hs hi _ _ _ attempts

omit hs hi

theorem fdOf_natCast {n : ℕ} (hn : n < maxUdpPorts) : fdOf n = some ⟨n, hn⟩ := by
  unfold fdOf
  rw [dif_pos ⟨Int.natCast_nonneg n, Int.ofNat_lt.mpr hn⟩]
  rfl

/-- The loop over the descriptors, below the end of the table. -/
theorem selectScan_keeps (hs : Sound t) {n : ℕ} (hn : n ≤ maxUdpPorts) (readfds : ℕ → Bool) :
    Keeps (selectScan dev n readfds) t := by
  induction n with
  | zero => exact .pure hs
  | succ n ih =>
    refine Program.Safe.bind ((ih (Nat.le_of_succ_le hn)).mono fun found t' hs' => ?_)
    have hfd := fdOf_natCast hn
    refine safe_status hfd hs'.defined ?_
    split
    · exact .pure hs'
    · rename_i hbound
      obtain ⟨socket, hptr⟩ := hs'.assigned ⟨n, hn⟩ (by rw [not_not.mp hbound]; exact nofun)
      refine safe_load hfd hs'.defined hptr (safe_onDevice _ hs'.defined fun ready => ?_)
      split <;> exact .pure hs'

theorem selectPasses_keeps (hs : Sound t) {nfds : ℤ} (hnfds : nfds ≤ maxUdpPorts) (expired : ℕ → Bool)
    (pass passes : ℕ) (readfds : ℕ → Bool) : Keeps (selectPasses dev nfds expired pass passes readfds) t := by
  induction passes generalizing t pass readfds with
  | zero => exact .pure hs
  | succ passes ih =>
    have hn : nfds.toNat ≤ maxUdpPorts := Int.toNat_le.mpr hnfds
    refine Program.Safe.bind ((selectScan_keeps dev hs hn readfds).mono fun found t' hs' => ?_)
    split
    · exact .pure hs'
    · split
      · exact .pure hs'
      · exact ih hs' (pass + 1) found.2

theorem select_keeps (hs : Sound t) {nfds : ℤ} {readfds : Option (ℕ → Bool)}
    (hnfds : readfds = none ∨ nfds ≤ maxUdpPorts) (expired : ℕ → Bool) (more : ℕ) :
    Keeps (select dev nfds readfds expired more) t := by
  cases readfds with
  | none => exact .pure hs
  | some readfds =>
    have hle := hnfds.resolve_left (Option.some_ne_none readfds)
    exact Program.Safe.bind ((selectPasses_keeps dev hs hle expired 0 (more + 1) _).mono fun _ _ hs' => .pure hs')

/-- The loop over the entries of an instance, which are in the table. -/
theorem epollScan_keeps (hs : Sound t) {fds : List ListedFd}
    (hfds : ∀ entry ∈ fds, ∃ fd, fdOf entry.sockfd = some fd) (wanted : ℕ) : Keeps (epollScan dev fds wanted) t := by
  induction fds generalizing wanted with
  | nil => exact .pure hs
  | cons entry rest ih =>
    have hrest := fun other hother => hfds other (List.mem_cons_of_mem entry hother)
    obtain ⟨fd, hfd⟩ := hfds entry List.mem_cons_self
    cases wanted with
    | zero => exact .pure hs
    | succ wanted =>
      refine safe_status hfd hs.defined ?_
      split
      · exact ih hrest (wanted + 1)
      · rename_i hbound
        obtain ⟨socket, hptr⟩ := hs.assigned fd (by rw [not_not.mp hbound]; exact nofun)
        refine safe_load hfd hs.defined hptr (safe_onDevice _ hs.defined fun ready => ?_)
        split
        · exact Program.Safe.bind ((ih hrest wanted).mono fun _ _ hs' => .pure hs')
        · exact ih hrest (wanted + 1)

theorem epollPasses_keeps (hs : Sound t) {fds : List ListedFd}
    (hfds : ∀ entry ∈ fds, ∃ fd, fdOf entry.sockfd = some fd) (maxevents timeout : ℤ) (expired : ℕ → Bool)
    (pass passes : ℕ) : Keeps (epollPasses dev fds maxevents timeout expired pass passes) t := by
  induction passes generalizing t pass with
  | zero => exact .pure hs
  | succ passes ih =>
    refine Program.Safe.bind ((epollScan_keeps dev hs hfds maxevents.toNat).mono fun events t' hs' => ?_)
    split
    · exact .pure hs'
    · split
      · exact .pure hs'
      · split
        · exact .pure hs'
        · exact ih hs' (pass + 1)

theorem epollWait_keeps (hs : Sound t) (epfd maxevents timeout : ℤ) (expired : ℕ → Bool) (passes : ℕ) :
    Keeps (epollWait dev epfd maxevents timeout expired passes) t := by
  unfold epollWait
  split
  · exact .pure hs
  · rename_i id _
    refine safe_listed hs.defined ?_
    split
    · exact .pure hs
    · rename_i fds hlisted
      have hfds := hs.listed id fds hlisted
      exact Program.Safe.bind
        ((epollPasses_keeps dev hs hfds maxevents timeout expired 0 passes).mono fun _ _ hs' => .pure hs')

end InRange

end DescriptorTable

end UdpIpCore
