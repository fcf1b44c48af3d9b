import UdpIpCore.Userspace.SocketMirror

/-!
# Polling the sockets

The entries of the epoll instances are kept twice: in the instance, and as one back
pointer of the descriptor. A `close` removes the entry the back pointer leads to, so the
two agree only as long as a descriptor is in one instance at a time. What `epoll_wait`
reports are entries whose control word was read with the empty bit low, which is the word
of a ring if the port has one.
-/

namespace UdpIpCore

open Interaction

namespace SocketLayer

open Udriver

/-- An instance has an entry for a descriptor. -/
def Contains (l : SocketLayer) (id : Fin maxEpollFds) (fd : Fd) : Prop :=
  ∃ entries, l.epollInstances id = some entries ∧ ∃ entry ∈ entries, entry.sockfd = fd

/-- The entries of an instance are for different descriptors, and there are not too many. -/
structure WellFormed (l : SocketLayer) : Prop where
  distinct : ∀ id entries, l.epollInstances id = some entries → (entries.map EpollEntry.sockfd).Nodup
  bounded : ∀ id entries, l.epollInstances id = some entries → entries.length ≤ maxEpollFds

variable {l : SocketLayer}

/-- Only the instances matter. -/
theorem WellFormed.congr (h : l.WellFormed) {l' : SocketLayer} (heq : l'.epollInstances = l.epollInstances) :
    l'.WellFormed := ⟨heq ▸ h.distinct, heq ▸ h.bounded⟩

/-- An instance is replaced. -/
theorem WellFormed.setInstance (h : l.WellFormed) {id : Fin maxEpollFds} {entries : List EpollEntry}
    (hdistinct : (entries.map EpollEntry.sockfd).Nodup) (hbounded : entries.length ≤ maxEpollFds) :
    (l.setInstance id entries).WellFormed := by
  have hcases (other : Fin maxEpollFds) (listed : List EpollEntry)
      (hlisted : (l.setInstance id entries).epollInstances other = some listed) :
      listed = entries ∨ l.epollInstances other = some listed := by
    have hnext : (l.setInstance id entries).epollInstances other =
      if other = id then some entries else l.epollInstances other := rfl
    rw [hnext] at hlisted
    split at hlisted
    · exact Or.inl (Option.some.inj hlisted).symm
    · exact Or.inr hlisted
  constructor
  · intro other listed hlisted
    rcases hcases other listed hlisted with rfl | hold
    · exact hdistinct
    · exact h.distinct other listed hold
  · intro other listed hlisted
    rcases hcases other listed hlisted with rfl | hold
    · exact hbounded
    · exact h.bounded other listed hold

/-- After an instance is dropped, the others are listed as before. -/
theorem clearInstance_eq_some {id other : Fin maxEpollFds} {listed : List EpollEntry}
    (hlisted : (l.clearInstance id).epollInstances other = some listed) : l.epollInstances other = some listed := by
  have hnext : (l.clearInstance id).epollInstances other = if other = id then none else l.epollInstances other := rfl
  rw [hnext] at hlisted
  split at hlisted
  · exact nomatch hlisted
  · exact hlisted

/-- An instance is dropped. -/
theorem WellFormed.clearInstance (h : l.WellFormed) (id : Fin maxEpollFds) : (l.clearInstance id).WellFormed where
  distinct other listed hlisted := h.distinct other listed (clearInstance_eq_some hlisted)
  bounded other listed hlisted := h.bounded other listed (clearInstance_eq_some hlisted)

/-- The instance that `epoll_ctl` works on is one of the instances. -/
theorem epollInstance_eq_some {epfd : ℤ} {id : Fin maxEpollFds} {entries : List EpollEntry} :
    l.epollInstance epfd = some (id, entries) ↔ (id : ℤ) = epfd ∧ l.epollInstances id = some entries := by
  unfold epollInstance
  constructor
  · intro h
    split at h
    · rename_i hrange
      obtain ⟨listed, hlisted, hpair⟩ := Option.map_eq_some_iff.mp h
      obtain ⟨rfl, rfl⟩ := Prod.mk.inj hpair
      exact ⟨Int.toNat_of_nonneg hrange.1, hlisted⟩
    · exact absurd h (by simp)
  · rintro ⟨rfl, hentries⟩
    have hrange : 0 ≤ (id : ℤ) ∧ (id : ℤ) < maxEpollFds := ⟨by omega, by exact_mod_cast id.isLt⟩
    rw [dif_pos hrange]
    simp [hentries]

/-- `epoll_ctl` keeps the instances well formed. -/
theorem WellFormed.epollCtl (h : l.WellFormed) (epfd op : ℤ) (fd : Fd) (data : BitVec 64) (events : BitVec 32) :
    (l.epollCtl epfd op fd data events).2.WellFormed := by
  unfold SocketLayer.epollCtl
  split
  · exact h
  · rename_i id entries hinstance
    have hentries := (epollInstance_eq_some.mp hinstance).2
    have hfd (epfd' : ℤ) : (l.setFd fd { l.socketFds fd with epfd := epfd' }).WellFormed := h.congr rfl
    split
    · split
      · exact h
      · rename_i hnew
        split
        · exact h
        · rename_i hroom
          refine (hfd epfd).setInstance ?_ ?_
          · rw [List.map_append, List.nodup_append]
            refine ⟨h.distinct _ _ hentries, List.pairwise_singleton _ _, ?_⟩
            intro a ha b hb heq
            obtain ⟨entry, hentry, rfl⟩ := List.mem_map.mp ha
            obtain rfl := List.mem_singleton.mp hb
            exact hnew (List.any_eq_true.mpr ⟨entry, hentry, decide_eq_true heq⟩)
          · rw [List.length_append, List.length_singleton]
            omega
    · split
      · split
        · refine (hfd (-1)).setInstance ?_ ?_
          · exact (h.distinct _ _ hentries).sublist (List.eraseP_sublist.map _)
          · exact (List.length_eraseP_le).trans (h.bounded _ _ hentries)
        · exact h
      · exact h

/-- `epoll_create` starts with an empty instance. -/
theorem WellFormed.epollCreate (h : l.WellFormed) (opened : Option Fd) (allocated : Bool) :
    (l.epollCreate opened allocated).2.WellFormed := by
  unfold SocketLayer.epollCreate
  split
  · exact h
  · split
    · split
      · exact h.setInstance List.nodup_nil (Nat.zero_le _)
      · exact h.clearInstance _
    · exact h

/-- The layer in which `shutdown` looks for the entry. -/
theorem shutdownLayer_eq (l : SocketLayer) (sockfd : Fd) (how : ℤ) : ∃ l' : SocketLayer, l'.epollInstances = l.epollInstances ∧
    l.shutdownLayer sockfd how =
      if (l.socketFds sockfd).epfd ≠ -1 then (l'.epollCtl (l.socketFds sockfd).epfd epollCtlDel sockfd 0 0).2 else l' := by
  refine ⟨if how = shutWr ∨ how = shutRdwr then
    l.setSocket sockfd { (l.socketFds sockfd).socket with destIp := 0, destPort := 0 } else l, ?_, rfl⟩
  split <;> rfl

/-- `shutdown` removes at most one entry. -/
theorem WellFormed.shutdownLayer (h : l.WellFormed) (sockfd : Fd) (how : ℤ) : (l.shutdownLayer sockfd how).WellFormed := by
  obtain ⟨l', hsame, heq⟩ := shutdownLayer_eq l sockfd how
  rw [heq]
  split
  · exact (h.congr hsame).epollCtl _ _ _ _ _
  · exact h.congr hsame

/-- Where the entries are for different descriptors, no entry for a descriptor is left once one was removed. -/
theorem sockfd_ne_of_mem_eraseP {entries : List EpollEntry} (h : (entries.map EpollEntry.sockfd).Nodup) {fd : Fd}
    {entry : EpollEntry} (hmem : entry ∈ entries.eraseP fun entry => entry.sockfd = fd) : entry.sockfd ≠ fd := by
  induction entries with
  | nil => exact absurd hmem (by simp)
  | cons first rest ih =>
    rw [List.map_cons, List.nodup_cons] at h
    rw [List.eraseP_cons] at hmem
    by_cases hfirst : first.sockfd = fd
    · rw [decide_eq_true hfirst, cond_true] at hmem
      intro heq
      exact h.1 (hfirst.trans heq.symm ▸ List.mem_map_of_mem hmem)
    · rw [decide_eq_false hfirst, cond_false, List.mem_cons] at hmem
      rcases hmem with rfl | hrest
      · exact hfirst
      · exact ih h.2 hrest

/-- `EPOLL_CTL_DEL` removes the entry of the descriptor from one instance. -/
theorem contains_epollCtl_del (h : l.WellFormed) (epfd : ℤ) (fd : Fd) (data : BitVec 64) (events : BitVec 32)
    (id : Fin maxEpollFds) :
    (l.epollCtl epfd epollCtlDel fd data events).2.Contains id fd ↔ l.Contains id fd ∧ (id : ℤ) ≠ epfd := by
  unfold epollCtl
  split
  · rename_i hnone
    refine ⟨fun hcontains => ⟨hcontains, ?_⟩, And.left⟩
    rintro rfl
    obtain ⟨entries, hentries, -⟩ := hcontains
    rw [epollInstance_eq_some.mpr ⟨rfl, hentries⟩] at hnone
    exact absurd hnone (by simp)
  · rename_i id' entries hinstance
    obtain ⟨rfl, hentries⟩ := epollInstance_eq_some.mp hinstance
    rw [if_neg (by decide), if_pos rfl]
    split
    · have hafter (other : Fin maxEpollFds) :
          ((l.setFd fd { l.socketFds fd with epfd := -1 }).setInstance id'
            (entries.eraseP fun entry => entry.sockfd = fd)).epollInstances other =
          if other = id' then some (entries.eraseP fun entry => entry.sockfd = fd) else l.epollInstances other := rfl
      unfold Contains
      rw [hafter]
      by_cases hid : id = id'
      · subst hid
        rw [if_pos rfl]
        refine iff_of_false ?_ fun hboth => hboth.2 rfl
        rintro ⟨listed, hlisted, entry, hentry, hfd⟩
        obtain rfl := Option.some.inj hlisted
        exact sockfd_ne_of_mem_eraseP (h.distinct _ _ hentries) hentry hfd
      · rw [if_neg hid]
        have hne : (id : ℤ) ≠ (id' : ℤ) := by omega
        exact ⟨fun hcontains => ⟨hcontains, hne⟩, And.left⟩
    · rename_i hnot
      refine ⟨fun hcontains => ⟨hcontains, fun heq => hnot ?_⟩, And.left⟩
      obtain ⟨listed, hlisted, entry, hentry, hfd⟩ := hcontains
      obtain rfl : id = id' := by omega
      obtain rfl := Option.some.inj (hlisted.symm.trans hentries)
      exact List.any_eq_true.mpr ⟨entry, hentry, decide_eq_true hfd⟩

/-- An entry of a layer with one instance replaced. -/
theorem contains_setInstance {id id' : Fin maxEpollFds} {entries : List EpollEntry} {fd : Fd}
    (h : (l.setInstance id' entries).Contains id fd) :
    l.Contains id fd ∨ id = id' ∧ ∃ entry ∈ entries, entry.sockfd = fd := by
  obtain ⟨listed, hlisted, hentry⟩ := h
  have hnext : (l.setInstance id' entries).epollInstances id =
    if id = id' then some entries else l.epollInstances id := rfl
  rw [hnext] at hlisted
  split at hlisted
  · rename_i hid
    obtain rfl := Option.some.inj hlisted
    exact Or.inr ⟨hid, hentry⟩
  · exact Or.inl ⟨listed, hlisted, hentry⟩

/-- `epoll_ctl` adds an entry only for `EPOLL_CTL_ADD`. -/
theorem contains_epollCtl {epfd op : ℤ} {fd other : Fd} {data : BitVec 64} {events : BitVec 32} {id : Fin maxEpollFds}
    (h : (l.epollCtl epfd op other data events).2.Contains id fd) :
    l.Contains id fd ∨ op = epollCtlAdd ∧ other = fd := by
  unfold epollCtl at h
  split at h
  · exact Or.inl h
  · rename_i id' entries hinstance
    have hentries := (epollInstance_eq_some.mp hinstance).2
    split at h
    · rename_i hadd
      split at h
      · exact Or.inl h
      · split at h
        · exact Or.inl h
        · obtain hold | ⟨rfl, entry, hentry, hfd⟩ := contains_setInstance h
          · exact Or.inl hold
          · rcases List.mem_append.mp hentry with hold | hnew
            · exact Or.inl ⟨entries, hentries, entry, hold, hfd⟩
            · obtain rfl := List.mem_singleton.mp hnew
              exact Or.inr ⟨hadd, hfd⟩
    · split at h
      · split at h
        · obtain hold | ⟨rfl, entry, hentry, hfd⟩ := contains_setInstance h
          · exact Or.inl hold
          · exact Or.inl ⟨entries, hentries, entry, List.mem_of_mem_eraseP hentry, hfd⟩
        · exact Or.inl h
      · exact Or.inl h

/-- `epoll_ctl` neither creates nor removes an instance. -/
theorem isSome_epollCtl (epfd op : ℤ) (fd : Fd) (data : BitVec 64) (events : BitVec 32) (id : Fin maxEpollFds) :
    ((l.epollCtl epfd op fd data events).2.epollInstances id).isSome = (l.epollInstances id).isSome := by
  unfold epollCtl
  split
  · rfl
  · rename_i id' entries hinstance
    have hentries := (epollInstance_eq_some.mp hinstance).2
    have hset (l' : SocketLayer) (hl' : l'.epollInstances = l.epollInstances) (listed : List EpollEntry) :
        ((l'.setInstance id' listed).epollInstances id).isSome = (l.epollInstances id).isSome := by
      have hnext : (l'.setInstance id' listed).epollInstances id =
        if id = id' then some listed else l'.epollInstances id := rfl
      rw [hnext, hl']
      split
      · rename_i hid
        rw [hid, hentries]
        rfl
      · rfl
    split
    · split
      · rfl
      · split
        · rfl
        · exact hset _ rfl _
    · split
      · split
        · exact hset _ rfl _
        · rfl
      · rfl

/-- Only the instances matter. -/
theorem contains_congr {l' : SocketLayer} (heq : l'.epollInstances = l.epollInstances) (id : Fin maxEpollFds) (fd : Fd) :
    l'.Contains id fd ↔ l.Contains id fd := by
  rw [Contains, Contains, heq]

/-- After a `shutdown` a descriptor has no entry in the instance of its back pointer. -/
theorem contains_shutdownLayer (h : l.WellFormed) (fd : Fd) (how : ℤ) (id : Fin maxEpollFds) :
    (l.shutdownLayer fd how).Contains id fd ↔ l.Contains id fd ∧ (id : ℤ) ≠ (l.socketFds fd).epfd := by
  obtain ⟨l', hsame, heq⟩ := shutdownLayer_eq l fd how
  rw [heq]
  by_cases hepfd : (l.socketFds fd).epfd = -1
  · rw [if_neg (not_not.mpr hepfd), contains_congr hsame]
    exact ⟨fun hcontains => ⟨hcontains, by omega⟩, And.left⟩
  · rw [if_pos hepfd, contains_epollCtl_del (h.congr hsame), contains_congr hsame]

/-- A `shutdown` neither creates nor removes an instance. -/
theorem isSome_shutdownLayer (fd : Fd) (how : ℤ) (id : Fin maxEpollFds) :
    ((l.shutdownLayer fd how).epollInstances id).isSome = (l.epollInstances id).isSome := by
  obtain ⟨l', hsame, heq⟩ := shutdownLayer_eq l fd how
  rw [heq]
  split
  · rw [isSome_epollCtl, hsame]
  · rw [hsame]

/-- No instance has an entry for the descriptor, and it is not an instance itself. -/
structure Forgotten (l : SocketLayer) (fd : Fd) : Prop where
  entries : ∀ id, ¬ l.Contains id fd
  notInstance : l.epollInstance fd = none

/-- The descriptor is not an instance, and if some instance has an entry for it then the library closes it and its back
pointer leads to that instance. -/
structure Forgettable (l : SocketLayer) (fd : Fd) (libc : LibcClose) : Prop where
  notInstance : l.epollInstance fd = none
  tracked : ∀ id, l.Contains id fd →
    libc.resolved = true ∧ (l.socketFds fd).status ≠ .notAssigned ∧ (l.socketFds fd).epfd = id

/-- An instance exists or not. -/
theorem epollInstance_eq_none {l l' : SocketLayer}
    (h : ∀ id, (l'.epollInstances id).isSome = (l.epollInstances id).isSome) (epfd : ℤ) :
    l'.epollInstance epfd = none ↔ l.epollInstance epfd = none := by
  have hnone (l : SocketLayer) : l.epollInstance epfd = none ↔ ∀ id : Fin maxEpollFds, (id : ℤ) = epfd →
      (l.epollInstances id).isSome = false := by
    rw [Option.eq_none_iff_forall_ne_some]
    constructor
    · intro hall id hid
      by_contra hsome
      obtain ⟨entries, hentries⟩ := Option.isSome_iff_exists.mp (by rwa [Bool.not_eq_false] at hsome)
      exact hall (id, entries) (epollInstance_eq_some.mpr ⟨hid, hentries⟩)
    · rintro hall ⟨id, entries⟩ hinstance
      obtain ⟨hid, hentries⟩ := epollInstance_eq_some.mp hinstance
      have := hall id hid
      rw [hentries] at this
      exact absurd this (by simp)
  rw [hnone, hnone]
  simp only [h]

section Run

variable (dev : UdpIpDevice) (h : UserHost)

/-- What `close` leaves of the instances. -/
theorem run_close_of_assigned {fd : Fd} {libc : LibcClose} (hresolved : libc.resolved = true)
    (hstatus : (l.socketFds fd).status ≠ .notAssigned) :
    (h.run (l.close dev fd libc)).1.2.epollInstances = (l.shutdownLayer fd shutRdwr).epollInstances := by
  have hshutdown := (run_shutdown dev h (l := l) hstatus (Or.inr (Or.inr rfl : shutRdwr = shutWr ∨ shutRdwr = shutRdwr))).1
  rw [close, if_neg (by simp [hresolved]), if_neg hstatus, UserHost.run_bind, hshutdown]
  rfl

/-- A `close` that is refused or forwarded changes nothing. -/
theorem run_close_of_not {fd : Fd} {libc : LibcClose}
    (hnot : libc.resolved = false ∨ (l.socketFds fd).status = .notAssigned) :
    (h.run (l.close dev fd libc)).1.2 = l := by
  rw [close]
  cases hresolved : libc.resolved with
  | false => rfl
  | true =>
    rcases hnot with hunresolved | hstatus
    · exact absurd (hresolved.symm.trans hunresolved) (by simp)
    · rw [if_neg (by simp), if_pos hstatus]
      rfl

/-- A closed descriptor is forgotten exactly if its entries are where its back pointer leads to. -/
theorem forgotten_close_iff (hl : l.WellFormed) (fd : Fd) (libc : LibcClose) :
    (h.run (l.close dev fd libc)).1.2.Forgotten fd ↔ l.Forgettable fd libc := by
  by_cases hforwarded : libc.resolved = false ∨ (l.socketFds fd).status = .notAssigned
  · rw [run_close_of_not dev h hforwarded]
    constructor
    · exact fun hforgotten => ⟨hforgotten.notInstance, fun id hid => absurd hid (hforgotten.entries id)⟩
    · refine fun hforgettable => ⟨fun id hid => ?_, hforgettable.notInstance⟩
      obtain ⟨hresolved, hstatus, -⟩ := hforgettable.tracked id hid
      rcases hforwarded with hunresolved | hunassigned
      · exact absurd (hresolved.symm.trans hunresolved) (by simp)
      · exact hstatus hunassigned
  · simp only [not_or, Bool.not_eq_false] at hforwarded
    obtain ⟨hresolved, hstatus⟩ := hforwarded
    have hinstances := run_close_of_assigned dev h hresolved hstatus
    have hsame (id : Fin maxEpollFds) : ((h.run (l.close dev fd libc)).1.2.epollInstances id).isSome =
        (l.epollInstances id).isSome := by rw [hinstances, isSome_shutdownLayer]
    have hnone := epollInstance_eq_none hsame fd
    have hcontains (id : Fin maxEpollFds) : (h.run (l.close dev fd libc)).1.2.Contains id fd ↔
        l.Contains id fd ∧ (id : ℤ) ≠ (l.socketFds fd).epfd := by
      rw [contains_congr hinstances, contains_shutdownLayer hl]
    constructor
    · intro hforgotten
      refine ⟨hnone.mp hforgotten.notInstance, fun id hid => ⟨hresolved, hstatus, ?_⟩⟩
      by_contra hepfd
      exact hforgotten.entries id ((hcontains id).mpr ⟨hid, fun heq => hepfd heq.symm⟩)
    · intro hforgettable
      refine ⟨fun id hid => ?_, hnone.mpr hforgettable.notInstance⟩
      obtain ⟨hentry, hepfd⟩ := (hcontains id).mp hid
      exact hepfd (hforgettable.tracked id hentry).2.2.symm

/-- Binding leaves the instances. -/
theorem run_bind_instances (sockfd : Fd) (addr : SockaddrIn) (addrlen : BitVec 32) :
    (h.run (l.bind dev sockfd addr addrlen)).1.2.epollInstances = l.epollInstances := by
  by_cases hbinds : l.Binds sockfd addr addrlen
  · rw [run_bind_eq dev h hbinds]
    rfl
  · obtain ⟨e, heq⟩ := run_bind_of_not_binds dev h hbinds
    rw [heq]

/-- Sending leaves the instances. -/
theorem run_sendto_instances (sockfd : Fd) (buf : List (BitVec 8)) (destAddr : SockaddrIn) (addrlen : BitVec 32)
    (attempts : ℕ) : (h.run (l.sendto dev sockfd buf destAddr addrlen attempts)).1.2.epollInstances = l.epollInstances := by
  rw [sendto]
  split
  · rfl
  · split
    · rw [UserHost.run_bind]
      split
      · exact run_bind_instances dev h sockfd ephemeral sizeofSockaddrIn
      · rw [(run_sendtoBound _ sockfd buf destAddr addrlen attempts).1]
        exact run_bind_instances dev h sockfd ephemeral sizeofSockaddrIn
    · rw [(run_sendtoBound _ sockfd buf destAddr addrlen attempts).1]

/-- What a call does to the instances. -/
theorem instances_cases (call : ApiCall) :
    (h.run (call.code dev l)).1.2.epollInstances = l.epollInstances ∨
    (∃ fd how, (h.run (call.code dev l)).1.2.epollInstances = (l.shutdownLayer fd how).epollInstances) ∨
    (∃ opened allocated, (h.run (call.code dev l)).1.2 = (l.epollCreate opened allocated).2) ∨
    ∃ epfd op fd data events, call = .epollCtl epfd op fd data events ∧
      (h.run (call.code dev l)).1.2 = (l.epollCtl epfd op fd data events).2 := by
  have hreturned (p : UserCode (Outcome × SocketLayer)) :
      (h.run (p >>= fun r => pure (returned r))).1.2 = (h.run p).1.2 := by
    rw [UserHost.run_bind]
    rfl
  cases call with
  | socket domain type opened allocated =>
    refine Or.inl ?_
    change (l.socket domain type opened allocated).2.epollInstances = _
    unfold SocketLayer.socket fdCreate
    split
    · rfl
    · cases l.fdsGetFreeFd opened <;> cases allocated <;> rfl
  | shutdown sockfd how =>
    change (h.run (l.shutdown dev sockfd how >>= fun r => pure (returned r))).1.2.epollInstances = _ ∨ _
    by_cases hfail : (l.socketFds sockfd).status = .notAssigned ∨ how ≠ shutWr ∧ how ≠ shutRd ∧ how ≠ shutRdwr
    · obtain ⟨e, heq⟩ := run_shutdown_fail dev h hfail
      rw [hreturned, heq]
      exact Or.inl rfl
    · rw [not_or] at hfail
      refine Or.inr (Or.inl ⟨sockfd, how, ?_⟩)
      change (h.run (l.shutdown dev sockfd how >>= fun r => pure (returned r))).1.2.epollInstances = _
      rw [hreturned, (run_shutdown dev h hfail.1 (by tauto)).1]
  | close fd libc =>
    by_cases hforwarded : libc.resolved = false ∨ (l.socketFds fd).status = .notAssigned
    · refine Or.inl ?_
      change (h.run (l.close dev fd libc >>= fun r => pure (returned r))).1.2.epollInstances = _
      rw [hreturned, run_close_of_not dev h hforwarded]
    · rw [not_or, Bool.not_eq_false] at hforwarded
      refine Or.inr (Or.inl ⟨fd, shutRdwr, ?_⟩)
      change (h.run (l.close dev fd libc >>= fun r => pure (returned r))).1.2.epollInstances = _
      rw [hreturned]
      exact run_close_of_assigned dev h hforwarded.1 hforwarded.2
  | bind sockfd addr addrlen =>
    refine Or.inl ?_
    change (h.run (l.bind dev sockfd addr addrlen >>= fun r => pure (returned r))).1.2.epollInstances = _
    rw [hreturned]
    exact run_bind_instances dev h sockfd addr addrlen
  | connect sockfd addr addrlen =>
    refine Or.inl ?_
    change (l.connect sockfd addr addrlen).2.epollInstances = _
    unfold SocketLayer.connect
    dsimp only
    split
    · rfl
    · split <;> rfl
  | setsockopt sockfd level optname =>
    refine Or.inl ?_
    change (l.setsockopt sockfd level optname).2.epollInstances = _
    unfold SocketLayer.setsockopt
    dsimp only
    split
    · rfl
    · split <;> rfl
  | sendto sockfd buf destAddr addrlen attempts =>
    exact Or.inl (run_sendto_instances dev h sockfd buf destAddr addrlen attempts)
  | send sockfd buf attempts =>
    refine Or.inl ?_
    change (h.run (l.send dev sockfd buf attempts)).1.2.epollInstances = _
    rw [send]
    split
    · rfl
    · split
      · rfl
      · exact run_sendto_instances dev h sockfd buf _ _ attempts
  | epollCreate opened allocated => exact Or.inr (Or.inr (Or.inl ⟨opened, allocated, rfl⟩))
  | epollCtl epfd op fd data events => exact Or.inr (Or.inr (Or.inr ⟨epfd, op, fd, data, events, rfl, rfl⟩))

/-- Every call keeps the instances well formed. -/
theorem WellFormed.run_call (hl : l.WellFormed) (call : ApiCall) : (h.run (call.code dev l)).1.2.WellFormed := by
  obtain hsame | ⟨fd, how, hshut⟩ | ⟨opened, allocated, hcreate⟩ | ⟨epfd, op, fd, data, events, -, hctl⟩ :=
    instances_cases (l := l) dev h call
  · exact hl.congr hsame
  · exact (hl.shutdownLayer fd how).congr hshut
  · exact hcreate ▸ hl.epollCreate opened allocated
  · exact hctl ▸ hl.epollCtl epfd op fd data events

/-- The call asks for an entry for a descriptor. -/
def Adds (call : ApiCall) (fd : Fd) : Prop :=
  ∃ epfd data events, call = .epollCtl epfd epollCtlAdd fd data events

/-- An instance gets an entry only by being asked for it. -/
theorem contains_run_call (call : ApiCall) {id : Fin maxEpollFds} {fd : Fd}
    (hcontains : (h.run (call.code dev l)).1.2.Contains id fd) : l.Contains id fd ∨ Adds call fd := by
  obtain hsame | ⟨other, how, hshut⟩ | ⟨opened, allocated, hcreate⟩ | ⟨epfd, op, other, data, events, hcall, hctl⟩ :=
    instances_cases (l := l) dev h call
  · exact Or.inl ((contains_congr hsame id fd).mp hcontains)
  · obtain ⟨l', hsame, heq⟩ := shutdownLayer_eq l other how
    have hbefore : (l.shutdownLayer other how).Contains id fd := (contains_congr hshut id fd).mp hcontains
    rw [heq] at hbefore
    split at hbefore
    · obtain hold | ⟨hadd, -⟩ := contains_epollCtl hbefore
      · exact Or.inl ((contains_congr hsame id fd).mp hold)
      · exact absurd hadd (by decide)
    · exact Or.inl ((contains_congr hsame id fd).mp hbefore)
  · rw [hcreate, epollCreate] at hcontains
    split at hcontains
    · exact Or.inl hcontains
    · split at hcontains
      · split at hcontains
        · obtain hold | ⟨-, entry, hentry, -⟩ := contains_setInstance hcontains
          · exact Or.inl hold
          · exact absurd hentry (by simp)
        · obtain ⟨entries, hentries, hentry⟩ := hcontains
          exact Or.inl ⟨entries, clearInstance_eq_some hentries, hentry⟩
      · exact Or.inl hcontains
  · rw [hctl] at hcontains
    obtain hold | ⟨rfl, rfl⟩ := contains_epollCtl hcontains
    · exact Or.inl hold
    · exact Or.inr ⟨epfd, data, events, hcall⟩

/-- A word that shows data in the ring of a port was read. -/
def Probed (reads : List (RegAddr × BitVec 32)) (port : BitVec 16) : Prop :=
  ∃ word, (ConfigRegs.bufferRxCtrl (bufferId dev (port.setWidth 32)).toNat, word) ∈ reads ∧
    word.getLsbD bufferEmptyOffset = false

/-- The events are those of some entries of the instance, in order; each entry is for a bound socket whose control word
was read with data in the ring. -/
def Reports (l : SocketLayer) (entries : List EpollEntry) (reads : List (RegAddr × BitVec 32)) (events : List EpollEvent) :
    Prop :=
  ∃ chosen : List EpollEntry, chosen.Sublist entries ∧ events = chosen.map (fun entry => ⟨entry.data, epollIn⟩) ∧
    ∀ entry ∈ chosen, (l.socketFds entry.sockfd).status = .bound ∧
      Probed dev reads (l.socketFds entry.sockfd).socket.srcPort

/-- More words may have been read. -/
theorem Reports.mono {dev : UdpIpDevice} {entries : List EpollEntry} {reads reads' : List (RegAddr × BitVec 32)}
    {events : List EpollEvent} (hreports : l.Reports dev entries reads events) (hsub : reads ⊆ reads') :
    l.Reports dev entries reads' events := by
  obtain ⟨chosen, hchosen, hevents, hall⟩ := hreports
  refine ⟨chosen, hchosen, hevents, fun entry hentry => ⟨(hall entry hentry).1, ?_⟩⟩
  obtain ⟨word, hword, hempty⟩ := (hall entry hentry).2
  exact ⟨word, hsub hword, hempty⟩

/-- A probe that finds data. -/
theorem probed_of_run {port : BitVec 16} (hready : (h.run (udriverProbePort dev (port.setWidth 32))).1 = some true) :
    Probed dev (h.reads (udriverProbePort dev (port.setWidth 32))) port := by
  rw [Probed, ← setWidth_bufferRxCtrlBaseOffset]
  by_cases hmapped : Mapped dev (port.setWidth 32)
  · rw [udriverProbePort, if_pos hmapped] at hready ⊢
    exact ⟨_, List.mem_singleton_self _, (Bool.not_eq_true' _).mp (Option.some.inj hready)⟩
  · rw [udriverProbePort, if_neg hmapped] at hready
    exact absurd hready.symm (Option.some_ne_none true)

/-- One pass over the entries. -/
theorem run_epollScan (entries : List EpollEntry) (wanted : ℕ) (events : List EpollEvent)
    (hevents : (h.run (l.epollScan dev entries wanted)).1 = some events) :
    l.Reports dev entries (h.reads (l.epollScan dev entries wanted)) events := by
  induction entries generalizing wanted h events with
  | nil =>
    obtain rfl := Option.some.inj hevents
    exact ⟨[], List.Sublist.refl _, rfl, fun _ hmem => absurd hmem (by simp)⟩
  | cons entry rest ih =>
    cases wanted with
    | zero =>
      obtain rfl := Option.some.inj hevents
      exact ⟨[], List.nil_sublist _, rfl, fun _ hmem => absurd hmem (by simp)⟩
    | succ wanted =>
      rw [epollScan] at hevents ⊢
      split at hevents
      · rename_i hunbound
        rw [if_pos hunbound]
        obtain ⟨chosen, hsub, hchosenEvents, hchosen⟩ := ih h (wanted + 1) events hevents
        exact ⟨chosen, hsub.cons _, hchosenEvents, hchosen⟩
      · rename_i hbound
        rw [if_neg hbound]
        rw [UserHost.run_bind] at hevents
        rw [UserHost.reads_bind]
        cases hprobe : (h.run (udriverProbePort dev ((l.socketFds entry.sockfd).socket.srcPort.setWidth 32))).1 with
        | none =>
          rw [hprobe] at hevents
          exact absurd hevents.symm (Option.some_ne_none events)
        | some ready =>
          rw [hprobe] at hevents
          cases ready with
          | true =>
            dsimp only at hevents ⊢
            rw [UserHost.run_bind] at hevents
            rw [UserHost.reads_bind]
            obtain ⟨found, hfound, rfl⟩ := Option.map_eq_some_iff.mp hevents
            obtain ⟨chosen, hsub, hchosenEvents, hchosen⟩ := (ih _ wanted found hfound).mono (List.subset_append_right
              (h.reads (udriverProbePort dev ((l.socketFds entry.sockfd).socket.srcPort.setWidth 32))) _)
            refine ⟨entry :: chosen, hsub.cons_cons _, by rw [hchosenEvents, List.map_cons], ?_⟩
            intro chosenEntry hmem
            rcases List.mem_cons.mp hmem with rfl | hrest
            · obtain ⟨word, hword, hempty⟩ := probed_of_run dev h hprobe
              exact ⟨not_not.mp hbound, word, List.mem_append_left _ hword, hempty⟩
            · obtain ⟨hstatus, word, hword, hempty⟩ := hchosen chosenEntry hrest
              refine ⟨hstatus, word, ?_, hempty⟩
              rw [UserHost.reads_pure, List.append_nil]
              exact hword
          | false =>
            obtain ⟨chosen, hsub, hchosenEvents, hchosen⟩ := (ih _ (wanted + 1) events hevents).mono
              (List.subset_append_right
                (h.reads (udriverProbePort dev ((l.socketFds entry.sockfd).socket.srcPort.setWidth 32))) _)
            exact ⟨chosen, hsub.cons _, hchosenEvents, hchosen⟩

/-- The passes of `epoll_wait`. -/
theorem run_epollPasses (entries : List EpollEntry) (maxevents timeout : ℤ) (expired : ℕ → Bool) (passes pass : ℕ)
    (events : List EpollEvent) (hevents : (h.run (l.epollPasses dev entries maxevents timeout expired pass passes)).1 = some events) :
    l.Reports dev entries (h.reads (l.epollPasses dev entries maxevents timeout expired pass passes)) events := by
  have hnothing (reads : List (RegAddr × BitVec 32)) : l.Reports dev entries reads [] :=
    ⟨[], List.nil_sublist _, rfl, fun _ hmem => absurd hmem (by simp)⟩
  induction passes generalizing pass h with
  | zero => exact absurd hevents (by simp [epollPasses])
  | succ passes ih =>
    rw [epollPasses] at hevents ⊢
    rw [UserHost.run_bind] at hevents
    rw [UserHost.reads_bind]
    cases hscan : (h.run (l.epollScan dev entries maxevents.toNat)).1 with
    | none =>
      rw [hscan] at hevents
      exact absurd hevents.symm (Option.some_ne_none events)
    | some found =>
      rw [hscan] at hevents
      dsimp only at hevents ⊢
      split at hevents
      · obtain rfl := Option.some.inj hevents
        exact (run_epollScan dev h entries _ _ hscan).mono (List.subset_append_left _ _)
      · split at hevents
        · obtain rfl := Option.some.inj hevents
          exact hnothing _
        · split at hevents
          · obtain rfl := Option.some.inj hevents
            exact hnothing _
          · rename_i hnone htimeout hexpired
            rw [if_neg hnone, if_neg htimeout, if_neg hexpired]
            exact (ih _ _ hevents).mono (List.subset_append_right _ _)

/-- What `epoll_wait` returns. -/
theorem run_epollWait (epfd maxevents timeout : ℤ) (expired : ℕ → Bool) (passes : ℕ) (outcome : Outcome)
    (events : List EpollEvent)
    (hevents : (h.run (l.epollWait dev epfd maxevents timeout expired passes)).1 = some (outcome, events)) :
    l.epollInstance epfd = none ∧ events = [] ∨ ∃ id entries, l.epollInstance epfd = some (id, entries) ∧
      l.Reports dev entries (h.reads (l.epollWait dev epfd maxevents timeout expired passes)) events := by
  unfold epollWait at hevents ⊢
  cases hinstance : l.epollInstance epfd with
  | none =>
    rw [hinstance] at hevents
    exact Or.inl ⟨rfl, (Prod.mk.inj (Option.some.inj hevents)).2.symm⟩
  | some pair =>
    obtain ⟨id, entries⟩ := pair
    rw [hinstance] at hevents
    dsimp only at hevents ⊢
    rw [UserHost.run_bind, UserHost.run_pure] at hevents
    obtain ⟨found, hfound, hpair⟩ := Option.map_eq_some_iff.mp hevents
    obtain ⟨-, rfl⟩ := Prod.mk.inj hpair
    rw [UserHost.reads_bind]
    exact Or.inr ⟨id, entries, rfl, (run_epollPasses dev h entries _ _ _ _ _ _ hfound).mono (List.subset_append_left _ _)⟩

end Run

end SocketLayer

/-- The calls of an application that polls. -/
inductive EpollCall
  | api (call : ApiCall)
  | wait (epfd maxevents timeout : ℤ) (expired : ℕ → Bool) (passes : ℕ)

/-- One call, with what the device shows to its reads. -/
structure PollingEvent where
  call : EpollCall
  shows : ℕ → StatusInputs

namespace SocketRun

open SocketLayer

variable (dev : UdpIpDevice)

/-- What `epoll_wait` returns and leaves behind. -/
def waitResult (s : SocketRun) (shows : ℕ → StatusInputs) (epfd maxevents timeout : ℤ) (expired : ℕ → Bool) (passes : ℕ) :
    Option (Outcome × List EpollEvent) × UserHost :=
  ({ s.host with shows := shows } : UserHost).run (s.layer.epollWait dev epfd maxevents timeout expired passes)

/-- The register reads of `epoll_wait`. -/
def waitReads (s : SocketRun) (shows : ℕ → StatusInputs) (epfd maxevents timeout : ℤ) (expired : ℕ → Bool) (passes : ℕ) :
    List (RegAddr × BitVec 32) :=
  ({ s.host with shows := shows } : UserHost).reads (s.layer.epollWait dev epfd maxevents timeout expired passes)

/-- One call. -/
def poll (s : SocketRun) (e : PollingEvent) : SocketRun :=
  match e.call with
  | .api call => s.step dev ⟨call, e.shows⟩
  | .wait epfd maxevents timeout expired passes =>
    { s with host := (s.waitResult dev e.shows epfd maxevents timeout expired passes).2 }

/-- All sequences of calls. -/
def pollMachine : Clocked.Machine SocketRun PollingEvent where
  step := poll dev
  legal := fun _ _ => True

/-- The entry is for a bound socket whose ring was read with data in it. -/
def Ready (s : SocketRun) (reads : List (RegAddr × BitVec 32)) (entry : EpollEntry) : Prop :=
  (s.layer.socketFds entry.sockfd).status = .bound ∧
    dev.InRange (s.layer.socketFds entry.sockfd).socket.srcPort ∧
    ∃ word, (ConfigRegs.bufferRxCtrl (dev.ring (s.layer.socketFds entry.sockfd).socket.srcPort).toNat, word) ∈ reads ∧
      word.getLsbD bufferEmptyOffset = false

/-- The instances are well formed after a call, and have new entries only if it was asked for them. A closed descriptor is
forgotten. The events of `epoll_wait` are those of some entries of the instance that are ready, with their data. -/
structure Consistent (s : SocketRun) (e : PollingEvent) : Prop where
  wellFormed : (s.poll dev e).layer.WellFormed
  added : ∀ id fd, (s.poll dev e).layer.Contains id fd → s.layer.Contains id fd ∨ ∃ call, e.call = .api call ∧ Adds call fd
  closed : ∀ fd libc, e.call = .api (.close fd libc) → (s.poll dev e).layer.Forgotten fd
  reported : ∀ epfd maxevents timeout expired passes outcome events,
    e.call = .wait epfd maxevents timeout expired passes →
    (s.waitResult dev e.shows epfd maxevents timeout expired passes).1 = some (outcome, events) → events ≠ [] →
      ∃ (id : Fin maxEpollFds) (entries chosen : List EpollEntry),
        s.layer.epollInstance epfd = some (id, entries) ∧ chosen.Sublist entries ∧
        events = chosen.map (fun entry => ⟨entry.data, epollIn⟩) ∧
        ∀ entry ∈ chosen, s.Ready dev (s.waitReads dev e.shows epfd maxevents timeout expired passes) entry

/-- A descriptor is closed only if it can be forgotten, and no bound socket of an instance that is waited for has a port
without a ring. -/
structure Tidy (s : SocketRun) (e : PollingEvent) : Prop where
  closes : ∀ fd libc, e.call = .api (.close fd libc) → s.layer.Forgettable fd libc
  waits : ∀ epfd maxevents timeout expired passes id entries, e.call = .wait epfd maxevents timeout expired passes →
    s.layer.epollInstance epfd = some (id, entries) → ∀ entry ∈ entries,
      (s.layer.socketFds entry.sockfd).status = .bound → dev.InRange (s.layer.socketFds entry.sockfd).socket.srcPort

variable {dev} {s : SocketRun}

/-- The driver computes the number of the ring. -/
theorem bufferId_toNat_eq_ring {port : BitVec 16} (hport : dev.InRange port) :
    (Udriver.bufferId dev (port.setWidth 32)).toNat = (dev.ring port).toNat := by
  rw [dev.bufferId_toNat hport, UdpIpDevice.ring, BitVec.toNat_ofNat, Nat.mod_eq_of_lt]
  exact dev.sub_lt hport

/-- One call. -/
theorem consistent_of_wellFormed (hs : s.layer.WellFormed) (e : PollingEvent) (htidy : s.Tidy dev e) :
    s.Consistent dev e := by
  obtain ⟨call, shows⟩ := e
  cases call with
  | api call =>
    constructor
    · exact hs.run_call dev _ call
    · exact fun id fd hcontains => (contains_run_call dev _ call hcontains).imp_right fun hadds => ⟨call, rfl, hadds⟩
    · intro fd libc hcall
      obtain rfl := EpollCall.api.inj hcall
      have hlayer : (s.poll dev ⟨.api (.close fd libc), shows⟩).layer =
          (({ s.host with shows := shows } : UserHost).run (s.layer.close dev fd libc)).1.2 := by
        change (({ s.host with shows := shows } : UserHost).run
          (s.layer.close dev fd libc >>= fun r => pure (returned r))).1.2 = _
        rw [UserHost.run_bind]
        rfl
      rw [hlayer]
      exact (forgotten_close_iff dev _ hs fd libc).mpr (htidy.closes fd libc rfl)
    · intro epfd maxevents timeout expired passes outcome events hcall
      exact EpollCall.noConfusion hcall
  | wait epfd maxevents timeout expired passes =>
    constructor
    · exact hs
    · exact fun id fd hcontains => Or.inl hcontains
    · intro fd libc hcall
      exact EpollCall.noConfusion hcall
    · intro epfd' maxevents' timeout' expired' passes' outcome events hcall hresult hsome
      obtain ⟨rfl, rfl, rfl, rfl, rfl⟩ := EpollCall.wait.inj hcall
      obtain ⟨-, hnothing⟩ | ⟨id, entries, hinstance, chosen, hsub, hevents, hchosen⟩ := run_epollWait dev _ _ _ _ _ _ _ _ hresult
      · exact absurd hnothing hsome
      · refine ⟨id, entries, chosen, hinstance, hsub, hevents, fun entry hentry => ?_⟩
        obtain ⟨hbound, word, hword, hempty⟩ := hchosen entry hentry
        have hport := htidy.waits _ _ _ _ _ _ _ rfl hinstance entry (hsub.subset hentry) hbound
        rw [bufferId_toNat_eq_ring hport] at hword
        exact ⟨hbound, hport, word, hword, hempty⟩

/-- In every sequence of calls in which every close can be forgotten and every bound socket that is waited for has a ring,
epoll and close stay consistent. -/
theorem consistent_of_tidy (regs : ConfigRegs) (memory : ℕ → BitVec 8) (shows : ℕ → StatusInputs)
    (h : ((pollMachine dev).restrict (Tidy dev)).Reachable (start regs memory shows) s) {e : PollingEvent}
    (htidy : s.Tidy dev e) : s.Consistent dev e := by
  have hstart : (start regs memory shows).layer.WellFormed :=
    ⟨fun _ _ h => absurd h (by simp [start, fdsInit]), fun _ _ h => absurd h (by simp [start, fdsInit])⟩
  exact consistent_of_wellFormed (Clocked.Machine.invariant (m := (pollMachine dev).restrict (Tidy dev)) hstart
    (fun t e ht he => (consistent_of_wellFormed ht e he.2).wellFormed) h) e htidy

section Counterexample

/-- A call on an idle device. -/
def calls (call : ApiCall) : PollingEvent := ⟨.api call, fun _ => idleStatus⟩

/-- A call that neither closes nor waits is tidy. -/
theorem tidy_calls {call : ApiCall} (hcall : ∀ fd libc, call ≠ .close fd libc) : s.Tidy dev (calls call) where
  closes := fun fd libc h => absurd (EpollCall.api.inj h) (hcall fd libc)
  waits := fun _ _ _ _ _ _ _ h => EpollCall.noConfusion h

/-- A socket is bound to port 7400 and added to an instance. -/
def added : List PollingEvent :=
  [calls (.socket 2 2 (some 3) true), calls (.bind 3 ⟨2, htons 7400, htonl 0xC0A80180⟩ 16), calls (.epollCreate (some 4) true),
    calls (.epollCtl 4 epollCtlAdd 3 0xCAFE epollIn)]

/-- It is closed. -/
theorem consistent_close : ((pollMachine localPorts).run (start .reset (fun _ => 0) fun _ => idleStatus) added).Consistent
    localPorts (calls (.close 3 ⟨true, true, 0⟩)) := by
  refine consistent_of_tidy .reset (fun _ => 0) (fun _ => idleStatus) ⟨added, ?_, rfl⟩ ?_
  · exact ⟨⟨trivial, tidy_calls nofun⟩, ⟨trivial, tidy_calls nofun⟩, ⟨trivial, tidy_calls nofun⟩, ⟨trivial, tidy_calls nofun⟩,
      trivial⟩
  · refine ⟨fun fd libc hcall => ?_, fun _ _ _ _ _ _ _ hcall => EpollCall.noConfusion hcall⟩
    obtain ⟨rfl, rfl⟩ := ApiCall.close.inj (EpollCall.api.inj hcall)
    refine ⟨by decide +kernel, fun id hid => ⟨rfl, by decide +kernel, ?_⟩⟩
    have hfour : ∀ id : Fin maxEpollFds, (((pollMachine localPorts).run
        (start .reset (fun _ => 0) fun _ => idleStatus) added).layer.epollInstances id).isSome = true → id = 4 := by
      decide +kernel
    obtain ⟨entries, hentries, -⟩ := hid
    obtain rfl := hfour id (Option.isSome_of_eq_some hentries)
    decide +kernel

/-- A socket in two instances is closed: the first one keeps its entry. -/
theorem not_consistent : ¬ ∀ (dev : UdpIpDevice) (regs : ConfigRegs) (memory : ℕ → BitVec 8) (shows : ℕ → StatusInputs),
    (pollMachine dev).Always (start regs memory shows) (Consistent dev) := by
  intro hall
  have hconsistent := hall localPorts .reset (fun _ => 0) (fun _ => idleStatus) _
    ⟨added ++ [calls (.epollCreate (some 5) true), calls (.epollCtl 5 epollCtlAdd 3 0xCAFE epollIn)],
      ⟨trivial, trivial, trivial, trivial, trivial, trivial, trivial⟩, rfl⟩ (calls (.close 3 ⟨true, true, 0⟩)) trivial
  refine (hconsistent.closed 3 _ rfl).entries 4 ⟨[⟨3, 0xCAFE, epollIn⟩], ?_, _, List.mem_singleton_self _, rfl⟩
  decide +kernel

end Counterexample

end SocketRun

end UdpIpCore
