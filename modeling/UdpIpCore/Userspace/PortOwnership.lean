import UdpIpCore.Userspace.SocketMirror

/-!
# Bound ports are in range and unique

`bind` looks neither at the port range nor at the other descriptors, and drops the result
of `udriver_set_socket_status`. A bind is sound exactly if the port it chooses is in
range and free; then every bound descriptor has a ring of its own.
-/

namespace UdpIpCore

namespace SocketRun

open SocketLayer

variable (dev : UdpIpDevice)

/-- A bind succeeds on a port in range that no other descriptor has, with its socket bit set, or it
fails and changes nothing. -/
def BindSound (s : SocketRun) (h : UserHost) (sockfd : Fd) (addr : SockaddrIn) (addrlen : BitVec 32) : Prop :=
  let after := h.run (s.layer.bind dev sockfd addr addrlen)
  (after.1.1.ret = 0 ∧ ∃ p, (after.1.2.socketFds sockfd).boundPort = some p ∧ dev.InRange p ∧
      after.2.regs.opensock (dev.ring p) = true ∧
      ∀ other, other ≠ sockfd → (s.layer.socketFds other).boundPort ≠ some p) ∨
    (after.1.1.ret = -1 ∧ after.1.2 = s.layer ∧ after.2 = h)

/-- Every bound descriptor uses a ring below `MAX_UDP_PORTS` that no other one uses. -/
def RingsOwned (s : SocketRun) : Prop :=
  ∀ fd p, (s.layer.socketFds fd).boundPort = some p →
    (Udriver.bufferId dev (p.setWidth 32)).toNat < maxUdpPorts ∧
      ∀ other q, (s.layer.socketFds other).boundPort = some q →
        Udriver.bufferId dev (q.setWidth 32) = Udriver.bufferId dev (p.setWidth 32) → other = fd

/-- The bind of a call is sound, and the rings are owned afterwards. -/
def BindsSoundly (s : SocketRun) (e : ApiEvent) : Prop :=
  (∀ sockfd addr addrlen, s.bindOf e.call = some (sockfd, addr, addrlen) →
    s.BindSound dev (s.hostAt e) sockfd addr addrlen) ∧ (s.step dev e).RingsOwned dev

/-- A bind that passes its checks chooses a port in range that no descriptor has. -/
def ChoosesFree (s : SocketRun) (e : ApiEvent) : Prop :=
  ∀ sockfd addr addrlen, s.bindOf e.call = some (sockfd, addr, addrlen) → s.layer.Binds sockfd addr addrlen →
    dev.InRange (chosenPort s.host.regs sockfd addr) ∧
      ∀ other, (s.layer.socketFds other).boundPort ≠ some (chosenPort s.host.regs sockfd addr)

variable {dev} {s : SocketRun}

/-- A descriptor that passes the checks of `bind` has no port. -/
theorem boundPort_of_binds {sockfd : Fd} {addr : SockaddrIn} {addrlen : BitVec 32}
    (hbinds : s.layer.Binds sockfd addr addrlen) : (s.layer.socketFds sockfd).boundPort = none := by
  simp [UdriverSocketId.boundPort, hbinds.1]

/-- What `bind` leaves behind when it passes its checks. -/
theorem bind_after (dev : UdpIpDevice) (h : UserHost) {sockfd : Fd} {addr : SockaddrIn} {addrlen : BitVec 32}
    (hbinds : s.layer.Binds sockfd addr addrlen) :
    (h.run (s.layer.bind dev sockfd addr addrlen)).1.1.ret = 0 ∧
      ((h.run (s.layer.bind dev sockfd addr addrlen)).1.2.socketFds sockfd).boundPort =
        some (chosenPort h.regs sockfd addr) := by
  obtain ⟨⟨ip, hlayer⟩, -⟩ := run_bind_of_binds dev h hbinds
  rw [hlayer]
  simp [Outcome.value, boundTo, setFd, UdriverSocketId.boundPort]

/-- A bind is sound exactly if it fails a check or its port is in range and free. -/
theorem bindSound_iff (h : UserHost) (hregs : h.regs = s.host.regs) (sockfd : Fd) (addr : SockaddrIn)
    (addrlen : BitVec 32) : s.BindSound dev h sockfd addr addrlen ↔
    (s.layer.Binds sockfd addr addrlen → dev.InRange (chosenPort s.host.regs sockfd addr) ∧
      ∀ other, (s.layer.socketFds other).boundPort ≠ some (chosenPort s.host.regs sockfd addr)) := by
  by_cases hbinds : s.layer.Binds sockfd addr addrlen
  · obtain ⟨hret, hport⟩ := bind_after dev h hbinds
    rw [hregs] at hport
    constructor
    · rintro (⟨-, p, hp, hrange, -, hfree⟩ | ⟨hfail, -⟩) -
      · rw [hport, Option.some.injEq] at hp
        subst hp
        refine ⟨hrange, fun other => ?_⟩
        by_cases heq : other = sockfd
        · rw [heq, boundPort_of_binds hbinds]
          exact nofun
        · exact hfree other heq
      · rw [hret] at hfail
        exact absurd hfail (by decide)
    · intro hchosen
      obtain ⟨hrange, hfree⟩ := hchosen hbinds
      have hopen := (run_bind_of_binds dev h hbinds).2 (dev.ring (chosenPort s.host.regs sockfd addr))
      rw [hregs, if_pos ⟨hrange, rfl⟩] at hopen
      exact Or.inl ⟨hret, _, hport, hrange, hopen, fun other _ => hfree other⟩
  · obtain ⟨e, hrun⟩ := run_bind_of_not_binds (l := s.layer) dev h hbinds
    refine iff_of_true (Or.inr ?_) fun hbinds' => absurd hbinds' hbinds
    rw [hrun]
    exact ⟨rfl, rfl, rfl⟩

/-- A call that chooses a free port claims it in the port table. -/
theorem claims_of_choosesFree {e : ApiEvent} (hfree : s.ChoosesFree dev e) :
    (s.ports dev).Claims dev.InRange (s.action e.call) := by
  cases haction : s.action e.call with
  | keep | create | shut | release => trivial
  | bind fd p =>
    obtain ⟨addr, addrlen, hbind, hbinds, rfl⟩ := action_bind haction
    exact hfree fd addr addrlen hbind hbinds

/-- Owned ports give each descriptor a ring of its own. -/
theorem ringsOwned_of_owned (h : (s.ports dev).Owned dev.InRange) : s.RingsOwned dev := by
  intro fd p hp
  have hrange := h.inRange fd p hp
  refine ⟨?_, fun other q hq hid => ?_⟩
  · rw [dev.bufferId_toNat hrange]
    exact dev.sub_lt hrange
  · have hrange' := h.inRange other q hq
    have hmin : dev.portMin.toNat ≤ p.toNat := hrange.1
    have hmin' : dev.portMin.toNat ≤ q.toNat := hrange'.1
    have hnat := congrArg BitVec.toNat hid
    rw [dev.bufferId_toNat hrange, dev.bufferId_toNat hrange'] at hnat
    have hpq : q = p := BitVec.eq_of_toNat_eq (by omega)
    exact h.alone other fd q hq (hpq ▸ hp)

/-- In every sequence of calls, every bind is sound and the rings stay owned if and only if every
bind that passes its checks chooses a free port in range. -/
theorem bindsSoundly_iff_choosesFree (dev : UdpIpDevice) (regs : ConfigRegs) (memory : ℕ → BitVec 8)
    (shows : ℕ → StatusInputs) (events : List ApiEvent) :
    (machine dev).Throughout (BindsSoundly dev) (start regs memory shows) events ↔
      ((machine dev).restrict (ChoosesFree dev)).Legal (start regs memory shows) events := by
  refine Clocked.Machine.throughout_iff (fun s => (s.ports dev).Owned dev.InRange) ?_ ?_ ?_
    (legal_machine dev events _)
  · intro s e h _ hfree
    have hnext : ((s.step dev e).ports dev).Owned dev.InRange := by
      rw [ports_step]
      exact h.apply (claims_of_choosesFree hfree)
    refine ⟨hnext, fun sockfd addr addrlen hbind => ?_, ringsOwned_of_owned hnext⟩
    exact (bindSound_iff (s.hostAt e) rfl sockfd addr addrlen).mpr (hfree sockfd addr addrlen hbind)
  · intro s e _ _ hnot hsound
    refine hnot fun sockfd addr addrlen hbind => ?_
    exact (bindSound_iff (s.hostAt e) rfl sockfd addr addrlen).mp (hsound.1 sockfd addr addrlen hbind)
  · have hnone (fd : Fd) : ((start regs memory shows).ports dev).port fd = none := rfl
    exact ⟨fun fd p hp => absurd hp (by simp [hnone]), fun fd other p hp _ => absurd hp (by simp [hnone])⟩

section Counterexample

/-- One socket is created. -/
def oneSocket : List ApiEvent := [⟨.socket 2 2 (some 3) true, fun _ => idleStatus⟩]

/-- A bind to port 80, outside of the range, succeeds. -/
theorem not_bindSound : ¬ ∀ (dev : UdpIpDevice) (regs : ConfigRegs) (memory : ℕ → BitVec 8)
    (shows : ℕ → StatusInputs) (s : SocketRun),
    (machine dev).Reachable (start regs memory shows) s → ∀ (h : UserHost), h.regs = s.host.regs →
    ∀ sockfd addr addrlen, s.BindSound dev h sockfd addr addrlen := by
  intro h
  have hsound := h localPorts .reset (fun _ => 0) (fun _ => idleStatus) _ ⟨oneSocket, ⟨trivial, trivial⟩, rfl⟩
    _ rfl 3 ⟨2, htons 80, htonl 0xC0A80180⟩ 16
  have hchosen := (bindSound_iff _ rfl 3 ⟨2, htons 80, htonl 0xC0A80180⟩ 16).mp hsound (by decide)
  exact absurd hchosen.1 (by decide)

end Counterexample

end SocketRun

end UdpIpCore
