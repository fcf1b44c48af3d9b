import UdpIpCore.Userspace.SocketRun

/-!
# Socket bits and descriptors

A port of the range is open on the device exactly if a bound descriptor still receives on
it. The calls keep this as long as no receiving descriptor is closed or shut down in both
directions: `shutdown` tells the device only about `SHUT_RD`.
-/

namespace UdpIpCore

namespace SocketRun

variable (dev : UdpIpDevice)

/-- The socket bits of the device mirror the bound descriptors that were not shut down for reading. -/
def Mirrored (s : SocketRun) : Prop :=
  ∀ p, dev.InRange p → (s.host.regs.opensock (dev.ring p) = true ↔
    ∃ fd, (s.layer.socketFds fd).status = .bound ∧ (s.layer.socketFds fd).socket.srcPort = p ∧
      s.readShut fd = false)

/-- A call that the device learns of: a descriptor bound to a port of the range was not shut down
before, `SHUT_RD` ends the last descriptor of the port, and a descriptor that is closed or shut down in
both directions was not the last one. -/
def Told (s : SocketRun) (e : ApiEvent) : Prop := (s.ports dev).Fits dev.InRange (s.action e.call)

variable {dev} {s : SocketRun}

/-- A descriptor in the table is one that is bound. -/
theorem listens_iff {fd : Fd} {p : BitVec 16} : (s.ports dev).Listens fd p ↔
    (s.layer.socketFds fd).status = .bound ∧ (s.layer.socketFds fd).socket.srcPort = p ∧ s.readShut fd = false := by
  by_cases hbound : (s.layer.socketFds fd).status = .bound
  · simp [PortTable.Listens, ports, SocketLayer.ports, UdriverSocketId.boundPort, hbound]
  · simp [PortTable.Listens, ports, SocketLayer.ports, UdriverSocketId.boundPort, hbound]

/-- The table mirrors its flags exactly if the device mirrors the descriptors. -/
theorem mirrored_iff : s.Mirrored dev ↔ (s.ports dev).Mirrors dev.InRange := by
  refine forall_congr' fun p => imp_congr_right fun hp => ?_
  have hopened : (s.ports dev).opened p = s.host.regs.opensock (dev.ring p) := by
    simp [ports, SocketLayer.ports, hp]
  rw [hopened]
  exact iff_congr Iff.rfl (exists_congr fun fd => listens_iff.symm)

/-- Nothing is bound and nothing is open at the start. -/
theorem mirrored_start (regs : ConfigRegs) (memory : ℕ → BitVec 8) (shows : ℕ → StatusInputs) :
    (start regs memory shows).Mirrored dev := by
  intro p _
  refine iff_of_false ?_ ?_
  · simp [start, ConfigRegs.opensock, Udriver.opensockMask, bufferOpensockOffset]
  · rintro ⟨fd, hbound, -⟩
    exact absurd hbound (by simp [start, SocketLayer.fdsInit])

/-- A call leads from a mirrored state to a mirrored one exactly if the device learns of it. -/
theorem mirrored_step_iff (h : s.Mirrored dev) (e : ApiEvent) : (s.step dev e).Mirrored dev ↔ s.Told dev e := by
  rw [mirrored_iff, ports_step]
  exact PortTable.mirrors_apply_iff (mirrored_iff.mp h) (valid_action s e.call)

/-- In every sequence of calls, the socket bits mirror the descriptors after every call if and only if
the device learns of every call. -/
theorem mirrored_iff_told (dev : UdpIpDevice) (regs : ConfigRegs) (memory : ℕ → BitVec 8) (shows : ℕ → StatusInputs)
    (events : List ApiEvent) :
    (machine dev).Throughout (fun s e => (s.step dev e).Mirrored dev) (start regs memory shows) events ↔
      ((machine dev).restrict (Told dev)).Legal (start regs memory shows) events := by
  refine Clocked.Machine.throughout_iff (Mirrored dev) ?_ ?_ (mirrored_start regs memory shows)
    (legal_machine dev events _)
  · intro s e h _ htold
    have hnext := (mirrored_step_iff h e).mpr htold
    exact ⟨hnext, hnext⟩
  · intro s e h _ hnot hnext
    exact hnot ((mirrored_step_iff h e).mp hnext)

section Counterexample

/-- The range of the library. -/
def localPorts : UdpIpDevice := ⟨7400, 7500, by decide⟩

/-- What the device shows: nothing but an empty TX ring. -/
def idleStatus : StatusInputs := ⟨fun _ => ⟨false, false, true, 0, 0⟩, 0, 0, true, false, false, fun _ => 0⟩

/-- A socket is bound to port 7400 and closed. -/
def boundAndClosed : List ApiEvent :=
  [⟨.socket 2 2 (some 3) true, fun _ => idleStatus⟩,
    ⟨.bind 3 ⟨2, htons 7400, htonl 0xC0A80180⟩ 16, fun _ => idleStatus⟩,
    ⟨.close 3 ⟨true, true, 0⟩, fun _ => idleStatus⟩]

/-- The library after the socket was closed. -/
def afterClose : SocketRun :=
  (machine localPorts).run (start .reset (fun _ => 0) fun _ => idleStatus) boundAndClosed

/-- The port of a closed socket stays open. -/
theorem not_mirrored : ¬ ∀ (dev : UdpIpDevice) (regs : ConfigRegs) (memory : ℕ → BitVec 8)
    (shows : ℕ → StatusInputs) (s : SocketRun),
    (machine dev).Reachable (start regs memory shows) s → s.Mirrored dev := by
  intro h
  have hopen : afterClose.host.regs.opensock (localPorts.ring 7400) = true := by decide +kernel
  have hunbound : ∀ fd, (afterClose.layer.socketFds fd).status ≠ .bound := by decide +kernel
  have hmirrored := h localPorts .reset (fun _ => 0) (fun _ => idleStatus) afterClose
    ⟨boundAndClosed, ⟨trivial, trivial, trivial, trivial⟩, rfl⟩
  obtain ⟨fd, hbound, -⟩ := (hmirrored 7400 (by decide)).mp hopen
  exact hunbound fd hbound

end Counterexample

end SocketRun

end UdpIpCore
