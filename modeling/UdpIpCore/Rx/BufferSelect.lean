import UdpIpCore.Rx.FilterRun

/-!
# The buffer index register

`buffer_select_idx_o` is written in `STATE_CHECK_PORT` only and read later, when the data
of the packet moves on. It serves every packet that still needs it as long as the check
of a packet for another buffer does not come too early.
-/

namespace UdpIpCore

namespace FilterRun

variable {R : AxisRegister} {c : PortConfig} {t : FilterRun R} {i : FilterCycle}

/-- Every packet to forward has an RX buffer of its own port. -/
def OwnBuffers (c : PortConfig) (t : FilterRun R) : Prop :=
  ∀ p ∈ t.checked,
    (c.bufferOffset p.hdr.destPort).toNat = p.hdr.destPort.toNat - c.udpPortRangeLower.toNat

/-- The index register holds the index of every packet that still needs it. -/
def Selects (c : PortConfig) (t : FilterRun R) (needs : Packet → Prop) : Prop :=
  ∀ p, needs p → t.filter.bufferSelectIdx = c.bufferOffset p.hdr.destPort

/-- The run starts without packets to forward. -/
theorem checked_start (p : Packet) : (start R p).checked = [] := by
  simp [checked, start, AxisUdpPortFilter.reset]

/-- A packet to forward was to be forwarded before the cycle or has just been checked. -/
theorem mem_checked_step (h : t.Stage) (hlegal : t.SourceLegal i) {p : Packet}
    (hp : p ∈ (t.step i).checked) : p ∈ t.checked ∨
      (t.filter.state = .checkPort ∧ i.config.validUdpPort i.hdr.destPort = true ∧ p = t.src.pkt) := by
  by_cases hcheck : t.filter.state = .checkPort
  · rw [checked_step_of_checkPort h hlegal hcheck, List.mem_append] at hp
    rcases hp with hp | hp
    · exact Or.inl (List.mem_append_left _ hp)
    · by_cases hvalid : i.config.validUdpPort i.hdr.destPort = true
      · rw [if_pos hvalid, List.mem_singleton] at hp
        exact Or.inr ⟨hcheck, hvalid, hp⟩
      · simp [hvalid] at hp
  · rw [checked_step h hlegal hcheck] at hp
    exact Or.inl hp

/-- A port inside the window that is checked while it is presented has its own buffer. -/
theorem ownBuffers_step (h : t.Stage) (hown : t.OwnBuffers c) (hlegal : t.SourceLegal i)
    (hconfig : i.config = c)
    (hport : t.filter.state = .checkPort → i.hdr.destPort = t.src.pkt.hdr.destPort)
    (hwindow : t.filter.state = .checkPort → i.config.InWindow i.hdr.destPort) :
    (t.step i).OwnBuffers c := by
  subst hconfig
  intro p hp
  rcases mem_checked_step h hlegal hp with hold | ⟨hcheck, hvalid, rfl⟩
  · exact hown p hold
  · rw [← hport hcheck]
    exact PortConfig.toNat_bufferOffset (hwindow hcheck) hvalid

/-- The index register keeps serving the packets that need it. -/
theorem selects_step {needs needsNext : Packet → Prop} (hselects : t.Selects c needs)
    (hoffset : i.config.bufferOffset = c.bufferOffset)
    (hport : t.filter.state = .checkPort → i.hdr.destPort = t.src.pkt.hdr.destPort)
    (hkeep : t.filter.state ≠ .checkPort → ∀ p, needsNext p → needs p)
    (hfree : t.filter.state = .checkPort → ∀ p, needsNext p → p = t.src.pkt ∨
      i.config.bufferOffset p.hdr.destPort = i.config.bufferOffset i.hdr.destPort) :
    (t.step i).Selects c needsNext := by
  intro p hp
  change (if t.filter.state = .checkPort then i.config.bufferOffset i.hdr.destPort
    else t.filter.bufferSelectIdx) = _
  rw [← hoffset]
  by_cases hcheck : t.filter.state = .checkPort
  · rw [if_pos hcheck]
    rcases hfree hcheck p hp with rfl | heq
    · rw [hport hcheck]
    · exact heq.symm
  · rw [if_neg hcheck, hoffset]
    exact hselects p (hkeep hcheck p hp)

end FilterRun

end UdpIpCore
