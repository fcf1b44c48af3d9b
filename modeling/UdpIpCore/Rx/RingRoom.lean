import UdpIpCore.Rx.SlotRun

/-!
# Room in the RX rings

Nothing in the RX path reads the full flag of a ring. A ring that is full when a packet
for it arrives is written and pushed like any other, so that its registers no longer count
the unread packets. They do as long as every descriptor is accepted while its ring has
room for the packet.
-/

namespace UdpIpCore

/-- The packets that can still be read from a ring, by its registers. -/
def CircularBuffer.readable {length : ℕ} (b : CircularBuffer length) : ℕ :=
  if b.full then length else (b.headIndex + length - b.tailIndex) % length

/-- A ring whose registers follow its pulses can be read as often as it was pushed and not popped. -/
theorem CircularBuffer.Tracks.readable {length pushes pops : ℕ} {b : CircularBuffer length}
    (h : b.Tracks pushes pops) (hlength : 0 < length) : b.readable = pushes - pops := by
  have hle := h.pops_le
  have hfits := h.fits
  rw [CircularBuffer.readable, h.full, h.head, h.tail]
  by_cases hfull : pushes = pops + length
  · rw [if_pos (decide_eq_true hfull), hfull, Nat.add_sub_cancel_left]
  · rw [if_neg (by simpa using hfull)]
    have hlt := Nat.mod_lt pops hlength
    obtain ⟨unread, rfl⟩ := Nat.exists_eq_add_of_le hle
    have hwrap : (pops + unread) % length = (pops % length + unread) % length := (Nat.mod_add_mod pops length unread).symm
    rw [Nat.add_sub_cancel_left, hwrap]
    by_cases hsum : pops % length + unread < length
    · have hdiff : pops % length + unread + length - pops % length = unread + length := by omega
      rw [Nat.mod_eq_of_lt hsum, hdiff, Nat.add_mod_right]
      exact Nat.mod_eq_of_lt (by omega)
    · have hdiff : pops % length + unread - length + length - pops % length = unread := by omega
      have hlow : pops % length + unread - length < length := by omega
      rw [Nat.mod_eq_sub_mod (Nat.le_of_not_lt hsum), Nat.mod_eq_of_lt hlow, hdiff]
      exact Nat.mod_eq_of_lt (by omega)

namespace SlotRun

variable {R : AxisRegister}

/-- The PS pops only a ring that is not empty. -/
def PopsUnread (t : SlotRun R) (i : StoreCycle) : Prop :=
  ∀ idx, i.popped idx = true → (t.store.path.rings idx).empty = false

/-- The branch that goes wrong is not taken: the index register serves the frames that need it, and a
descriptor is accepted only for a ring with room. -/
structure Attended (lower : BitVec 16) (t : SlotRun R) (i : StoreCycle) : Prop extends t.IndexHeld i where
  room : t.RoomLeft lower i

instance (lower : BitVec 16) (t : SlotRun R) (i : StoreCycle) : Decidable (t.Attended lower i) :=
  decidable_of_iff (t.IndexHeld i ∧ t.RoomLeft lower i) ⟨fun h => ⟨h.1, h.2⟩, fun h => ⟨h.toIndexHeld, h.room⟩⟩

instance (lower : BitVec 16) (base : BitVec 32) (t : SlotRun R) (i : StoreCycle) :
    Decidable (((machine R lower base).restrict (Attended lower)).legal t i) :=
  inferInstanceAs (Decidable ((machine R lower base).legal t i ∧ t.Attended lower i))

/-- No full ring is pushed or written, and the registers count the unread packets of each ring. -/
structure RoomKept (base : BitVec 32) (t : SlotRun R) (i : StoreCycle) : Prop where
  pushed : ∀ idx, t.pushed i idx = true → (t.store.path.rings idx).full = false
  /-- A descriptor whose burst is not handed over yet is for a ring with room. -/
  written : ∀ k desc, t.completed ≤ k → t.descs[k]? = some desc → ∀ idx slot, slot < bufferRxLength →
    desc.addr = DmaWriteControl.slotAddr base idx slot → (t.store.path.rings idx).full = false
  readable : ∀ idx, t.pops idx ≤ t.pushes idx ∧
    (t.store.path.rings idx).readable = t.pushes idx - t.pops idx

/-- What the descriptor of a packet was when it was accepted. -/
structure Roomy (lower : BitVec 16) (base : BitVec 32) (pops : BufferIdx → ℕ) (earlier : List Packet)
    (p : Packet) (desc : WriteDesc) : Prop where
  inRing : ∃ slot < bufferRxLength, desc.addr = DmaWriteControl.slotAddr base (ring lower p) slot
  room : ringCount lower earlier (ring lower p) < pops (ring lower p) + bufferRxLength

/-- What holds between any two cycles of an attended run. -/
structure Counted (lower : BitVec 16) (base : BitVec 32) (t : SlotRun R) : Prop where
  tracked : t.Tracked lower base
  described : t.store.Described (Roomy lower base t.pops)
  counts : ∀ idx, (t.store.path.rings idx).Tracks (t.pushes idx) (t.pops idx)

/-- The run starts with empty rings. -/
theorem counted_start (lower : BitVec 16) (base : BitVec 32) (p : Packet) : (start R p).Counted lower base where
  tracked := tracked_start lower base p
  described := by simp [RxStore.Described, start, RxStore.start, DmaWrRun.start, DmaWrRun.jobs]
  counts := fun _ => CircularBuffer.tracks_reset (by decide)

section Cycle

variable {lower : BitVec 16} {base : BitVec 32} {t : SlotRun R} {i : StoreCycle}

/-- A descriptor that is not handed over is for a ring with fewer unread packets than slots. -/
theorem Counted.room (h : t.Counted lower base) {k : ℕ} {p : Packet} {desc : WriteDesc} (hk : t.completed ≤ k)
    (hp : t.started[k]? = some p) (hdesc : t.descs[k]? = some desc) :
    t.pushes (ring lower p) < t.pops (ring lower p) + bufferRxLength := by
  have hroom := (h.described k p desc hp hdesc).room
  have hle : ringCount lower (t.started.take t.completed) (ring lower p) ≤
      ringCount lower (t.started.take k) (ring lower p) := (List.take_sublist_take_left hk).countP_le
  rw [h.tracked.pushes_eq]
  exact Nat.lt_of_le_of_lt hle hroom

/-- A ring that is pushed has room. -/
theorem Counted.room_of_pushed (h : t.Counted lower base) {idx : BufferIdx} (hpushed : t.pushed i idx = true) :
    t.pushes idx < t.pops idx + bufferRxLength := by
  rw [h.tracked.pushed_eq, Bool.and_eq_true] at hpushed
  obtain ⟨hcompleted, haccepted⟩ := h.tracked.completed_le i
  rw [hpushed.1, Bool.toNat_true] at hcompleted
  have hget : t.started[t.completed]? = some _ := List.getElem?_eq_getElem (show _ < _ by omega)
  have hring := hpushed.2
  rw [hget, Option.any_some, decide_eq_true_eq] at hring
  have hdesc : t.descs[t.completed]? = some _ :=
    List.getElem?_eq_getElem (by rw [descs, List.length_map]; exact hcompleted)
  rw [← hring]
  exact h.room (Nat.le_refl _) hget hdesc

/-- A ring with room is not full. -/
theorem Counted.not_full (h : t.Counted lower base) {idx : BufferIdx}
    (hroom : t.pushes idx < t.pops idx + bufferRxLength) : (t.store.path.rings idx).full = false := by
  rw [(h.counts idx).full, decide_eq_false_iff_not]
  exact Nat.ne_of_lt hroom

/-- An attended cycle keeps the counts. -/
theorem Counted.step (h : t.Counted lower base) (hlegal : (machine R lower base).legal t i) (hpops : t.PopsUnread i)
    (hattended : t.Attended lower i) : (t.step i).Counted lower base where
  tracked := h.tracked.step hlegal hattended.toIndexHeld
  described := by
    have hstep := h.tracked.fed.described_step (i := i) h.described fun haccepting p hp => by
      obtain ⟨⟨hidle, -⟩, hvalid⟩ := RxStore.accepting_iff.mp haccepting
      exact ⟨⟨_, Nat.mod_lt _ (by decide), h.tracked.sampled hvalid hidle p hp⟩, hattended.room haccepting p hp⟩
    intro k p desc hp hdesc
    have hroomy := hstep k p desc hp hdesc
    exact ⟨hroomy.inRing, Nat.lt_of_lt_of_le hroomy.room (Nat.add_le_add_right (Nat.le_add_right _ _) _)⟩
  counts := by
    intro idx
    refine CircularBuffer.tracks_step (by decide) (h.counts idx) (fun hpushed => Or.inr (h.room_of_pushed hpushed))
      fun hpopped => ?_
    have hempty := (h.counts idx).empty
    have hle := (h.counts idx).pops_le
    rw [hpops idx hpopped, eq_comm, decide_eq_false_iff_not] at hempty
    omega

/-- In a counted run no full ring is pushed or written. -/
theorem Counted.roomKept (h : t.Counted lower base) : t.RoomKept base i where
  pushed := fun _ hpushed => h.not_full (h.room_of_pushed hpushed)
  written := by
    intro k desc hk hdesc idx slot hslot haddr
    have hlength : k < t.started.length := by
      have hlt := (List.getElem?_eq_some_iff.mp hdesc).1
      rw [descs, List.length_map] at hlt
      exact Nat.lt_of_lt_of_le hlt h.tracked.fed.begun
    have hget : t.started[k]? = some _ := List.getElem?_eq_getElem hlength
    obtain ⟨⟨slot', hslot', haddr'⟩, -⟩ := h.described k _ desc hget hdesc
    obtain ⟨hring, -⟩ := DmaWriteControl.slotAddr_inj hslot hslot' (haddr.symm.trans haddr')
    rw [hring]
    exact h.not_full (h.room hk hget hdesc)
  readable := fun idx => ⟨(h.counts idx).pops_le, (h.counts idx).readable (by decide)⟩

end Cycle

/-- In every attended run no unread packet is lost. -/
theorem roomKept_of_attended (R : AxisRegister) (lower : BitVec 16) (base : BitVec 32) (p : Packet) :
    (((machine R lower base).restrict PopsUnread).restrict (Attended lower)).Always (start R p) (RoomKept base) := by
  refine Clocked.Machine.always_of_invariant (counted_start lower base p) ?_ ?_
  · rintro t i h ⟨⟨hlegal, hpops⟩, hattended⟩
    exact h.step hlegal hpops hattended
  · intro t i h _
    exact h.roomKept

/-- Packets that are not popped, up to a beat of the next one. -/
def unpopped (packets cycles : ℕ) : List StoreCycle :=
  (List.replicate packets (packetCycles true)).flatten ++ (packetCycles true).take cycles

/-- The PS pops nothing in these runs. -/
theorem popsUnread_of_mem {packets cycles : ℕ} {i : StoreCycle}
    (hi : i ∈ unpopped packets cycles ++ [cycle false none true]) (t : SlotRun R) : t.PopsUnread i := by
  have hpacket {i : StoreCycle} (hi : i ∈ packetCycles true) : i.popped = fun _ => false := by
    rw [packetCycles, List.mem_append] at hi
    rcases hi with hi | hi
    · simp only [List.mem_cons, List.not_mem_nil, or_false] at hi
      rcases hi with rfl | rfl | rfl | rfl <;> rfl
    · rw [List.eq_of_mem_replicate hi, cycle]
  have hpopped : i.popped = fun _ => false := by
    rw [unpopped, List.mem_append, List.mem_append, List.mem_flatten, List.mem_singleton] at hi
    rcases hi with (⟨cycles, hcycles, hi⟩ | hi) | hi
    · rw [List.eq_of_mem_replicate hcycles] at hi
      exact hpacket hi
    · exact hpacket (List.mem_of_mem_take hi)
    · rw [hi, cycle]
  intro idx hidx
  rw [hpopped] at hidx
  exact absurd hidx Bool.false_ne_true

/-- Two packets that are not popped can still be read. -/
theorem readable_two :
    (((machine .twoDeep 7400 0).run (start .twoDeep oneBeat) (unpopped 2 0)).store.path.rings 0).readable = 2 := by
  have hattended : ((machine .twoDeep 7400 0).restrict (Attended 7400)).Legal (start .twoDeep oneBeat)
      (unpopped 2 0 ++ [cycle false none true]) := by decide +kernel
  have hlegal : (((machine .twoDeep 7400 0).restrict PopsUnread).restrict (Attended 7400)).Legal
      (start .twoDeep oneBeat) (unpopped 2 0 ++ [cycle false none true]) :=
    Clocked.Machine.Legal.mono ((machine .twoDeep 7400 0).restrict (Attended 7400))
      (((machine .twoDeep 7400 0).restrict PopsUnread).restrict (Attended 7400)) rfl hattended
      fun _ hi t hlegal => ⟨⟨hlegal.1, popsUnread_of_mem hi t⟩, hlegal.2⟩
  obtain ⟨hfirst, hlast, -⟩ := (Clocked.Machine.legal_append _ _ _ _).mp hlegal
  have hkept := roomKept_of_attended .twoDeep 7400 0 oneBeat _ ⟨_, hfirst, rfl⟩ _ hlast
  rw [Clocked.Machine.restrict_run, Clocked.Machine.restrict_run] at hkept
  have hcounts : ((machine .twoDeep 7400 0).run (start .twoDeep oneBeat) (unpopped 2 0)).pushes 0 -
      ((machine .twoDeep 7400 0).run (start .twoDeep oneBeat) (unpopped 2 0)).pops 0 = 2 := by decide +kernel
  rw [(hkept.readable 0).2, hcounts]

/-- The 33rd packet is pushed to a ring that holds 32 unread ones. -/
theorem not_roomKept :
    ¬ ((machine .twoDeep 7400 0).restrict PopsUnread).Always (start .twoDeep oneBeat) (RoomKept 0) := by
  obtain ⟨hruns, hpushed, hfull⟩ : (machine .twoDeep 7400 0).Legal (start .twoDeep oneBeat)
        (unpopped 32 15 ++ [cycle false none true]) ∧
      ((machine .twoDeep 7400 0).run (start .twoDeep oneBeat) (unpopped 32 15)).pushed (cycle false none true) 0 = true ∧
      (((machine .twoDeep 7400 0).run (start .twoDeep oneBeat) (unpopped 32 15)).store.path.rings 0).full = true := by
    decide +kernel
  have hlegal : ((machine .twoDeep 7400 0).restrict PopsUnread).Legal (start .twoDeep oneBeat)
      (unpopped 32 15 ++ [cycle false none true]) :=
    Clocked.Machine.Legal.mono (machine .twoDeep 7400 0) ((machine .twoDeep 7400 0).restrict PopsUnread) rfl hruns
      fun _ hi t hlegal => ⟨hlegal, popsUnread_of_mem hi t⟩
  obtain ⟨hfirst, hlast, -⟩ := (Clocked.Machine.legal_append _ _ _ _).mp hlegal
  refine Clocked.Machine.not_always_of_run (unpopped 32 15) (cycle false none true) hfirst hlast fun h => ?_
  rw [Clocked.Machine.restrict_run] at h
  exact Bool.noConfusion ((h.pushed 0 hpushed).symm.trans hfull)

end SlotRun

end UdpIpCore
