import UdpIpCore.Clocked
import UdpIpCore.Framing
import UdpIpCore.Rtl.AxiDmaWr

/-!
# Runs of the write DMA

A run records for every descriptor what was taken from the stream for it and what was
passed on to the write channel. A descriptor for a slot is served by one burst of as many
beats as its length needs: a frame that is shorter is filled up with empty beats, a frame
that is longer is cut.
-/

namespace UdpIpCore

/-- The work for one descriptor. -/
structure WriteJob where
  desc : WriteDesc
  /-- The bursts requested, as address and `awlen`. -/
  bursts : List (BitVec 32 × ℕ)
  /-- The beats taken from the stream. -/
  taken : List Beat
  /-- The beats passed to the output FIFO. -/
  passed : List WBeat
deriving DecidableEq

namespace WriteJob

/-- The beats of a burst for `len` bytes. -/
def burstLength (len : ℕ) : ℕ := (len - 1) / 8 + 1

/-- The bytes of the last cycle that `len` leaves valid. -/
def lastMask (len : ℕ) : BitVec 8 := 0xFF >>> (8 - len % 8)

/-- The strobes of beat `i` of a burst for `len` bytes. -/
def strobe (len i : ℕ) (b : Beat) : BitVec 8 :=
  let cut := i + 1 = burstLength len ∧ 0 < len % 8
  if b.tlast then
    if cut ∧ b.tkeep &&& ~~~lastMask len ≠ 0 then lastMask len else b.tkeep
  else if cut then lastMask len else 0xFF

/-- Beat `i` of the burst that carries a frame. -/
def wbeat (len : ℕ) (frame : List Beat) (i : ℕ) : WBeat :=
  match frame[i]? with
  | some b => ⟨b.tdata, strobe len i b, decide (i + 1 = burstLength len)⟩
  | none => ⟨0, 0, decide (i + 1 = burstLength len)⟩

/-- The last beat of a burst is marked. -/
theorem wlast_wbeat (len : ℕ) (frame : List Beat) (i : ℕ) :
    (wbeat len frame i).wlast = decide (i + 1 = burstLength len) := by
  rw [wbeat]
  split <;> rfl

/-- The burst that carries a frame. -/
def burst (len : ℕ) (frame : List Beat) : List WBeat := (List.range (burstLength len)).map (wbeat len frame)

/-- A descriptor that was just accepted. -/
def accepted (desc : WriteDesc) : WriteJob := ⟨desc, [], [], []⟩

/-- The length of the descriptor. -/
def len (j : WriteJob) : ℕ := j.desc.len.toNat

/-- The frame is not over: no beat was its last. -/
def Open (j : WriteJob) : Prop := Framing.Open Beat.tlast j.taken

/-- The frame was taken up to its last beat. -/
def Framed (j : WriteJob) : Prop := Framing.Frame Beat.tlast j.taken

/-- The first beats of the burst were passed on. -/
def Passed (j : WriteJob) (k : ℕ) : Prop := j.passed = (List.range k).map (wbeat j.len j.taken)

/-- The whole burst was passed on. -/
def Complete (j : WriteJob) : Prop := j.passed.length = burstLength j.len

instance (j : WriteJob) : Decidable j.Complete := inferInstanceAs (Decidable (_ = _))

end WriteJob

/-- The write DMA with the record of its work. -/
structure DmaWrRun where
  engine : AxiDmaWr
  /-- The descriptors that were served to the end. -/
  finished : List WriteJob
  /-- The descriptor in progress. -/
  current : Option WriteJob
  /-- The beats handed over on the W channel. -/
  handed : List WBeat
deriving DecidableEq

/-- One cycle of the surroundings of the write DMA. -/
structure DmaWrCycle where
  desc : WriteDesc
  axis : Option Beat
  slave : AxiWriteSlave

namespace AxiDmaWr

/-- The registers that wait to be handed over on the W channel. -/
def pending (e : AxiDmaWr) : List WBeat := e.wreg.toList ++ e.outFifo

/-- The beat that enters the output FIFO. -/
def entering (e : AxiDmaWr) (axis : Option Beat) : List WBeat :=
  if e.outFifo.length < 32 then (e.wInt axis).toList else []

/-- The beat taken from the stream. -/
def taking (e : AxiDmaWr) (axis : Option Beat) : List Beat := if e.dataTready then axis.toList else []

/-- The burst requested. -/
def requesting (e : AxiDmaWr) (axis : Option Beat) : List (BitVec 32 × ℕ) :=
  if e.starts axis then [(e.addr, e.cycleCount)] else []

end AxiDmaWr

/-- The work for a descriptor after one more cycle. -/
def WriteJob.advance (j : WriteJob) (e : AxiDmaWr) (axis : Option Beat) : WriteJob where
  desc := j.desc
  bursts := j.bursts ++ e.requesting axis
  taken := j.taken ++ e.taking axis
  passed := j.passed ++ e.entering axis

namespace DmaWrRun

/-- After the power-on reset. -/
def start : DmaWrRun := ⟨.reset, [], none, []⟩

/-- One clock edge. -/
def step (s : DmaWrRun) (i : DmaWrCycle) : DmaWrRun :=
  let advanced := s.current.map fun j => j.advance s.engine i.axis
  let ends := s.engine.stateNext i.desc i.axis = .idle
  { engine := s.engine.step i.desc i.axis i.slave
    finished := if ends then s.finished ++ advanced.toList else s.finished
    current := if s.engine.accepts i.desc then some (.accepted i.desc) else if ends then none else advanced
    handed := s.handed ++ (s.engine.wHs i.slave).toList }

/-- The work for every descriptor that was accepted, in order. -/
def jobs (s : DmaWrRun) : List WriteJob := s.finished ++ s.current.toList

/-- A descriptor for a slot: it starts at a multiple of 2048 and has at most 2048 bytes. -/
def SlotDesc (desc : WriteDesc) : Prop := desc.addr.toNat % 2048 = 0 ∧ 0 < desc.len.toNat ∧ desc.len.toNat ≤ 2048

instance (desc : WriteDesc) : Decidable (SlotDesc desc) := inferInstanceAs (Decidable (_ ∧ _ ∧ _))

/-- Every descriptor that is accepted is for a slot. -/
def Legal (s : DmaWrRun) (i : DmaWrCycle) : Prop := s.engine.accepts i.desc = true → SlotDesc i.desc

end DmaWrRun

/-- The output FIFO never overflows: the DMA stops taking beats once it is half full. -/
structure AxiDmaWr.Room (e : AxiDmaWr) : Prop where
  room : e.outFifo.length ≤ 18
  halfFull : e.outFifoHalfFull = false → e.outFifo.length ≤ 16
  writing : e.dataTready = true → e.state = .write → e.outFifo.length ≤ 17
  taking : e.dataTready = true → e.state = .write ∨ e.state = .dropData

namespace AxiDmaWr

open WriteJob

variable {e : AxiDmaWr} {desc : WriteDesc} {axis : Option Beat} {slave : AxiWriteSlave}

/-- The FIFO is empty after reset. -/
theorem room_reset : reset.Room := ⟨by decide, by decide, by decide, by decide⟩

/-- What was passed on is handed over in order and nothing is lost. -/
theorem handed_append_pending (e : AxiDmaWr) (desc : WriteDesc) (axis : Option Beat) (slave : AxiWriteSlave) :
    (e.wHs slave).toList ++ (e.step desc axis slave).pending = e.pending ++ e.entering axis := by
  have hpending : (e.step desc axis slave).pending =
      (if e.shifts slave then e.outFifo.head? else if slave.wready then none else e.wreg).toList ++
        ((if e.shifts slave then e.outFifo.tail else e.outFifo) ++ e.entering axis) := rfl
  rw [hpending, pending, wHs]
  cases hfifo : e.outFifo with
  | nil =>
    have hshifts : e.shifts slave = false := by simp [shifts, hfifo]
    rw [hshifts]
    cases slave.wready <;> simp
  | cons b rest =>
    cases hreg : e.wreg with
    | none =>
      have hshifts : e.shifts slave = true := by simp [shifts, hfifo, hreg]
      simp [hshifts]
    | some r =>
      cases hready : slave.wready with
      | true =>
        have hshifts : e.shifts slave = true := by simp [shifts, hfifo, hready]
        simp [hshifts]
      | false =>
        have hshifts : e.shifts slave = false := by simp [shifts, hreg, hready]
        simp [hshifts]

/-- At most one beat enters the FIFO in a cycle. -/
theorem length_outFifo_step (e : AxiDmaWr) (desc : WriteDesc) (axis : Option Beat) (slave : AxiWriteSlave) :
    (e.step desc axis slave).outFifo.length ≤ e.outFifo.length + (e.entering axis).length := by
  have hfifo : (e.step desc axis slave).outFifo =
      (if e.shifts slave then e.outFifo.tail else e.outFifo) ++ e.entering axis := rfl
  rw [hfifo, List.length_append]
  split
  · rw [List.length_tail]
    omega
  · exact Nat.le_refl _

/-- A beat enters only from the writing states. -/
theorem length_entering_le (e : AxiDmaWr) (axis : Option Beat) : (e.entering axis).length ≤ 1 := by
  unfold entering
  split
  · cases e.wInt axis <;> simp
  · simp

/-- Nothing enters while no beat is written or filled in. -/
theorem entering_of_not (hwrites : e.writes axis = false) (hfills : e.fills = false) : e.entering axis = [] := by
  simp [entering, wInt, hwrites, hfills]

/-- With a single burst, a beat is written exactly when one is taken. -/
theorem writes_eq (hstate : e.state = .write) (hlast : e.lastTransfer = true) : e.writes axis = e.takes axis := by
  simp [writes, takes, hstate, hlast]

/-- The FIFO has room for every beat. -/
theorem Room.step (h : e.Room) (hlast : e.state = .write → e.lastTransfer = true)
    (hop : e.state = .write → e.opWordCount = 0) : (e.step desc axis slave).Room := by
  have hlength := length_outFifo_step e desc axis slave
  have hentering := length_entering_le e axis
  have hhalf : (e.step desc axis slave).outFifoHalfFull = decide (16 ≤ e.outFifo.length) := rfl
  have hready : (e.step desc axis slave).dataTready = e.dataTreadyNext axis := rfl
  have hstate : (e.step desc axis slave).state = e.stateNext desc axis := rfl
  have hwready (hw : e.wreadyInt = true) : e.outFifo.length ≤ 16 := h.halfFull (by simpa [wreadyInt] using hw)
  refine ⟨?_, ?_, ?_, ?_⟩
  · cases hwrites : e.writes axis with
    | true =>
      have hwrite : e.state = .write := by
        simp only [writes, Bool.and_eq_true, decide_eq_true_eq] at hwrites
        exact hwrites.1
      rw [writes_eq hwrite (hlast hwrite), takes, Bool.and_eq_true] at hwrites
      have hle := h.writing hwrites.1 hwrite
      omega
    | false =>
      cases hfills : e.fills with
      | true =>
        simp only [fills, Bool.and_eq_true] at hfills
        have hle := hwready hfills.2
        omega
      | false =>
        have hroom := h.room
        rw [entering_of_not hwrites hfills] at hlength
        simp only [List.length_nil] at hlength
        omega
  · intro hnot
    rw [hhalf, decide_eq_false_iff_not] at hnot
    omega
  · intro hnext hwrite
    rw [hready] at hnext
    rw [hstate] at hwrite
    have hw : e.wreadyInt = true := by
      cases hcase : e.state with
      | idle => simp [dataTreadyNext, hcase] at hnext
      | finishBurst => simp [dataTreadyNext, hcase] at hnext
      | dropData => simp [stateNext, hcase] at hwrite; split at hwrite <;> simp at hwrite
      | start => simp [dataTreadyNext, hcase] at hnext; exact hnext.2
      | write =>
        simp only [dataTreadyNext, stateNext, hcase] at hnext hwrite
        split at hnext
        · rename_i hwrites
          rw [if_pos hwrites] at hwrite
          split at hnext
          · exact absurd hnext Bool.false_ne_true
          · rename_i htlast
            rw [if_neg htlast] at hwrite
            split at hnext
            · rename_i hlastCycle
              rw [if_pos hlastCycle, hop hcase] at hwrite
              simp at hwrite
            · simp only [Bool.and_eq_true] at hnext
              exact hnext.1
        · simp only [Bool.and_eq_true] at hnext
          exact hnext.1
    have hle := hwready hw
    omega
  · intro hnext
    rw [hready] at hnext
    rw [hstate]
    cases hcase : e.state with
    | idle => simp [dataTreadyNext, hcase] at hnext
    | finishBurst => simp [dataTreadyNext, hcase] at hnext
    | dropData =>
      simp only [dataTreadyNext, hcase, Bool.not_eq_true'] at hnext
      simp [stateNext, hcase, hnext]
    | start =>
      simp only [dataTreadyNext, hcase, Bool.and_eq_true] at hnext
      simp [stateNext, hcase, hnext.1]
    | write =>
      simp only [dataTreadyNext, hcase] at hnext
      simp only [stateNext, hcase]
      split at hnext
      · split at hnext
        · exact absurd hnext Bool.false_ne_true
        · split at hnext
          · simp [*]
          · simp [*]
      · simp [*]

/-- The descriptor waits for its frame. -/
structure Requested (e : AxiDmaWr) (j : WriteJob) : Prop where
  fresh : j = .accepted j.desc
  slot : DmaWrRun.SlotDesc j.desc
  op : e.opWordCount = j.len
  addr : e.addr = j.desc.addr
  offset : e.lastCycleOffset = j.len % 8

/-- A job whose single burst was requested. -/
structure Bursting (j : WriteJob) (k : ℕ) : Prop where
  slot : DmaWrRun.SlotDesc j.desc
  bursts : j.bursts = [(j.desc.addr, burstLength j.len - 1)]
  passed : j.Passed k

/-- The burst goes on with beat `k`. -/
structure InBurst (e : AxiDmaWr) (j : WriteJob) (k : ℕ) : Prop extends Bursting j k where
  fits : k < burstLength j.len
  op : e.opWordCount = 0
  last : e.lastTransfer = true
  offset : e.lastCycleOffset = j.len % 8
  count : e.outputCycleCount + 1 + k = burstLength j.len
  lastCycle : e.outputLastCycle = decide (k + 1 = burstLength j.len)

/-- The DMA serves the current descriptor. -/
def Serves (e : AxiDmaWr) (current : Option WriteJob) : Prop :=
  match e.state, current with
  | .idle, none => True
  | .start, some j => e.Requested j
  | .write, some j => j.Open ∧ e.InBurst j j.taken.length
  | .finishBurst, some j => j.Framed ∧ ∃ k, j.taken.length ≤ k ∧ e.InBurst j k
  | .dropData, some j => j.Open ∧ e.dataTready = true ∧ burstLength j.len ≤ j.taken.length ∧
      Bursting j (burstLength j.len)
  | _, _ => False

/-- A descriptor that was served: one whole frame was taken and one burst passed on. -/
structure Served (j : WriteJob) : Prop extends Bursting j (burstLength j.len) where
  framed : j.Framed

/-- A slot of at most 2048 bytes is one burst. -/
theorem trWordCount_eq {j : WriteJob} (h : e.Requested j) : e.trWordCount = j.len := by
  obtain ⟨haddr, hpos, hlen⟩ := h.slot
  have hop := h.op
  have hslot : e.addr.toNat % 2048 = 0 := h.addr ▸ haddr
  have hlen' : j.len ≤ 2048 := hlen
  rw [trWordCount, hop, maxBurstSize]
  have hword : e.addr.toNat % 8 = 0 := by omega
  have hsmall : j.len ≤ 2048 - e.addr.toNat % 8 := by omega
  rw [if_pos hsmall]
  split
  · omega
  · rfl

/-- Beats that were passed on do not change when more of the frame is taken. -/
theorem passed_of_taken {j j' : WriteJob} {k : ℕ} (h : j.Passed k) (hdesc : j'.desc = j.desc)
    (hpassed : j'.passed = j.passed) {more : List Beat} (htaken : j'.taken = j.taken ++ more)
    (hk : k ≤ j.taken.length ∨ more = []) : j'.Passed k := by
  rw [WriteJob.Passed, hpassed, h]
  have hlen : j'.len = j.len := by rw [WriteJob.len, hdesc, WriteJob.len]
  rw [hlen]
  refine List.map_congr_left fun i hi => ?_
  have hik : i < k := List.mem_range.mp hi
  have hget : j'.taken[i]? = j.taken[i]? := by
    rw [htaken]
    rcases hk with hk | rfl
    · exact List.getElem?_append_left (by omega)
    · rw [List.append_nil]
  rw [wbeat, wbeat, hget]

/-- One more beat of the burst is passed on. -/
theorem passed_succ {j j' : WriteJob} {k : ℕ} (h : j.Passed k) (hdesc : j'.desc = j.desc) {more : List Beat}
    (htaken : j'.taken = j.taken ++ more) (hk : k ≤ j.taken.length ∨ more = [])
    (hpassed : j'.passed = j.passed ++ [wbeat j'.len j'.taken k]) : j'.Passed (k + 1) := by
  have hbefore : WriteJob.Passed { j' with passed := j.passed } k := passed_of_taken h hdesc rfl htaken hk
  rw [WriteJob.Passed, hpassed, List.range_succ, List.map_append, List.map_singleton]
  exact congrArg (· ++ _) hbefore

/-- The counters once a beat of the burst was passed on. -/
theorem InBurst.next {j j' : WriteJob} {k : ℕ} (h : e.InBurst j k)
    (hstate : e.state = .write ∨ e.state = .finishBurst) (hpass : (e.writes axis || e.fills) = true)
    (hmore : k + 1 ≠ burstLength j.len) (hdesc : j'.desc = j.desc) (hnext : Bursting j' (k + 1)) :
    (e.step desc axis slave).InBurst j' (k + 1) := by
  have hlen : j'.len = j.len := by rw [WriteJob.len, hdesc, WriteJob.len]
  have hidle : e.state ≠ .idle := by rcases hstate with h | h <;> simp [h]
  have hstart : e.state ≠ .start := by rcases hstate with h | h <;> simp [h]
  have hstarts : e.starts axis = false := by simp [starts, hstart]
  have hfits := h.fits
  have hcount := h.count
  refine ⟨hnext, ?_, ?_, ?_, ?_, ?_, ?_⟩
  · rw [hlen]
    omega
  · simp [AxiDmaWr.step, hidle, hstarts, h.op]
  · simp [AxiDmaWr.step, hstart, h.last]
  · simp [AxiDmaWr.step, hidle, h.offset, hlen]
  · simp only [AxiDmaWr.step, hstart, hpass, if_false, if_true, hlen]
    omega
  · have hlast : e.outputCycleCount - 1 = 0 ↔ k + 1 + 1 = burstLength j.len := by omega
    simp only [AxiDmaWr.step, hstart, hpass, if_false, if_true, hlen, hlast]

/-- The counters in a cycle in which nothing is passed on. -/
theorem InBurst.wait {j : WriteJob} {k : ℕ} (h : e.InBurst j k)
    (hstate : e.state = .write ∨ e.state = .finishBurst) (hpass : (e.writes axis || e.fills) = false) :
    (e.step desc axis slave).InBurst j k := by
  have hidle : e.state ≠ .idle := by rcases hstate with h | h <;> simp [h]
  have hstart : e.state ≠ .start := by rcases hstate with h | h <;> simp [h]
  have hstarts : e.starts axis = false := by simp [starts, hstart]
  refine ⟨h.toBursting, h.fits, ?_, ?_, ?_, ?_, ?_⟩
  · simp [AxiDmaWr.step, hidle, hstarts, h.op]
  · simp [AxiDmaWr.step, hstart, h.last]
  · simp [AxiDmaWr.step, hidle, h.offset]
  · simpa [AxiDmaWr.step, hstart, hpass] using h.count
  · simp [AxiDmaWr.step, hstart, hpass, h.lastCycle]

/-- The beat written in a burst is that of the frame. -/
theorem wInt_of_writes {j : WriteJob} {b : Beat} (h : e.InBurst j j.taken.length)
    (hwrites : e.writes (some b) = true) : e.wInt (some b) = some (wbeat j.len (j.taken ++ [b]) j.taken.length) := by
  have hget : (j.taken ++ [b])[j.taken.length]? = some b := by simp
  have hmask : e.lastCycleMask = lastMask j.len := by rw [lastCycleMask, lastMask, h.offset]
  rw [wInt, if_pos hwrites, wbeat, hget]
  simp only [wstrbInt, axisLines, Option.getD_some, h.lastCycle, h.last, h.op, h.offset, hmask, strobe,
    decide_true, Bool.and_true, Bool.and_eq_true, decide_eq_true_eq, ne_eq]

/-- A job to which nothing is added. -/
theorem advance_eq_self {j : WriteJob} (hstarts : e.starts axis = false) (htaking : e.taking axis = [])
    (hentering : e.entering axis = []) : j.advance e axis = j := by
  simp [WriteJob.advance, requesting, hstarts, htaking, hentering]

/-- Nothing is taken while the stream is not ready. -/
theorem taking_of_not_ready (h : e.dataTready = false) : e.taking axis = [] := by simp [taking, h]

/-- Outside of the two states that take beats the stream is not ready. -/
theorem Room.not_ready (h : e.Room) (hwrite : e.state ≠ .write) (hdrop : e.state ≠ .dropData) :
    e.dataTready = false := by
  rw [← Bool.not_eq_true]
  intro hready
  exact (h.taking hready).elim hwrite hdrop

/-- A descriptor is accepted: the DMA waits for its frame. -/
theorem serves_accept (haccepts : e.accepts desc = true) (hslot : DmaWrRun.SlotDesc desc) :
    (e.step desc axis slave).Serves (some (.accepted desc)) := by
  have hidle : e.state = .idle := by
    simp only [accepts, Bool.and_eq_true, decide_eq_true_eq] at haccepts
    exact haccepts.1.1
  have hstate : (e.step desc axis slave).state = .start := by simp [AxiDmaWr.step, stateNext, hidle, haccepts]
  have haddr : desc.addr >>> 3 <<< 3 = desc.addr := by
    have hmod := hslot.1
    apply BitVec.eq_of_toNat_eq
    rw [BitVec.toNat_shiftLeft, BitVec.toNat_ushiftRight, Nat.shiftRight_eq_div_pow, Nat.shiftLeft_eq]
    have hlt := desc.addr.isLt
    omega
  simp only [Serves, hstate]
  refine ⟨rfl, hslot, ?_, ?_, ?_⟩
  · simp [AxiDmaWr.step, hidle, WriteJob.len, WriteJob.accepted]
  · simp [AxiDmaWr.step, hidle, WriteJob.accepted, haddr]
  · simp [AxiDmaWr.step, hidle, WriteJob.len, WriteJob.accepted]

/-- In `STATE_START` the burst is requested, or the DMA goes on waiting. -/
theorem serves_start {j : WriteJob} (hroom : e.Room) (hstate : e.state = .start) (h : e.Requested j) :
    (e.step desc axis slave).Serves (some (j.advance e axis)) := by
  have htaking : e.taking axis = [] := taking_of_not_ready (hroom.not_ready (by simp [hstate]) (by simp [hstate]))
  have hentering : e.entering axis = [] := entering_of_not (by simp [writes, hstate]) (by simp [fills, hstate])
  cases hstarts : e.starts axis with
  | false =>
    have hnext : (e.step desc axis slave).state = .start := by simp [AxiDmaWr.step, stateNext, hstate, hstarts]
    rw [advance_eq_self hstarts htaking hentering]
    simp only [Serves, hnext]
    refine ⟨h.fresh, h.slot, ?_, ?_, ?_⟩
    · simp [AxiDmaWr.step, hstate, hstarts, h.op]
    · simp [AxiDmaWr.step, hstate, hstarts, h.addr]
    · simp [AxiDmaWr.step, hstate, h.offset]
  | true =>
    have hnext : (e.step desc axis slave).state = .write := by simp [AxiDmaWr.step, stateNext, hstate, hstarts]
    have hlen := trWordCount_eq h
    have hcycles : e.cycleCount + 1 = burstLength j.len := by rw [cycleCount, hlen, burstLength]
    have hbursts : j.bursts = [] := by rw [h.fresh]; rfl
    have htaken : j.taken = [] := by rw [h.fresh]; rfl
    have hpassed : j.passed = [] := by rw [h.fresh]; rfl
    have hjob : j.advance e axis = { j with bursts := [(j.desc.addr, burstLength j.len - 1)] } := by
      simp [WriteJob.advance, requesting, hstarts, htaking, hentering, hbursts, htaken, hpassed, h.addr,
        Nat.eq_sub_of_add_eq hcycles]
    rw [hjob]
    simp only [Serves, hnext, htaken]
    refine ⟨by simp [WriteJob.Open, Framing.Open], ⟨h.slot, rfl, by simp [WriteJob.Passed, hpassed]⟩, ?_, ?_, ?_, ?_, ?_, ?_⟩
    · exact Nat.succ_pos _
    · simp [AxiDmaWr.step, hstate, hstarts, hlen, h.op]
    · simp [AxiDmaWr.step, hstate, hlen, h.op]
    · simp [AxiDmaWr.step, hstate, h.offset, WriteJob.len]
    · simp [AxiDmaWr.step, hstate, hcycles, WriteJob.len]
    · have hzero : e.cycleCount = 0 ↔ 0 + 1 = burstLength j.len := by omega
      simpa [AxiDmaWr.step, hstate, WriteJob.len] using hzero

/-- A frame whose last beat comes. -/
theorem framed_of_open {j j' : WriteJob} {b : Beat} (h : j.Open) (hlast : b.tlast = true)
    (htaken : j'.taken = j.taken ++ [b]) : j'.Framed := ⟨j.taken, b, htaken, hlast, h⟩

/-- A frame that goes on. -/
theorem open_of_open {j j' : WriteJob} {b : Beat} (h : j.Open) (hlast : b.tlast = false)
    (htaken : j'.taken = j.taken ++ [b]) : j'.Open := by
  intro c hc
  rw [htaken, List.mem_append, List.mem_singleton] at hc
  rcases hc with hc | rfl
  · exact h c hc
  · exact hlast

/-- The job once a beat of its frame was written. -/
theorem advance_of_writes {j : WriteJob} {b : Beat} (hroom : e.Room) (hstate : e.state = .write)
    (h : e.InBurst j j.taken.length) (hwrites : e.writes (some b) = true) :
    (j.advance e (some b)).taken = j.taken ++ [b] ∧ Bursting (j.advance e (some b)) (j.taken.length + 1) := by
  have hready : e.dataTready = true := by
    have htakes := hwrites
    rw [writes_eq hstate h.last, takes, Bool.and_eq_true] at htakes
    exact htakes.1
  have htaken : (j.advance e (some b)).taken = j.taken ++ [b] := by simp [WriteJob.advance, taking, hready]
  have hfifo : e.outFifo.length < 32 := by
    have hle := hroom.room
    omega
  have hpassed : (j.advance e (some b)).passed = j.passed ++ [wbeat j.len (j.taken ++ [b]) j.taken.length] := by
    simp [WriteJob.advance, entering, hfifo, wInt_of_writes h hwrites]
  refine ⟨htaken, h.slot, ?_, ?_⟩
  · simp [WriteJob.advance, requesting, starts, hstate, h.bursts, WriteJob.len]
  · refine passed_succ h.passed rfl htaken (Or.inl (Nat.le_refl _)) ?_
    rw [hpassed, htaken]
    rfl

/-- What becomes of the current job: it was served, or the DMA goes on with it. -/
def Proceeds (e : AxiDmaWr) (i : DmaWrCycle) (j : WriteJob) : Prop :=
  if e.stateNext i.desc i.axis = .idle then Served j else (e.step i.desc i.axis i.slave).Serves (some j)

/-- In `STATE_WRITE` the next beat of the frame is passed on. -/
theorem proceeds_write {i : DmaWrCycle} {j : WriteJob} (hroom : e.Room) (hstate : e.state = .write) (hopen : j.Open)
    (h : e.InBurst j j.taken.length) : e.Proceeds i (j.advance e i.axis) := by
  obtain ⟨desc, axis, slave⟩ := i
  have hfills : e.fills = false := by simp [fills, hstate]
  have hstarts : e.starts axis = false := by simp [starts, hstate]
  have hstep : (e.step desc axis slave).state = e.stateNext desc axis := rfl
  cases hwrites : e.writes axis with
  | false =>
    have hnext : e.stateNext desc axis = .write := by simp [stateNext, hstate, hwrites]
    have htaking : e.taking axis = [] := by
      rw [writes_eq hstate h.last, takes] at hwrites
      cases axis <;> simp_all [taking]
    rw [Proceeds, if_neg (by simp [hnext]), advance_eq_self hstarts htaking (entering_of_not hwrites hfills)]
    simp only [Serves, hstep, hnext]
    exact ⟨hopen, h.wait (Or.inl hstate) (by simp [hwrites, hfills])⟩
  | true =>
    have hsome : axis.isSome = true := by
      rw [writes_eq hstate h.last, takes, Bool.and_eq_true] at hwrites
      exact hwrites.2
    obtain ⟨b, rfl⟩ := Option.isSome_iff_exists.mp hsome
    obtain ⟨htaken, hbursting⟩ := advance_of_writes hroom hstate h hwrites
    have hstateNext : e.stateNext desc (some b) =
        if b.tlast then if e.outputLastCycle then .idle else .finishBurst
        else if e.outputLastCycle then .dropData else .write := by
      simp [stateNext, hstate, hwrites, axisLines, h.op]
    have hlen : (j.advance e (some b)).len = j.len := rfl
    have hlength : (j.advance e (some b)).taken.length = j.taken.length + 1 := by simp [htaken]
    rw [Proceeds]
    dsimp only
    rw [hstateNext]
    by_cases hlast : j.taken.length + 1 = burstLength j.len
    · have hlastCycle : e.outputLastCycle = true := by simp [h.lastCycle, hlast]
      rw [hlast] at hbursting
      cases htlast : b.tlast with
      | true =>
        rw [if_pos (by simp [hlastCycle])]
        exact ⟨hbursting, framed_of_open hopen htlast htaken⟩
      | false =>
        have hnext : (e.step desc (some b) slave).state = .dropData := by
          rw [hstep, hstateNext]
          simp [htlast, hlastCycle]
        have hready : (e.step desc (some b) slave).dataTready = true := by
          simp [AxiDmaWr.step, dataTreadyNext, hstate, hwrites, axisLines, htlast, hlastCycle, h.op]
        rw [if_neg (by simp [hlastCycle])]
        simp only [Serves, hnext]
        exact ⟨open_of_open hopen htlast htaken, hready, Nat.le_of_eq (by rw [hlen, hlength, hlast]),
          hbursting⟩
    · have hlastCycle : e.outputLastCycle = false := by simp [h.lastCycle, hlast]
      have hburst : (e.step desc (some b) slave).InBurst (j.advance e (some b)) (j.taken.length + 1) :=
        h.next (Or.inl hstate) (by simp [hwrites]) hlast rfl hbursting
      cases htlast : b.tlast with
      | true =>
        have hnext : (e.step desc (some b) slave).state = .finishBurst := by
          rw [hstep, hstateNext]
          simp [htlast, hlastCycle]
        rw [if_neg (by simp [hlastCycle])]
        simp only [Serves, hnext]
        exact ⟨framed_of_open hopen htlast htaken, _, Nat.le_of_eq hlength, hburst⟩
      | false =>
        have hnext : (e.step desc (some b) slave).state = .write := by
          rw [hstep, hstateNext]
          simp [htlast, hlastCycle]
        rw [if_neg (by simp [hlastCycle])]
        simp only [Serves, hnext, hlength]
        exact ⟨open_of_open hopen htlast htaken, hburst⟩

/-- In `STATE_FINISH_BURST` the burst is filled up with empty beats. -/
theorem proceeds_finishBurst {i : DmaWrCycle} {j : WriteJob} {k : ℕ} (hroom : e.Room)
    (hstate : e.state = .finishBurst) (hframed : j.Framed) (hk : j.taken.length ≤ k) (h : e.InBurst j k) :
    e.Proceeds i (j.advance e i.axis) := by
  obtain ⟨desc, axis, slave⟩ := i
  have hwrites : e.writes axis = false := by simp [writes, hstate]
  have hstarts : e.starts axis = false := by simp [starts, hstate]
  have hstep : (e.step desc axis slave).state = e.stateNext desc axis := rfl
  have htaking : e.taking axis = [] := taking_of_not_ready (hroom.not_ready (by simp [hstate]) (by simp [hstate]))
  cases hfills : e.fills with
  | false =>
    have hwready : e.wreadyInt = false := by simpa [fills, hstate] using hfills
    have hnext : e.stateNext desc axis = .finishBurst := by simp [stateNext, hstate, hwready]
    rw [Proceeds, if_neg (by simp [hnext]), advance_eq_self hstarts htaking (entering_of_not hwrites hfills)]
    simp only [Serves, hstep, hnext]
    exact ⟨hframed, k, hk, h.wait (Or.inr hstate) (by simp [hwrites, hfills])⟩
  | true =>
    have hwready : e.wreadyInt = true := by simpa [fills, hstate] using hfills
    have hstateNext : e.stateNext desc axis = if e.outputLastCycle then .idle else .finishBurst := by
      simp [stateNext, hstate, hwready]
    have hfifo : e.outFifo.length < 32 := by
      have hle := hroom.room
      omega
    have htaken : (j.advance e axis).taken = j.taken ++ [] := by simp [WriteJob.advance, htaking]
    have hempty : wbeat j.len j.taken k = ⟨0, 0, e.outputLastCycle⟩ := by
      rw [wbeat, List.getElem?_eq_none hk, h.lastCycle]
    have hpassed : (j.advance e axis).passed = j.passed ++ [wbeat j.len j.taken k] := by
      simp [WriteJob.advance, entering, hfifo, wInt, hwrites, hfills, hempty]
    have hbursting : Bursting (j.advance e axis) (k + 1) := by
      refine ⟨h.slot, by simp [WriteJob.advance, requesting, hstarts, h.bursts, WriteJob.len], ?_⟩
      refine passed_succ h.passed rfl htaken (Or.inr rfl) ?_
      rw [hpassed, htaken, List.append_nil]
      rfl
    have hframed' : (j.advance e axis).Framed := by
      rw [WriteJob.Framed, htaken, List.append_nil]
      exact hframed
    rw [Proceeds]
    dsimp only
    rw [hstateNext]
    by_cases hlast : k + 1 = burstLength j.len
    · have hlastCycle : e.outputLastCycle = true := by simp [h.lastCycle, hlast]
      rw [hlast] at hbursting
      rw [if_pos (by simp [hlastCycle])]
      exact ⟨hbursting, hframed'⟩
    · have hlastCycle : e.outputLastCycle = false := by simp [h.lastCycle, hlast]
      have hnext : (e.step desc axis slave).state = .finishBurst := by
        rw [hstep, hstateNext]
        simp [hlastCycle]
      rw [if_neg (by simp [hlastCycle])]
      simp only [Serves, hnext]
      refine ⟨hframed', k + 1, ?_, h.next (Or.inr hstate) (by simp [hfills]) hlast rfl hbursting⟩
      rw [htaken, List.append_nil]
      exact Nat.le_succ_of_le hk

/-- In `STATE_DROP_DATA` the rest of the frame is taken and dropped. -/
theorem proceeds_dropData {i : DmaWrCycle} {j : WriteJob} (hstate : e.state = .dropData) (hopen : j.Open)
    (hready : e.dataTready = true) (hk : burstLength j.len ≤ j.taken.length) (h : Bursting j (burstLength j.len)) :
    e.Proceeds i (j.advance e i.axis) := by
  obtain ⟨desc, axis, slave⟩ := i
  have hwrites : e.writes axis = false := by simp [writes, hstate]
  have hfills : e.fills = false := by simp [fills, hstate]
  have hstarts : e.starts axis = false := by simp [starts, hstate]
  have hstep : (e.step desc axis slave).state = e.stateNext desc axis := rfl
  have hentering := entering_of_not hwrites hfills
  have hstateNext : e.stateNext desc axis = if axis.any Beat.tlast then .idle else .dropData := by
    simp [stateNext, hstate]
  have htreadyNext : (e.step desc axis slave).dataTready = !axis.any Beat.tlast := by
    simp [AxiDmaWr.step, dataTreadyNext, hstate]
  have hbursting : Bursting (j.advance e axis) (burstLength j.len) := by
    refine ⟨h.slot, by simp [WriteJob.advance, requesting, hstarts, h.bursts, WriteJob.len], ?_⟩
    exact passed_of_taken h.passed rfl (by simp [WriteJob.advance, hentering]) rfl (Or.inl hk)
  rw [Proceeds]
  dsimp only
  rw [hstateNext]
  cases axis with
  | none =>
    have hnext : (e.step desc none slave).state = .dropData := by rw [hstep, hstateNext]; rfl
    have hself : j.advance e none = j := advance_eq_self hstarts (by simp [taking]) hentering
    rw [if_neg (by simp), hself]
    simp only [Serves, hnext]
    exact ⟨hopen, htreadyNext, hk, h⟩
  | some b =>
    have htaken : (j.advance e (some b)).taken = j.taken ++ [b] := by simp [WriteJob.advance, taking, hready]
    cases htlast : b.tlast with
    | true =>
      rw [if_pos (by simp [htlast])]
      exact ⟨hbursting, framed_of_open hopen htlast htaken⟩
    | false =>
      have hnext : (e.step desc (some b) slave).state = .dropData := by
        rw [hstep, hstateNext]
        simp [htlast]
      rw [if_neg (by simp [htlast])]
      simp only [Serves, hnext]
      refine ⟨open_of_open hopen htlast htaken, by simp [htreadyNext, htlast], ?_, hbursting⟩
      rw [htaken, List.length_append]
      exact Nat.le_add_right_of_le hk

/-- An idle DMA serves nothing. -/
theorem serves_idle_iff (hstate : e.state = .idle) {current : Option WriteJob} : e.Serves current ↔ current = none := by
  cases current <;> simp [Serves, hstate]

/-- A DMA that is not idle serves a descriptor. -/
theorem exists_of_serves (hstate : e.state ≠ .idle) {current : Option WriteJob} (h : e.Serves current) :
    ∃ j, current = some j := by
  cases current with
  | some j => exact ⟨j, rfl⟩
  | none => cases hcase : e.state <;> simp_all [Serves]

/-- A descriptor is accepted in the idle state only. -/
theorem idle_of_accepts (h : e.accepts desc = true) : e.state = .idle := by
  simp only [accepts, Bool.and_eq_true, decide_eq_true_eq] at h
  exact h.1.1

/-- The current job goes on, or it was served. -/
theorem proceeds_of_serves {i : DmaWrCycle} {j : WriteJob} (hroom : e.Room) (h : e.Serves (some j)) :
    e.Proceeds i (j.advance e i.axis) := by
  cases hstate : e.state with
  | idle => simp [Serves, hstate] at h
  | start =>
    have hnext : e.stateNext i.desc i.axis ≠ .idle := by
      simp only [stateNext, hstate]
      split <;> simp
    simp only [Serves, hstate] at h
    rw [Proceeds, if_neg hnext]
    exact serves_start hroom hstate h
  | write =>
    simp only [Serves, hstate] at h
    exact proceeds_write hroom hstate h.1 h.2
  | finishBurst =>
    simp only [Serves, hstate] at h
    obtain ⟨hframed, k, hk, hburst⟩ := h
    exact proceeds_finishBurst hroom hstate hframed hk hburst
  | dropData =>
    simp only [Serves, hstate] at h
    exact proceeds_dropData hstate h.1 h.2.1 h.2.2.1 h.2.2.2

/-- A DMA in `STATE_WRITE` is in its single burst. -/
theorem inBurst_of_write {current : Option WriteJob} (hstate : e.state = .write) (h : e.Serves current) :
    ∃ j k, e.InBurst j k := by
  obtain ⟨j, rfl⟩ := exists_of_serves (by simp [hstate]) h
  simp only [Serves, hstate] at h
  exact ⟨j, _, h.2⟩

end AxiDmaWr

namespace DmaWrRun

open AxiDmaWr WriteJob

/-- The write DMA under any stream and any write channel. -/
def machine : Clocked.Machine DmaWrRun DmaWrCycle where
  step := step
  legal := Legal

/-- What is known of the work of the DMA in every state. -/
structure Tracked (s : DmaWrRun) : Prop where
  room : s.engine.Room
  serves : s.engine.Serves s.current
  served : ∀ j ∈ s.finished, Served j
  handed : s.handed ++ s.engine.pending = s.jobs.flatMap WriteJob.passed

/-- After reset nothing was passed on. -/
theorem tracked_start : start.Tracked where
  room := room_reset
  serves := trivial
  served := by simp [start]
  handed := rfl

variable {s : DmaWrRun} {i : DmaWrCycle}

/-- From the idle state at most a new job is added. -/
theorem jobs_step_of_idle (h : s.engine.Serves s.current) (hidle : s.engine.state = .idle) :
    s.current = none ∧ (s.step i).jobs = s.jobs ++ if s.engine.accepts i.desc then [.accepted i.desc] else [] := by
  have hcurrent : s.current = none := (serves_idle_iff hidle).mp h
  refine ⟨hcurrent, ?_⟩
  simp only [jobs, step, hcurrent, Option.map_none, Option.toList_none, List.append_nil, ite_self]
  split <;> rfl

/-- Outside of it the current job is the last one and advances. -/
theorem jobs_step_of_busy (h : s.engine.Serves s.current) (hidle : s.engine.state ≠ .idle) :
    s.engine.accepts i.desc = false ∧ ∃ j, s.current = some j ∧
      (s.step i).jobs = s.finished ++ [j.advance s.engine i.axis] := by
  obtain ⟨j, hj⟩ := exists_of_serves hidle h
  have haccepts : s.engine.accepts i.desc = false := by simp [accepts, hidle]
  refine ⟨haccepts, j, hj, ?_⟩
  simp only [jobs, step, hj, haccepts, Option.map_some]
  split <;> simp

/-- What the jobs collect in a cycle is collected by the current one. -/
theorem flatMap_jobs_step {β : Type} {f : WriteJob → List β} {more : List β} (h : s.engine.Serves s.current)
    (haccepted : ∀ desc, f (.accepted desc) = []) (hadvance : ∀ j, f (j.advance s.engine i.axis) = f j ++ more)
    (hmore : s.engine.state = .idle → more = []) : (s.step i).jobs.flatMap f = s.jobs.flatMap f ++ more := by
  by_cases hidle : s.engine.state = .idle
  · obtain ⟨-, hjobs⟩ := jobs_step_of_idle (i := i) h hidle
    rw [hjobs, hmore hidle, List.flatMap_append]
    split <;> simp [haccepted]
  · obtain ⟨-, j, hj, hjobs⟩ := jobs_step_of_busy (i := i) h hidle
    rw [hjobs, jobs, hj]
    simp [hadvance]

/-- The jobs after a cycle, as far as they were passed on. -/
theorem flatMap_passed_step (h : s.engine.Serves s.current) :
    (s.step i).jobs.flatMap WriteJob.passed = s.jobs.flatMap WriteJob.passed ++ s.engine.entering i.axis :=
  flatMap_jobs_step h (fun _ => rfl) (fun _ => rfl) fun hidle =>
    entering_of_not (by simp [writes, hidle]) (by simp [fills, hidle])

/-- The jobs after a cycle, as far as their frames were taken. -/
theorem flatMap_taken_step (h : s.engine.Serves s.current) (hroom : s.engine.Room) :
    (s.step i).jobs.flatMap WriteJob.taken = s.jobs.flatMap WriteJob.taken ++ s.engine.taking i.axis :=
  flatMap_jobs_step h (fun _ => rfl) (fun _ => rfl) fun hidle =>
    taking_of_not_ready (hroom.not_ready (by simp [hidle]) (by simp [hidle]))

/-- The descriptors after a cycle: one more for each that is accepted. -/
theorem descs_step (h : s.engine.Serves s.current) : (s.step i).jobs.map WriteJob.desc =
    s.jobs.map WriteJob.desc ++ if s.engine.accepts i.desc then [i.desc] else [] := by
  by_cases hidle : s.engine.state = .idle
  · obtain ⟨-, hjobs⟩ := jobs_step_of_idle (i := i) h hidle
    rw [hjobs, List.map_append]
    split <;> simp [WriteJob.accepted]
  · obtain ⟨haccepts, j, hj, hjobs⟩ := jobs_step_of_busy (i := i) h hidle
    rw [hjobs, jobs, hj, haccepts]
    simp [WriteJob.advance]

/-- Every cycle keeps the record of the work. -/
theorem Tracked.step (h : s.Tracked) (hlegal : s.Legal i) : (s.step i).Tracked := by
  refine ⟨?_, ?_, ?_, ?_⟩
  · refine h.room.step (fun hwrite => ?_) fun hwrite => ?_
    · obtain ⟨j, k, hburst⟩ := inBurst_of_write hwrite h.serves
      exact hburst.last
    · obtain ⟨j, k, hburst⟩ := inBurst_of_write hwrite h.serves
      exact hburst.op
  · cases haccepts : s.engine.accepts i.desc with
    | true =>
      simp only [DmaWrRun.step, haccepts, if_true]
      exact serves_accept haccepts (hlegal haccepts)
    | false =>
      by_cases hidle : s.engine.state = .idle
      · have hcurrent : s.current = none := (serves_idle_iff hidle).mp h.serves
        have hnext : (s.step i).engine.state = .idle := by
          simp [DmaWrRun.step, AxiDmaWr.step, stateNext, hidle, haccepts]
        rw [serves_idle_iff hnext]
        simp [DmaWrRun.step, haccepts, hcurrent]
      · obtain ⟨j, hj⟩ := exists_of_serves hidle h.serves
        have hproceeds := proceeds_of_serves (i := i) h.room (hj ▸ h.serves)
        simp only [DmaWrRun.step, haccepts, Bool.false_eq_true, if_false, hj, Option.map_some]
        by_cases hover : s.engine.stateNext i.desc i.axis = .idle
        · rw [if_pos hover]
          exact (serves_idle_iff hover).mpr rfl
        · rw [if_neg hover]
          rwa [Proceeds, if_neg hover] at hproceeds
  · intro j' hj'
    by_cases hover : s.engine.stateNext i.desc i.axis = .idle
    · simp only [DmaWrRun.step, if_pos hover, List.mem_append, Option.mem_toList,
        Option.map_eq_some_iff] at hj'
      rcases hj' with hold | ⟨j, hj, rfl⟩
      · exact h.served j' hold
      · have hproceeds := proceeds_of_serves (i := i) h.room (hj ▸ h.serves)
        rwa [Proceeds, if_pos hover] at hproceeds
    · simp only [DmaWrRun.step, if_neg hover] at hj'
      exact h.served j' hj'
  · rw [flatMap_passed_step h.serves, ← h.handed, List.append_assoc, ← handed_append_pending s.engine i.desc i.axis i.slave]
    simp [DmaWrRun.step]

/-- A burst that was passed on completely is that of the job's frame, as far as it was taken. -/
theorem bursting_of_complete (h : s.Tracked) {j : WriteJob} (hj : j ∈ s.jobs) (hcomplete : j.Complete) :
    Bursting j (burstLength j.len) ∧ (j.Framed ∨ burstLength j.len ≤ j.taken.length) := by
  rw [jobs, List.mem_append, Option.mem_toList] at hj
  rcases hj with hfinished | hcurrent
  · have hserved := h.served j hfinished
    exact ⟨hserved.toBursting, Or.inl hserved.framed⟩
  · have hserves := h.serves
    rw [hcurrent] at hserves
    have hshort {k : ℕ} (hburst : s.engine.InBurst j k) : False := by
      have hlength : j.passed.length = k := by simp [show j.passed = _ from hburst.passed]
      have hfits := hburst.fits
      rw [WriteJob.Complete] at hcomplete
      omega
    cases hstate : s.engine.state with
    | idle => simp [Serves, hstate] at hserves
    | start =>
      simp only [Serves, hstate] at hserves
      rw [WriteJob.Complete, hserves.fresh, burstLength] at hcomplete
      simp [WriteJob.accepted] at hcomplete
    | write =>
      simp only [Serves, hstate] at hserves
      exact (hshort hserves.2).elim
    | finishBurst =>
      simp only [Serves, hstate] at hserves
      obtain ⟨-, k, -, hburst⟩ := hserves
      exact (hshort hburst).elim
    | dropData =>
      simp only [Serves, hstate] at hserves
      exact ⟨hserves.2.2.2, Or.inr hserves.2.2.1⟩

/-- It carries the frame that is taken. -/
theorem passed_eq_burst (h : s.Tracked) {j : WriteJob} (hj : j ∈ s.jobs) (hcomplete : j.Complete)
    {frame : List Beat} (hframe : Framing.Frame Beat.tlast frame) (htaken : j.taken <+: frame) :
    j.passed = burst j.len frame := by
  obtain ⟨hbursting, hframed⟩ := bursting_of_complete h hj hcomplete
  rw [show j.passed = _ from hbursting.passed, burst]
  refine List.map_congr_left fun i hi => ?_
  have hget : j.taken[i]? = frame[i]? := by
    rcases hframed with hframed | hlong
    · rw [hframed.eq_of_isPrefix hframe htaken]
    · obtain ⟨more, rfl⟩ := htaken
      have hi := List.mem_range.mp hi
      exact (List.getElem?_append_left (by omega)).symm
  rw [wbeat, wbeat, hget]

/-- What is taken of the current frame is a frame, whole or begun. -/
theorem current_framed (h : s.Tracked) {j : WriteJob} (hj : s.current = some j) : j.Framed ∨ j.Open := by
  have hserves := h.serves
  rw [hj] at hserves
  cases hstate : s.engine.state with
  | idle => simp [Serves, hstate] at hserves
  | start =>
    simp only [Serves, hstate] at hserves
    rw [hserves.fresh]
    exact Or.inr fun b hb => absurd hb List.not_mem_nil
  | write =>
    simp only [Serves, hstate] at hserves
    exact Or.inr hserves.1
  | finishBurst =>
    simp only [Serves, hstate] at hserves
    exact Or.inl hserves.1
  | dropData =>
    simp only [Serves, hstate] at hserves
    exact Or.inr hserves.1

/-- When the beats that were taken begin a stream of frames, each job takes its own one. -/
theorem taken_isPrefix (h : s.Tracked) {frames : List (List Beat)}
    (hframes : ∀ frame ∈ frames, Framing.Frame Beat.tlast frame)
    (htaken : s.jobs.flatMap WriteJob.taken <+: frames.flatten) {k : ℕ} {j : WriteJob} {frame : List Beat}
    (hj : s.jobs[k]? = some j) (hframe : frames[k]? = some frame) : j.taken <+: frame := by
  have hserved : ∀ taken ∈ s.finished.map WriteJob.taken, Framing.Frame Beat.tlast taken := by
    intro taken hmem
    obtain ⟨j, hj, rfl⟩ := List.mem_map.mp hmem
    exact (h.served j hj).framed
  have hsplit : s.jobs.flatMap WriteJob.taken =
      (s.finished.map WriteJob.taken).flatten ++ s.current.toList.flatMap WriteJob.taken := by
    rw [jobs, List.flatMap_append, List.flatMap_def]
  rw [hsplit] at htaken
  obtain ⟨hfinished, hrest⟩ := Framing.isPrefix_of_flatten hserved hframes htaken
  rw [List.length_map] at hrest
  rw [jobs] at hj
  by_cases hk : k < s.finished.length
  · rw [List.getElem?_append_left hk] at hj
    obtain ⟨more, rfl⟩ := hfinished
    rw [List.getElem?_append_left (by rwa [List.length_map]), List.getElem?_map, hj] at hframe
    exact Option.some.inj hframe ▸ List.prefix_rfl
  · rw [List.getElem?_append_right (Nat.le_of_not_lt hk)] at hj
    cases hcurrent : s.current with
    | none => simp [hcurrent] at hj
    | some current =>
      rw [hcurrent, Option.toList_some, List.getElem?_singleton] at hj
      split at hj
      · rename_i hzero
        have hlast : k = s.finished.length := by omega
        subst hlast
        rw [Option.some.injEq] at hj
        subst hj
        obtain ⟨hlt, hget⟩ := List.getElem?_eq_some_iff.mp hframe
        rw [hcurrent, Option.toList_some, List.flatMap_singleton, List.drop_eq_getElem_cons hlt, hget] at hrest
        exact Framing.isPrefix_head (current_framed h hcurrent) (hframes frame (List.mem_of_getElem? hframe)) hrest
      · simp at hj

/-- The bursts that were handed over to their last beat. -/
def completed (s : DmaWrRun) : ℕ := s.handed.countP WBeat.wlast

/-- A job has passed on the first beats of its burst. -/
theorem exists_passed (h : s.Tracked) {j : WriteJob} (hj : j ∈ s.jobs) : ∃ k, j.Passed k := by
  rw [jobs, List.mem_append, Option.mem_toList] at hj
  rcases hj with hfinished | hcurrent
  · exact ⟨_, (h.served j hfinished).passed⟩
  · have hserves := h.serves
    rw [hcurrent] at hserves
    cases hstate : s.engine.state with
    | idle => simp [Serves, hstate] at hserves
    | start =>
      simp only [Serves, hstate] at hserves
      rw [hserves.fresh]
      exact ⟨0, rfl⟩
    | write =>
      simp only [Serves, hstate] at hserves
      exact ⟨_, hserves.2.passed⟩
    | finishBurst =>
      simp only [Serves, hstate] at hserves
      obtain ⟨-, k, -, hburst⟩ := hserves
      exact ⟨k, hburst.passed⟩
    | dropData =>
      simp only [Serves, hstate] at hserves
      exact ⟨_, hserves.2.2.2.passed⟩

/-- A burst has one last beat. -/
theorem countP_passed_le {j : WriteJob} {k : ℕ} (h : j.Passed k) : j.passed.countP WBeat.wlast ≤ 1 := by
  have hlast : WBeat.wlast ∘ wbeat j.len j.taken = fun i => i == burstLength j.len - 1 := by
    funext i
    have hpos : 0 < burstLength j.len := Nat.succ_pos _
    rw [Function.comp_apply, wlast_wbeat, Bool.eq_iff_iff, decide_eq_true_eq, beq_iff_eq]
    omega
  rw [h, List.countP_map, hlast]
  exact List.nodup_iff_count.mp List.nodup_range _

/-- Jobs pass on at most one last beat each. -/
theorem countP_flatMap_passed_le (jobs : List WriteJob) (hjobs : ∀ j ∈ jobs, ∃ k, j.Passed k) :
    (jobs.flatMap WriteJob.passed).countP WBeat.wlast ≤ jobs.length := by
  induction jobs with
  | nil => exact Nat.le_refl _
  | cons j jobs ih =>
    obtain ⟨k, hk⟩ := hjobs j List.mem_cons_self
    have hfirst := countP_passed_le hk
    have hrest := ih fun j' hj' => hjobs j' (List.mem_cons_of_mem j hj')
    rw [List.flatMap_cons, List.countP_append, List.length_cons]
    omega

/-- A burst that was not passed on to its end has no last beat yet. -/
theorem countP_passed_of_lt {j : WriteJob} {k : ℕ} (h : j.Passed k) (hk : k < burstLength j.len) :
    j.passed.countP WBeat.wlast = 0 := by
  rw [h, List.countP_map, List.countP_eq_zero]
  intro i hi
  have hik := List.mem_range.mp hi
  rw [Function.comp_apply, wlast_wbeat, decide_eq_true_eq]
  omega

/-- The last beat that is handed over in a cycle, as a number. -/
theorem toNat_wlastHs (e : AxiDmaWr) (slave : AxiWriteSlave) :
    (e.wlastHs slave).toNat = (e.wHs slave).toList.countP WBeat.wlast := by
  rw [wlastHs]
  cases e.wHs slave with
  | none => rfl
  | some b => cases hlast : b.wlast <;> simp [hlast]

/-- The last beats handed over, the beat of this cycle included, were passed on before. -/
theorem completed_add_le_countP (h : s.Tracked) (slave : AxiWriteSlave) :
    s.completed + (s.engine.wlastHs slave).toNat ≤ (s.jobs.flatMap WriteJob.passed).countP WBeat.wlast := by
  have hbeat : (s.engine.wHs slave).toList <+: s.engine.pending := by
    rw [wHs, pending]
    cases slave.wready with
    | true => exact List.prefix_append _ _
    | false => exact List.nil_prefix
  calc
    s.completed + (s.engine.wlastHs slave).toNat
      = (s.handed ++ (s.engine.wHs slave).toList).countP WBeat.wlast := by
        rw [List.countP_append, toNat_wlastHs, completed]
    _ ≤ (s.handed ++ s.engine.pending).countP WBeat.wlast :=
        ((List.prefix_append_right_inj _).mpr hbeat).sublist.countP_le
    _ = (s.jobs.flatMap WriteJob.passed).countP WBeat.wlast := by rw [h.handed]

/-- No more bursts are handed over than descriptors were accepted. -/
theorem completed_add_le (h : s.Tracked) (slave : AxiWriteSlave) :
    s.completed + (s.engine.wlastHs slave).toNat ≤ s.jobs.length :=
  Nat.le_trans (completed_add_le_countP h slave) (countP_flatMap_passed_le _ fun _ hj => exists_passed h hj)

/-- Until the rest of a frame is dropped, its burst is not handed over. -/
theorem completed_add_le_finished (h : s.Tracked) (hstate : s.engine.state ≠ .dropData) (slave : AxiWriteSlave) :
    s.completed + (s.engine.wlastHs slave).toNat ≤ s.finished.length := by
  have hcurrent : (s.current.toList.flatMap WriteJob.passed).countP WBeat.wlast = 0 := by
    have hserves := h.serves
    cases hj : s.current with
    | none => rfl
    | some j =>
      rw [hj] at hserves
      rw [Option.toList_some, List.flatMap_singleton]
      cases hcase : s.engine.state with
      | idle => simp [Serves, hcase] at hserves
      | start =>
        simp only [Serves, hcase] at hserves
        rw [hserves.fresh]
        rfl
      | write =>
        simp only [Serves, hcase] at hserves
        exact countP_passed_of_lt hserves.2.passed hserves.2.fits
      | finishBurst =>
        simp only [Serves, hcase] at hserves
        obtain ⟨-, k, -, hburst⟩ := hserves
        exact countP_passed_of_lt hburst.passed hburst.fits
      | dropData => exact absurd hcase hstate
  have hle := completed_add_le_countP h slave
  rw [jobs, List.flatMap_append, List.countP_append, hcurrent, Nat.add_zero] at hle
  exact Nat.le_trans hle (countP_flatMap_passed_le _ fun j hj => ⟨_, (h.served j hj).passed⟩)

/-- A cycle in which a last beat is handed over completes one more burst. -/
theorem completed_step : (s.step i).completed = s.completed + (s.engine.wlastHs i.slave).toNat := by
  have hhanded : (s.step i).handed = s.handed ++ (s.engine.wHs i.slave).toList := rfl
  rw [completed, hhanded, List.countP_append, toNat_wlastHs, completed]

/-- The jobs of which beats were passed on. -/
def carried (s : DmaWrRun) : List WriteJob := s.finished ++ s.current.toList.filter fun j => !j.passed.isEmpty

/-- They are the first jobs, and all beats are theirs. -/
theorem carried_isPrefix (s : DmaWrRun) : s.carried <+: s.jobs ∧
    s.carried.flatMap WriteJob.passed = s.jobs.flatMap WriteJob.passed := by
  rw [carried, jobs]
  cases s.current with
  | none => simp
  | some j => cases hpassed : j.passed <;> simp [hpassed]

/-- Each of them has requested its burst. -/
theorem exists_bursting (h : s.Tracked) {j : WriteJob} (hj : j ∈ s.carried) :
    ∃ k, Bursting j k ∧ k ≤ burstLength j.len := by
  rw [carried, List.mem_append, List.mem_filter, Option.mem_toList] at hj
  rcases hj with hfinished | ⟨hcurrent, hpassed⟩
  · exact ⟨_, (h.served j hfinished).toBursting, Nat.le_refl _⟩
  · have hserves := h.serves
    rw [hcurrent] at hserves
    cases hstate : s.engine.state with
    | idle => simp [Serves, hstate] at hserves
    | start =>
      simp only [Serves, hstate] at hserves
      rw [hserves.fresh] at hpassed
      exact absurd hpassed (by simp [WriteJob.accepted])
    | write =>
      simp only [Serves, hstate] at hserves
      exact ⟨_, hserves.2.toBursting, Nat.le_of_lt hserves.2.fits⟩
    | finishBurst =>
      simp only [Serves, hstate] at hserves
      obtain ⟨-, k, -, hburst⟩ := hserves
      exact ⟨k, hburst.toBursting, Nat.le_of_lt hburst.fits⟩
    | dropData =>
      simp only [Serves, hstate] at hserves
      exact ⟨_, hserves.2.2.2, Nat.le_refl _⟩

/-- The burst of a job, once the rest of its frame is known, is a frame of the W channel. -/
theorem frame_burst (len : ℕ) (taken : List Beat) : Framing.Frame WBeat.wlast (burst len taken) := by
  refine ⟨(List.range ((len - 1) / 8)).map (wbeat len taken), wbeat len taken ((len - 1) / 8), ?_, ?_, ?_⟩
  · rw [burst, burstLength, List.range_succ, List.map_append, List.map_singleton]
  · rw [wlast_wbeat]
    exact decide_eq_true rfl
  · intro b hb
    obtain ⟨i, hi, rfl⟩ := List.mem_map.mp hb
    have hlt := List.mem_range.mp hi
    rw [wlast_wbeat, burstLength, decide_eq_false_iff_not]
    omega

/-- Beats that were passed on begin the burst. -/
theorem passed_isPrefix_burst {j : WriteJob} {k : ℕ} (h : j.Passed k) (hk : k ≤ burstLength j.len) :
    j.passed <+: burst j.len j.taken := by
  obtain ⟨more, hmore⟩ := Nat.exists_eq_add_of_le hk
  rw [h, burst, hmore, List.range_add, List.map_append]
  exact List.prefix_append _ _

/-- Lists that begin others are a beginning of them together if only the last one is not whole. -/
theorem flatMap_passed_isPrefix (h : s.Tracked) :
    s.jobs.flatMap WriteJob.passed <+: (s.carried.map fun j => burst j.len j.taken).flatten := by
  have hfinished : s.finished.flatMap WriteJob.passed = (s.finished.map fun j => burst j.len j.taken).flatten := by
    rw [List.flatMap_def]
    congr 1
    exact List.map_congr_left fun j hj => (h.served j hj).passed
  obtain ⟨-, hcarried⟩ := carried_isPrefix s
  rw [← hcarried, carried, List.flatMap_append, List.map_append, List.flatten_append, hfinished,
    List.prefix_append_right_inj]
  cases hcurrent : s.current with
  | none => simp
  | some j =>
    cases hpassed : j.passed with
    | nil => simp [hpassed]
    | cons b rest =>
      obtain ⟨k, hbursting, hk⟩ := exists_bursting (j := j) h (by simp [carried, hcurrent, hpassed])
      have hbegins := passed_isPrefix_burst hbursting.passed hk
      simpa [hpassed] using hpassed ▸ hbegins

/-- The beat that is handed over belongs to the first burst that is not complete, at its address. -/
theorem next_beat (h : s.Tracked) {b : WBeat} {slave : AxiWriteSlave} (hb : s.engine.wHs slave = some b) :
    ∃ j, s.jobs[s.completed]? = some j ∧ SlotDesc j.desc ∧
      (s.jobs.flatMap WriteJob.bursts)[s.completed]? = some (j.desc.addr, burstLength j.len - 1) ∧
      Framing.sinceEnd WBeat.wlast s.handed ++ [b] <+: burst j.len j.taken := by
  have hnext : s.handed ++ [b] <+: s.jobs.flatMap WriteJob.passed := by
    rw [wHs] at hb
    split at hb
    · rw [← h.handed, pending, hb, Option.toList_some, ← List.append_assoc]
      exact List.prefix_append _ _
    · simp at hb
  obtain ⟨frame, hframe, hbeat⟩ := Framing.isPrefix_next (fun frame hmem => by
    obtain ⟨j, -, rfl⟩ := List.mem_map.mp hmem
    exact frame_burst j.len j.taken) (hnext.trans (flatMap_passed_isPrefix h))
  rw [List.getElem?_map, Option.map_eq_some_iff] at hframe
  obtain ⟨j, hj, rfl⟩ := hframe
  obtain ⟨⟨rest, hrest⟩, -⟩ := carried_isPrefix s
  have hbursts : s.carried.flatMap WriteJob.bursts = s.carried.map fun j => (j.desc.addr, burstLength j.len - 1) := by
    rw [List.flatMap_def, List.map_congr_left fun j hj => by
      obtain ⟨k, hbursting, -⟩ := exists_bursting h hj
      exact hbursting.bursts]
    rw [← List.flatMap_def, List.map_eq_flatMap]
  obtain ⟨k, hbursting, -⟩ := exists_bursting h (List.mem_of_getElem? hj)
  have hget : (s.carried.flatMap WriteJob.bursts)[s.completed]? = some (j.desc.addr, burstLength j.len - 1) := by
    rw [hbursts, List.getElem?_map, show s.carried[s.completed]? = some j from hj, Option.map_some]
  refine ⟨j, ?_, hbursting.slot, ?_, hbeat⟩
  · rw [← hrest]
    exact List.getElem?_append_left (List.getElem?_eq_some_iff.mp hj).1 ▸ hj
  · rw [← hrest, List.flatMap_append]
    exact List.getElem?_append_left (List.getElem?_eq_some_iff.mp hget).1 ▸ hget

end DmaWrRun

end UdpIpCore
