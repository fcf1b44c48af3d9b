import UdpIpCore.Rtl.AxiDmaRdRun

/-!
# One burst for each slot

The push and the pop of a ring are the last beats of bursts. Behind a shared memory that
starts at a page, every descriptor of the controller is served by one burst, which stays
in its slot and in one page, so that each packet is pushed and each slot popped once.
-/

namespace UdpIpCore

open WriteJob (burstLength)

/-- The burst that serves a descriptor: address and beats less one, as on the address channels. -/
def slotBurst (addr : BitVec 32) (len : BitVec 20) : BitVec 32 × ℕ := (addr, (len.toNat + 7) / 8 - 1)

/-- A burst of the given beats, less one, from `addr` on stays in the slot at `addr` and in one page. -/
structure StaysInSlot (addr : BitVec 32) (beats : ℕ) : Prop where
  slot : 8 * (beats + 1) ≤ bufferElemMaxSize
  page : (addr.toNat + 8 * (beats + 1) - 1) / 4096 = addr.toNat / 4096

/-- One burst of at most a slot stays in its slot and its page. -/
theorem staysInSlot {addr : BitVec 32} {len : BitVec 20} (haddr : addr.toNat % bufferElemMaxSize = 0)
    (hlen : len.toNat ≤ bufferElemMaxSize) : StaysInSlot (slotBurst addr len).1 (slotBurst addr len).2 := by
  simp only [bufferElemMaxSize] at haddr hlen
  constructor <;> simp only [slotBurst, bufferElemMaxSize] <;> omega

/-- The beats of a burst in the two ways of counting them. -/
theorem slotBurst_eq {addr : BitVec 32} {len : BitVec 20} :
    slotBurst addr len = (addr, burstLength len.toNat - 1) := by
  have hbeats : (len.toNat + 7) / 8 - 1 = burstLength len.toNat - 1 := by
    rw [burstLength]
    omega
  rw [slotBurst, hbeats]

/-- The write DMA with the record of its address channel. -/
structure DmaWrBursts where
  run : DmaWrRun
  /-- The bursts whose address was taken: address and beats less one. -/
  aw : List (BitVec 32 × ℕ)

namespace DmaWrBursts

open AxiDmaWr

/-- After the power-on reset. -/
def start : DmaWrBursts := ⟨.start, []⟩

/-- The burst whose address waits on the address channel. -/
def offered (e : AxiDmaWr) : List (BitVec 32 × ℕ) := if e.awvalid then [(e.awaddr, e.awlen)] else []

/-- One clock edge. -/
def step (t : DmaWrBursts) (i : DmaWrCycle) : DmaWrBursts where
  run := t.run.step i
  aw := t.aw ++ if i.slave.awready then offered t.run.engine else []

/-- The descriptors the controller produces for received packets. -/
def RxDesc (desc : WriteDesc) : Prop :=
  ∃ base : BitVec 32, base.toNat % 4096 = 0 ∧
    (∃ (idx : BufferIdx) (slot : ℕ), desc.addr = DmaWriteControl.slotAddr base idx slot) ∧
      40 ≤ desc.len.toNat ∧ desc.len.toNat ≤ bufferElemMaxSize

/-- The write DMA under the descriptors of the controller, any stream and any slave. -/
def machine : Clocked.Machine DmaWrBursts DmaWrCycle where
  step := step
  legal := fun t i => t.run.engine.accepts i.desc = true → RxDesc i.desc

/-- The descriptors that were accepted, in order. -/
def descs (t : DmaWrBursts) : List WriteDesc := t.run.jobs.map WriteJob.desc

/-- The engine has a descriptor whose burst was not passed on completely. -/
def bursting (e : AxiDmaWr) : Bool := e.state = .start || e.state = .write || e.state = .finishBurst

/-- Each descriptor is served by one burst in its slot, and each burst has one last beat. -/
structure OneBurst (t : DmaWrBursts) : Prop where
  begins : t.aw <+: t.descs.map fun desc => slotBurst desc.addr desc.len
  all : t.run.engine.state = .idle → t.run.engine.awvalid = false →
    t.aw = t.descs.map fun desc => slotBurst desc.addr desc.len
  stays : ∀ burst ∈ t.aw, StaysInSlot burst.1 burst.2
  pushes : t.run.completed + t.run.engine.pending.countP WBeat.wlast + (bursting t.run.engine).toNat = t.descs.length

/-- The descriptors of the controller are slots. -/
theorem slotDesc_of_rxDesc {desc : WriteDesc} (h : RxDesc desc) : DmaWrRun.SlotDesc desc := by
  obtain ⟨base, hbase, ⟨idx, slot, haddr⟩, hmin, hmax⟩ := h
  have hbase' : base.toNat % bufferElemMaxSize = 0 := by
    simp only [bufferElemMaxSize]
    omega
  refine ⟨?_, by omega, hmax⟩
  rw [haddr]
  exact DmaWriteControl.slotAddr_mod hbase' idx slot

section Jobs

variable {s : DmaWrRun} {i : DmaWrCycle}

/-- A burst that was passed on has one last beat. -/
theorem countP_passed {j : WriteJob} (h : Bursting j (burstLength j.len)) : j.passed.countP WBeat.wlast = 1 := by
  have hpassed : j.passed = WriteJob.burst j.len j.taken := h.passed
  rw [hpassed]
  exact (DmaWrRun.frame_burst j.len j.taken).countP

/-- Descriptors that were served have pushed one packet each. -/
theorem countP_flatMap_passed (jobs : List WriteJob) (hjobs : ∀ j ∈ jobs, Bursting j (burstLength j.len)) :
    (jobs.flatMap WriteJob.passed).countP WBeat.wlast = jobs.length := by
  induction jobs with
  | nil => rfl
  | cons j jobs ih =>
    have hfirst := countP_passed (hjobs j List.mem_cons_self)
    have hrest := ih fun j' hj' => hjobs j' (List.mem_cons_of_mem j hj')
    rw [List.flatMap_cons, List.countP_append, List.length_cons, hfirst, hrest, Nat.add_comm]

/-- The descriptor in progress, by the burst that was passed on for it. -/
theorem countP_current (h : s.Tracked) :
    (s.current.toList.flatMap WriteJob.passed).countP WBeat.wlast + (bursting s.engine).toNat = s.current.toList.length := by
  have hserves := h.serves
  cases hj : s.current with
  | none =>
    have hidle : s.engine.state = .idle := by
      by_contra hbusy
      obtain ⟨j, hsome⟩ := exists_of_serves hbusy (hj ▸ hserves)
      exact absurd hsome (by simp)
    simp [bursting, hidle]
  | some j =>
    rw [hj] at hserves
    rw [Option.toList_some, List.flatMap_singleton]
    cases hstate : s.engine.state with
    | idle => simp [Serves, hstate] at hserves
    | start =>
      simp only [Serves, hstate] at hserves
      rw [hserves.fresh]
      simp [WriteJob.accepted, bursting, hstate]
    | write =>
      simp only [Serves, hstate] at hserves
      simp [DmaWrRun.countP_passed_of_lt hserves.2.passed hserves.2.fits, bursting, hstate]
    | finishBurst =>
      simp only [Serves, hstate] at hserves
      obtain ⟨-, k, -, hburst⟩ := hserves
      simp [DmaWrRun.countP_passed_of_lt hburst.passed hburst.fits, bursting, hstate]
    | dropData =>
      simp only [Serves, hstate] at hserves
      simp [countP_passed hserves.2.2.2, bursting, hstate]

/-- The bursts that were requested are those of the descriptors, in order. -/
theorem bursts_jobs (h : s.Tracked) :
    s.jobs.flatMap WriteJob.bursts <+: s.jobs.map (fun j => slotBurst j.desc.addr j.desc.len) ∧
      (s.engine.state ≠ .start →
        s.jobs.flatMap WriteJob.bursts = s.jobs.map fun j => slotBurst j.desc.addr j.desc.len) := by
  have hone {j : WriteJob} {k : ℕ} (hbursting : Bursting j k) :
      j.bursts = [slotBurst j.desc.addr j.desc.len] := by rw [hbursting.bursts, slotBurst_eq, WriteJob.len]
  have hall (jobs : List WriteJob) (hjobs : ∀ j ∈ jobs, ∃ k, Bursting j k) :
      jobs.flatMap WriteJob.bursts = jobs.map fun j => slotBurst j.desc.addr j.desc.len := by
    rw [List.map_eq_flatMap, List.flatMap_def, List.flatMap_def]
    congr 1
    exact List.map_congr_left fun j hj => (hjobs j hj).elim fun k hbursting => hone hbursting
  have hfinished := hall s.finished fun j hj => ⟨_, (h.served j hj).toBursting⟩
  have hserves := h.serves
  rw [DmaWrRun.jobs, List.flatMap_append, List.map_append, hfinished, List.prefix_append_right_inj]
  cases hj : s.current with
  | none => exact ⟨List.nil_prefix, fun _ => rfl⟩
  | some j =>
    rw [hj] at hserves
    have hcurrent (hbursting : ∃ k, Bursting j k) :
        (some j).toList.flatMap WriteJob.bursts = (some j).toList.map fun j => slotBurst j.desc.addr j.desc.len := by
      refine hall _ fun j' hj' => ?_
      rwa [List.mem_singleton.mp hj']
    cases hstate : s.engine.state with
    | idle => simp [Serves, hstate] at hserves
    | start =>
      simp only [Serves, hstate] at hserves
      refine ⟨?_, fun hne => absurd rfl hne⟩
      rw [hserves.fresh]
      exact List.nil_prefix
    | write =>
      simp only [Serves, hstate] at hserves
      rw [hcurrent ⟨_, hserves.2.toBursting⟩]
      exact ⟨List.prefix_refl _, fun _ => rfl⟩
    | finishBurst =>
      simp only [Serves, hstate] at hserves
      obtain ⟨-, k, -, hburst⟩ := hserves
      rw [hcurrent ⟨k, hburst.toBursting⟩]
      exact ⟨List.prefix_refl _, fun _ => rfl⟩
    | dropData =>
      simp only [Serves, hstate] at hserves
      rw [hcurrent ⟨_, hserves.2.2.2⟩]
      exact ⟨List.prefix_refl _, fun _ => rfl⟩

end Jobs

/-- What is known in every state. -/
structure Tracked (t : DmaWrBursts) : Prop where
  run : t.run.Tracked
  slots : ∀ desc ∈ t.descs, DmaWrRun.SlotDesc desc
  order : t.aw ++ offered t.run.engine = t.run.jobs.flatMap WriteJob.bursts

/-- After reset nothing was requested. -/
theorem tracked_start : start.Tracked where
  run := DmaWrRun.tracked_start
  slots := by simp [start, descs, DmaWrRun.start, DmaWrRun.jobs]
  order := rfl

variable {t : DmaWrBursts} {i : DmaWrCycle}

/-- A burst is offered from the cycle after its request until its address is taken. -/
theorem offered_step (e : AxiDmaWr) (i : DmaWrCycle) :
    (if i.slave.awready then offered e else []) ++ offered (e.step i.desc i.axis i.slave) =
      offered e ++ e.requesting i.axis := by
  cases hstarts : e.starts i.axis with
  | true =>
    have hstart : e.state = .start ∧ e.awvalid = false ∧ e.activeCountAv = true := by
      simp only [starts, Bool.and_eq_true, Bool.not_eq_true', decide_eq_true_eq] at hstarts
      exact ⟨hstarts.1.1.1, hstarts.1.1.2, hstarts.1.2⟩
    simp [offered, requesting, AxiDmaWr.step, hstarts, hstart]
  | false =>
    cases hvalid : e.awvalid with
    | false => simp [offered, requesting, AxiDmaWr.step, hstarts, hvalid]
    | true => cases hready : i.slave.awready <;> simp [offered, requesting, AxiDmaWr.step, hstarts, hvalid, hready]

/-- What is known holds after every cycle. -/
theorem Tracked.step (h : t.Tracked) (hlegal : t.run.engine.accepts i.desc = true → RxDesc i.desc) :
    (t.step i).Tracked where
  run := h.run.step fun haccepts => slotDesc_of_rxDesc (hlegal haccepts)
  slots := by
    intro desc hdesc
    have hdescs : (t.step i).descs = t.descs ++ if t.run.engine.accepts i.desc then [i.desc] else [] :=
      DmaWrRun.descs_step h.run.serves
    rw [hdescs, List.mem_append] at hdesc
    rcases hdesc with hold | hnew
    · exact h.slots desc hold
    · cases haccepts : t.run.engine.accepts i.desc with
      | false => simp [haccepts] at hnew
      | true =>
        rw [haccepts, if_pos rfl, List.mem_singleton] at hnew
        exact hnew ▸ slotDesc_of_rxDesc (hlegal haccepts)
  order := by
    have hmore : t.run.engine.state = .idle → t.run.engine.requesting i.axis = [] := by
      intro hidle
      simp [requesting, starts, hidle]
    have hbursts : (t.run.step i).jobs.flatMap WriteJob.bursts =
        t.run.jobs.flatMap WriteJob.bursts ++ t.run.engine.requesting i.axis :=
      DmaWrRun.flatMap_jobs_step h.run.serves (fun _ => rfl) (fun _ => rfl) hmore
    calc (t.step i).aw ++ offered (t.step i).run.engine
        = t.aw ++ (offered t.run.engine ++ t.run.engine.requesting i.axis) := by
          rw [← offered_step, ← List.append_assoc]
          rfl
      _ = (t.step i).run.jobs.flatMap WriteJob.bursts := by
          rw [← List.append_assoc, h.order]
          exact hbursts.symm

/-- The bursts of every state are those of the descriptors. -/
theorem Tracked.oneBurst (h : t.Tracked) : t.OneBurst := by
  have hmap : t.descs.map (fun desc => slotBurst desc.addr desc.len) =
      t.run.jobs.map fun j => slotBurst j.desc.addr j.desc.len := by
    rw [descs, List.map_map]
    rfl
  obtain ⟨hfirst, hall⟩ := bursts_jobs h.run
  have hbegins : t.aw <+: t.descs.map fun desc => slotBurst desc.addr desc.len := by
    rw [hmap]
    exact (List.prefix_append _ _).trans (h.order ▸ hfirst)
  refine ⟨hbegins, ?_, ?_, ?_⟩
  · intro hidle hvalid
    have horder := h.order
    rw [offered, hvalid, hall (by simp [hidle])] at horder
    rw [hmap, ← horder]
    exact (List.append_nil _).symm
  · intro burst hburst
    obtain ⟨desc, hdesc, rfl⟩ := List.mem_map.mp (hbegins.subset hburst)
    obtain ⟨haddr, -, hlen⟩ := h.slots desc hdesc
    exact staysInSlot haddr hlen
  · have hcurrent := countP_current h.run
    have hfinished := countP_flatMap_passed t.run.finished fun j hj => (h.run.served j hj).toBursting
    have hhanded := congrArg (List.countP WBeat.wlast) h.run.handed
    rw [List.countP_append, DmaWrRun.jobs, List.flatMap_append, List.countP_append, hfinished] at hhanded
    rw [DmaWrRun.completed, hhanded, descs, List.length_map, DmaWrRun.jobs, List.length_append]
    omega

end DmaWrBursts

namespace DmaRdRun

/-- The descriptors the controller produces for the TX ring. -/
def TxDesc (desc : ReadDesc) : Prop :=
  ∃ base : BitVec 32, base.toNat % 4096 = 0 ∧ (∃ slot : ℕ, desc.addr = DmaReadControl.slotAddr base slot) ∧
    desc.len = BitVec.ofNat 20 bufferElemMaxSize

/-- The read DMA under the descriptors of the controller and any slave that delivers what is due. -/
def txMachine : Clocked.Machine DmaRdRun DmaRdCycle where
  step := step
  legal := fun s i => (∀ desc, s.engine.accepts i = some desc → TxDesc desc) ∧ (i.rvalid = true → s.due ≠ [])

/-- Each descriptor is served by one burst in its slot, and each transfer ends with the last beat of its burst. -/
structure OneBurst (s : DmaRdRun) : Prop where
  begins : s.ar <+: s.descs.map fun desc => slotBurst desc.addr desc.len
  all : s.engine.axiStart = false → s.engine.arvalid = false →
    s.ar = s.descs.map fun desc => slotBurst desc.addr desc.len
  stays : ∀ burst ∈ s.ar, StaysInSlot burst.1 burst.2
  pops : s.popped + s.engine.axisRead.toNat + s.engine.axisCmdValid.toNat = s.descs.length

variable {s : DmaRdRun} {i : DmaRdCycle}

/-- The slots behind whole slots start at multiples of their size. -/
theorem slotAddr_mod {base : BitVec 32} {before : ℕ} (hbase : base.toNat % 4096 = 0)
    (hbefore : before % bufferElemMaxSize = 0) (slot : ℕ) :
    (base + BitVec.ofNat 32 before + BitVec.ofNat 32 slot * BitVec.ofNat 32 bufferElemMaxSize).toNat %
      bufferElemMaxSize = 0 := by
  simp only [bufferElemMaxSize, BitVec.toNat_add, BitVec.toNat_mul, BitVec.toNat_ofNat] at hbefore ⊢
  omega

/-- The descriptors of the controller are slots. -/
theorem slotDesc_of_txDesc {desc : ReadDesc} (h : TxDesc desc) : SlotDesc desc := by
  obtain ⟨base, hbase, ⟨slot, haddr⟩, hlen⟩ := h
  refine ⟨?_, hlen⟩
  rw [haddr]
  exact slotAddr_mod hbase rfl slot

/-- The bursts of every state are those of the descriptors. -/
theorem Tracked.oneBurst (h : s.Tracked) : s.OneBurst := by
  have hmap : s.descs.map (fun desc => slotBurst desc.addr desc.len) = s.descs.map burst :=
    List.map_congr_left fun desc _ => slotBurst_eq
  have hbegins : s.ar <+: s.descs.map fun desc => slotBurst desc.addr desc.len := by
    rw [hmap, ← h.order]
    exact List.prefix_append _ _
  refine ⟨hbegins, ?_, ?_, ?_⟩
  · intro hstart hvalid
    have horder := h.order
    rw [asked, hstart, hvalid] at horder
    rw [hmap, ← horder]
    exact (List.append_nil _).symm
  · intro burst hburst
    obtain ⟨desc, hdesc, rfl⟩ := List.mem_map.mp (hbegins.subset hburst)
    obtain ⟨haddr, hlen⟩ := h.slots desc hdesc
    refine staysInSlot haddr ?_
    rw [hlen]
    exact Nat.le_refl _
  · rw [h.finished]
    exact h.accepted

end DmaRdRun

/-- Every descriptor of the controller is served by exactly one burst, which stays in its slot and in one page, and
pushes or pops exactly once. -/
theorem oneBurst_always : DmaWrBursts.machine.Always .start (fun t _ => t.OneBurst) ∧
    DmaRdRun.txMachine.Always .start (fun s _ => s.OneBurst) := by
  constructor
  · refine Clocked.Machine.always_of_invariant DmaWrBursts.tracked_start ?_ ?_
    · intro t i h hlegal
      exact h.step hlegal
    · intro t i h _
      exact h.oneBurst
  · refine Clocked.Machine.always_of_invariant DmaRdRun.tracked_start ?_ ?_
    · rintro s i h ⟨hdesc, hdue⟩
      exact h.step ⟨fun desc haccepts => DmaRdRun.slotDesc_of_txDesc (hdesc desc haccepts), hdue⟩
    · intro s i h _
      exact h.oneBurst

end UdpIpCore
