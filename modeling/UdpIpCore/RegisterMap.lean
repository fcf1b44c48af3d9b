import UdpIpCore.Clocked

/-!
# A register file as a plain map

What a register file behind a port with separate write and read channels is for: a map from
registers to words. A write is an address, its data and a response, a read is an address and
an answer, and the two channels go their ways independently. The answer to a read shows the
map as the writes before its address left it. A machine serves the map when its
transfers, in the order of its cycles, are steps of this port.
-/

namespace RegisterMap

variable {A K D X V S I : Type*}

/-- The transfers of the two channels; with the address of a read goes what else the answer may show. -/
inductive Event (A D X V : Type*)
  | aw (addr : A)
  | w (data : D)
  | b
  | ar (addr : A) (shown : X)
  | r (data : V)

/-- The channel handshakes by name. -/
inductive Kind
  | aw
  | w
  | b
  | ar
  | r
deriving DecidableEq

def Event.kind : Event A D X V → Kind
  | .aw _ => .aw
  | .w _ => .w
  | .b => .b
  | .ar _ _ => .ar
  | .r _ => .r

/-- The handshakes of the write channel. -/
def Kind.isWrite : Kind → Bool
  | .aw => true
  | .w => true
  | .b => true
  | .ar => false
  | .r => false

/-- Which registers an address reaches, what a write makes of a word, and which answers show the map. -/
structure Layout (A K D X V : Type*) where
  initial : K → V
  reaches : A → K → Bool
  merge : D → V → V
  Shows : (K → V) → A → X → V → Prop

/-- A write that has its address, or its data as well. -/
inductive WriteSide (A : Type*)
  | idle
  | addressed (addr : A)
  | written

/-- A read that has its address, with the map and what else there was to show at that time. -/
inductive ReadSide (A K X V : Type*)
  | idle
  | asked (regs : K → V) (addr : A) (shown : X)

/-- The map and the transactions under way. -/
structure State (A K X V : Type*) where
  regs : K → V
  write : WriteSide A
  read : ReadSide A K X V

/-- The writes of a log: the data of each with the address before it. -/
def writes : Option A → List (Event A D X V) → List (A × D)
  | _, [] => []
  | _, .aw addr :: rest => writes (some addr) rest
  | some addr, .w data :: rest => (addr, data) :: writes none rest
  | none, .w _ :: rest => writes none rest
  | addr, .b :: rest => writes addr rest
  | addr, .ar _ _ :: rest => writes addr rest
  | addr, .r _ :: rest => writes addr rest

/-- The address a write under way has. -/
def WriteSide.addr : WriteSide A → Option A
  | .idle => none
  | .addressed addr => some addr
  | .written => none

/-- What a write under way has done, and a read. -/
def WriteSide.pending : WriteSide A → List Kind
  | .idle => []
  | .addressed _ => [.aw]
  | .written => [.aw, .w]

def ReadSide.pending : ReadSide A K X V → List Kind
  | .idle => []
  | .asked _ _ _ => [.ar]

namespace Layout

variable (L : Layout A K D X V)

/-- One write. -/
def update (regs : K → V) (addr : A) (data : D) : K → V :=
  fun k => if L.reaches addr k then L.merge data (regs k) else regs k

/-- The map after some writes: each register holds the merge of those that reach it. -/
def contents (regs : K → V) (ws : List (A × D)) : K → V :=
  fun k => (ws.filter fun q => L.reaches q.1 k).foldl (fun v q => L.merge q.2 v) (regs k)

/-- No write is under way and no read. -/
def start : State A K X V := ⟨L.initial, .idle, .idle⟩

/-- One transfer. -/
inductive Step : State A K X V → Event A D X V → State A K X V → Prop
  | aw {regs read} (addr : A) : Step ⟨regs, .idle, read⟩ (.aw addr) ⟨regs, .addressed addr, read⟩
  | w {regs read} (addr : A) (data : D) :
      Step ⟨regs, .addressed addr, read⟩ (.w data) ⟨L.update regs addr data, .written, read⟩
  | b {regs read} : Step ⟨regs, .written, read⟩ .b ⟨regs, .idle, read⟩
  | ar {regs write} (addr : A) (shown : X) :
      Step ⟨regs, write, .idle⟩ (.ar addr shown) ⟨regs, write, .asked regs addr shown⟩
  | r {regs write asked addr shown} {data : V} (hshows : L.Shows asked addr shown data) :
      Step ⟨regs, write, .asked asked addr shown⟩ (.r data) ⟨regs, write, .idle⟩

/-- Transfers one after the other. -/
inductive Replay : State A K X V → List (Event A D X V) → State A K X V → Prop
  | nil (t : State A K X V) : Replay t [] t
  | cons {t u v : State A K X V} {e : Event A D X V} {log : List (Event A D X V)} (hstep : L.Step t e u)
      (hrest : Replay u log v) : Replay t (e :: log) v

/-- Each answer shows the map as the writes before the address of its read left it. -/
def ReadsBack (log : List (Event A D X V)) : Prop :=
  ∀ before addr shown mid data after, log = before ++ .ar addr shown :: (mid ++ .r data :: after) →
    (∀ other, Event.r other ∉ mid) → L.Shows (L.contents L.initial (writes none before)) addr shown data

/-- What a log owes to the master: writes and reads in full rounds up to those under way, and right answers. -/
structure Served (log : List (Event A D X V)) (writePending readPending : List Kind) : Prop where
  writes : ∃ n, (log.map Event.kind).filter Kind.isWrite = (List.replicate n [.aw, .w, .b]).flatten ++ writePending
  reads : ∃ n, (log.map Event.kind).filter (!Kind.isWrite ·) = (List.replicate n [.ar, .r]).flatten ++ readPending
  readsBack : L.ReadsBack log

variable {L} {t u v : State A K X V} {e : Event A D X V} {log first second : List (Event A D X V)}

/-- The first write of several. -/
theorem contents_cons (regs : K → V) (addr : A) (data : D) (ws : List (A × D)) :
    L.contents regs ((addr, data) :: ws) = L.contents (L.update regs addr data) ws := by
  funext k
  by_cases hreaches : L.reaches addr k = true
  · simp [contents, update, hreaches]
  · simp [contents, update, hreaches]

/-- A log in two pieces is replayed piece by piece. -/
theorem replay_append : L.Replay t (first ++ second) v ↔ ∃ u, L.Replay t first u ∧ L.Replay u second v := by
  constructor
  · intro h
    induction first generalizing t with
    | nil => exact ⟨t, .nil t, h⟩
    | cons e rest ih =>
      cases h with
      | cons hstep hrest =>
        obtain ⟨u, hfirst, hsecond⟩ := ih hrest
        exact ⟨u, .cons hstep hfirst, hsecond⟩
  · rintro ⟨u, hfirst, hsecond⟩
    induction hfirst with
    | nil t => exact hsecond
    | cons hstep _ ih => exact .cons hstep (ih hsecond)

theorem replay_cons : L.Replay t (e :: log) v ↔ ∃ u, L.Step t e u ∧ L.Replay u log v := by
  constructor
  · intro h
    cases h with
    | cons hstep hrest => exact ⟨_, hstep, hrest⟩
  · rintro ⟨u, hstep, hrest⟩
    exact .cons hstep hrest

/-- The map holds what the writes of the log make of it. -/
theorem Replay.regs_eq (h : L.Replay t log v) : v.regs = L.contents t.regs (RegisterMap.writes t.write.addr log) := by
  induction h with
  | nil t => cases t.write <;> rfl
  | cons hstep _ ih =>
    rw [ih]
    cases hstep with
    | aw addr => rfl
    | w addr data => exact (contents_cons _ addr data _).symm
    | b => rfl
    | @ar regs write addr shown => cases write <;> rfl
    | @r regs write _ _ _ _ _ => cases write <;> rfl

/-- A transfer of the write channel is the next one of its round. -/
theorem Step.write_pending (h : L.Step t e u) : ∃ n, t.write.pending ++ [e.kind].filter Kind.isWrite =
    (List.replicate n [Kind.aw, .w, .b]).flatten ++ u.write.pending := by
  cases h with
  | aw addr => exact ⟨0, rfl⟩
  | w addr data => exact ⟨0, rfl⟩
  | b => exact ⟨1, rfl⟩
  | @ar regs write addr shown => exact ⟨0, List.append_nil _⟩
  | @r regs write _ _ _ _ _ => exact ⟨0, List.append_nil _⟩

/-- A transfer of the read channel is the next one of its round. -/
theorem Step.read_pending (h : L.Step t e u) : ∃ n, t.read.pending ++ [e.kind].filter (!Kind.isWrite ·) =
    (List.replicate n [Kind.ar, .r]).flatten ++ u.read.pending := by
  cases h with
  | aw addr => exact ⟨0, List.append_nil _⟩
  | w addr data => exact ⟨0, List.append_nil _⟩
  | b => exact ⟨0, List.append_nil _⟩
  | ar addr shown => exact ⟨0, rfl⟩
  | r hshows => exact ⟨1, rfl⟩

/-- Where each transfer is the next one of a round, the transfers make full rounds up to those under way. -/
theorem Replay.rounds {round : List Kind} {pending : State A K X V → List Kind} {keep : Kind → Bool}
    (hnext : ∀ {t u e}, L.Step t e u → ∃ n,
      pending t ++ [e.kind].filter keep = (List.replicate n round).flatten ++ pending u)
    (h : L.Replay t log v) : ∃ n,
      pending t ++ (log.map Event.kind).filter keep = (List.replicate n round).flatten ++ pending v := by
  induction h with
  | nil t => exact ⟨0, List.append_nil _⟩
  | @cons t u v e log hstep _ ih =>
    obtain ⟨n, hn⟩ := hnext hstep
    obtain ⟨m, hm⟩ := ih
    refine ⟨n + m, ?_⟩
    calc pending t ++ ((e :: log).map Event.kind).filter keep
        = (pending t ++ [e.kind].filter keep) ++ (log.map Event.kind).filter keep := by
          rw [List.map_cons, List.append_assoc, ← List.filter_append, List.singleton_append]
      _ = (List.replicate n round).flatten ++ (pending u ++ (log.map Event.kind).filter keep) := by
          rw [hn, List.append_assoc]
      _ = (List.replicate (n + m) round).flatten ++ pending v := by
          rw [hm, ← List.append_assoc, ← List.flatten_append, List.replicate_append_replicate]

/-- Until its answer a read keeps what it asked for. -/
theorem Replay.read_eq {regs : K → V} {addr : A} {shown : X} (h : L.Replay t log v)
    (hread : t.read = .asked regs addr shown) (hopen : ∀ data, Event.r data ∉ log) :
    v.read = .asked regs addr shown := by
  induction h with
  | nil t => exact hread
  | @cons t u v e log hstep _ ih =>
    refine ih ?_ fun data hdata => hopen data (List.mem_cons_of_mem _ hdata)
    cases hstep with
    | aw addr => exact hread
    | w addr data => exact hread
    | b => exact hread
    | ar addr shown => exact nomatch hread
    | r hshows => exact absurd List.mem_cons_self (hopen _)

/-- A replayed log gives right answers. -/
theorem Replay.readsBack (h : L.Replay L.start log v) : L.ReadsBack log := by
  intro before addr shown mid data after hlog hopen
  subst hlog
  obtain ⟨t, hbefore, hrest⟩ := replay_append.mp h
  obtain ⟨u, hask, hrest⟩ := replay_cons.mp hrest
  obtain ⟨u', hmid, hrest⟩ := replay_append.mp hrest
  obtain ⟨v', hanswer, -⟩ := replay_cons.mp hrest
  have hregs : t.regs = L.contents L.initial (RegisterMap.writes none before) := hbefore.regs_eq
  have hasked : u'.read = .asked t.regs addr shown := by
    refine hmid.read_eq ?_ hopen
    cases hask with
    | ar => rfl
  rw [← hregs]
  cases hanswer with
  | r hshows =>
    obtain ⟨rfl, rfl, rfl⟩ : _ ∧ _ ∧ _ := by simpa using hasked
    exact hshows

/-- A log that the port replays serves its master. -/
theorem Replay.served (h : L.Replay L.start log v) : L.Served log v.write.pending v.read.pending where
  writes := h.rounds Step.write_pending
  reads := h.rounds Step.read_pending
  readsBack := h.readsBack

end Layout

/-- The transfers of a run, cycle by cycle. -/
def log (m : Clocked.Machine S I) (transfers : S → I → List (Event A D X V)) : S → List I → List (Event A D X V)
  | _, [] => []
  | s, i :: rest => transfers s i ++ log m transfers (m.step s i) rest

/-- A machine whose cycles are replayed, in a relation they keep, has its runs replayed. -/
theorem exists_replay_log {L : Layout A K D X V} {m : Clocked.Machine S I} {transfers : S → I → List (Event A D X V)}
    {rel : State A K X V → S → Prop}
    (hcycle : ∀ t s i, rel t s → ∃ u, L.Replay t (transfers s i) u ∧ rel u (m.step s i))
    (inputs : List I) {t : State A K X V} {s : S} (h : rel t s) :
    ∃ u, L.Replay t (log m transfers s inputs) u ∧ rel u (m.run s inputs) := by
  induction inputs generalizing t s with
  | nil => exact ⟨t, .nil t, h⟩
  | cons i rest ih =>
    obtain ⟨u, hfirst, hu⟩ := hcycle t s i h
    obtain ⟨v, hrest, hv⟩ := ih hu
    exact ⟨v, Layout.replay_append.mpr ⟨u, hfirst, hrest⟩, hv⟩

end RegisterMap
