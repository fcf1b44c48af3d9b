import UdpIpCore.Threads

/-!
# One caller on one device

A caller makes calls to programs, one after the other, and the device takes any number of
steps between any two commands. A proof outline for each call on its own, under the steps of
the device, gives what holds in every state of a run.
-/

namespace Interaction

variable {C C' : Type} {R : C → Type} {R' : C' → Type} {S E K A : Type}

namespace Program

/-- The program in a larger set of commands. -/
def embed (f : C → C') (g : ∀ c, R' (f c) → R c) : Program C R A → Program C' R' A
  | done a => done a
  | perform c next => perform (f c) fun r => (next (g c r)).embed f g

end Program

/-- The device, the call in progress, and the calls that have returned. -/
structure Caller (C : Type) (R : C → Type) (K A S : Type) where
  device : S
  running : Option (K × Program C R A)
  results : List (K × A)

/-- One step of the caller or of the device. -/
inductive CallerStep (K E : Type)
  | call (k : K)
  /-- The next command of the call, or its return. -/
  | advance
  | move (e : E)

namespace Caller

/-- Before the first call. -/
def start (d : S) : Caller C R K A S := ⟨d, none, []⟩

/-- The step performs the command. -/
def Performs (s : Caller C R K A S) (i : CallerStep K E) (c : C) : Prop :=
  ∃ k next, i = .advance ∧ s.running = some (k, .perform c next)

/-- The call that the step makes. -/
def made : CallerStep K E → Option K
  | .call k => some k
  | .advance | .move _ => none

/-- The command that the step performs. -/
def performed (s : Caller C R K A S) : CallerStep K E → Option C
  | .advance =>
    match s.running with
    | some (_, .perform c _) => some c
    | _ => none
  | _ => none

/-- One step. -/
def step (v : AtomicDevice C R S E) (code : K → Program C R A) (s : Caller C R K A S) :
    CallerStep K E → Caller C R K A S
  | .call k => { s with running := some (k, code k) }
  | .advance =>
    match s.running with
    | none => s
    | some (k, .done a) => { s with running := none, results := s.results ++ [(k, a)] }
    | some (k, .perform c next) =>
      { s with device := (v.execute s.device c).2, running := some (k, next (v.execute s.device c).1) }
  | .move e => { s with device := v.move s.device e }

/-- One call at a time. -/
def machine (v : AtomicDevice C R S E) (code : K → Program C R A) :
    Clocked.Machine (Caller C R K A S) (CallerStep K E) where
  step := step v code
  legal := fun s i => match i with
    | .call _ => s.running.isNone = true
    | .advance => True
    | .move e => v.legal s.device e

instance (v : AtomicDevice C R S E) (code : K → Program C R A) [∀ d e, Decidable (v.legal d e)]
    (s : Caller C R K A S) : (i : CallerStep K E) → Decidable ((machine v code).legal s i)
  | .call _ => inferInstanceAs (Decidable (s.running.isNone = true))
  | .advance => instDecidableTrue
  | .move e => inferInstanceAs (Decidable (v.legal s.device e))

/-- What holds between the calls and during one, by the calls that have returned. -/
structure Promise (S K A : Type) where
  idle : List (K × A) → S → Prop
  busy : List (K × A) → K → S → Prop

variable {v : AtomicDevice C R S E} {code : K → Program C R A} {allowed : K → Prop} {ready : S → C → Prop}
  {m : Promise S K A}

/-- What the device does between two commands. -/
def Quiet (v : AtomicDevice C R S E) (d d' : S) : Prop := ∃ e, v.legal d e ∧ d' = v.move d e

/-- A command takes effect at once; it is performed only when it is ready. -/
def Responds (v : AtomicDevice C R S E) (ready : S → C → Prop) (d : S) (c : C) (r : R c) (d' : S) : Prop :=
  ready d c ∧ v.execute d c = (r, d')

/-- The outlines of single calls. -/
structure Promise.Lawful (v : AtomicDevice C R S E) (code : K → Program C R A) (allowed : K → Prop)
    (ready : S → C → Prop) (m : Promise S K A) : Prop where
  quiet : ∀ results d d', m.idle results d → Quiet v d d' → m.idle results d'
  call : ∀ results k d, allowed k → m.idle results d → (code k).Outline (Quiet v) (Responds v ready) (m.busy results k)
    (fun a => m.idle (results ++ [(k, a)])) d

/-- The step makes no call that is not allowed, and performs no command that is not ready. -/
def Careful (allowed : K → Prop) (ready : S → C → Prop) (s : Caller C R K A S) (i : CallerStep K E) : Prop :=
  (∀ k, i = .call k → allowed k) ∧ ∀ c, s.Performs i c → ready s.device c

theorem made_eq_some_iff {i : CallerStep K E} {k : K} : made i = some k ↔ i = .call k := by
  cases i <;> simp [made]

/-- A step performs the command it is to perform. -/
theorem performs_iff {s : Caller C R K A S} {i : CallerStep K E} {c : C} : s.Performs i c ↔ s.performed i = some c := by
  constructor
  · rintro ⟨k, next, rfl, hrunning⟩
    simp only [performed, hrunning]
  · intro hperformed
    unfold performed at hperformed
    split at hperformed
    · split at hperformed
      · rename_i k c' next hrunning
        obtain rfl := Option.some.inj hperformed
        exact ⟨k, next, rfl, hrunning⟩
      · exact absurd hperformed.symm (Option.some_ne_none c)
    · exact absurd hperformed.symm (Option.some_ne_none c)

instance [∀ k, Decidable (allowed k)] [∀ d c, Decidable (ready d c)] (s : Caller C R K A S) (i : CallerStep K E) :
    Decidable (s.Careful allowed ready i) :=
  decidable_of_iff ((∀ k ∈ made i, allowed k) ∧ ∀ c ∈ s.performed i, ready s.device c)
    ⟨fun h => ⟨fun k hk => h.1 k (made_eq_some_iff.mpr hk), fun c hc => h.2 c (performs_iff.mp hc)⟩,
      fun h => ⟨fun k hk => h.1 k (made_eq_some_iff.mp hk), fun c hc => h.2 c (performs_iff.mpr hc)⟩⟩

/-- Where the caller is. -/
def Inv (v : AtomicDevice C R S E) (ready : S → C → Prop) (m : Promise S K A) (s : Caller C R K A S) : Prop :=
  match s.running with
  | none => m.idle s.results s.device
  | some (k, p) => p.Outline (Quiet v) (Responds v ready) (m.busy s.results k)
      (fun a => m.idle (s.results ++ [(k, a)])) s.device

/-- What the promise says of a state. -/
def Holds (m : Promise S K A) (s : Caller C R K A S) : Prop :=
  match s.running with
  | none => m.idle s.results s.device
  | some (k, _) => m.busy s.results k s.device

/-- The promise holds at every point of an outline. -/
theorem Inv.holds {s : Caller C R K A S} (h : Inv v ready m s) : Holds m s := by
  obtain ⟨d, running, results⟩ := s
  cases running with
  | none => exact h
  | some x =>
    have houtline : x.2.Outline (Quiet v) (Responds v ready) (m.busy results x.1) _ d := h
    exact houtline.invariant

/-- One careful step keeps the place in the outline. -/
theorem Inv.step (hm : m.Lawful v code allowed ready) {s : Caller C R K A S} {i : CallerStep K E} (h : Inv v ready m s)
    (hlegal : (machine v code).legal s i) (hcareful : s.Careful allowed ready i) :
    Inv v ready m (s.step v code i) := by
  obtain ⟨d, running, results⟩ := s
  cases i with
  | call k =>
    obtain rfl : running = none := Option.isNone_iff_eq_none.mp hlegal
    exact hm.call results k d (hcareful.1 k rfl) h
  | move e =>
    have hquiet : Quiet v d (v.move d e) := ⟨e, hlegal, rfl⟩
    cases running with
    | none => exact hm.quiet results d _ h hquiet
    | some x =>
      have houtline : x.2.Outline (Quiet v) (Responds v ready) (m.busy results x.1) _ d := h
      exact houtline.quiet_step hquiet
  | advance =>
    cases running with
    | none => exact h
    | some x =>
      obtain ⟨k, p⟩ := x
      cases p with
      | done a =>
        have houtline : (Program.done a : Program C R A).Outline (Quiet v) (Responds v ready) (m.busy results k)
            (fun a => m.idle (results ++ [(k, a)])) d := h
        exact houtline.result
      | perform c next =>
        have houtline : (Program.perform c next).Outline (Quiet v) (Responds v ready) (m.busy results k) _ d := h
        exact houtline.performed ⟨hcareful.2 c ⟨k, next, rfl, rfl⟩, rfl⟩

/-- In every run of careful steps the promise holds. -/
theorem holds_of_careful (hm : m.Lawful v code allowed ready) {d : S} (hd : m.idle [] d) {s : Caller C R K A S}
    (hreach : ((machine v code).restrict fun s i => s.Careful allowed ready i).Reachable (start d) s) : Holds m s := by
  have hinv : Inv v ready m s := by
    refine @Clocked.Machine.invariant _ _ _ (start d) (Inv v ready m) ?_ ?_ s hreach
    · exact hd
    · intro s i h hi
      exact h.step hm hi.1 hi.2
  exact hinv.holds

end Caller

end Interaction
