import Mathlib.Data.Nat.Find
import UdpIpCore.Clocked

/-!
# Progress of clocked machines

What comes to pass within a number of cycles, however the environment behaves in them. A measure
that every cycle decreases gives a bound, bounds add up, and what is reached once and kept holds
at every later cycle.
-/

namespace Clocked

namespace Machine

variable {S I : Type*} {m : Machine S I} {bound bound' : ℕ} {P Q R : S → Prop}

/-- From `P` on, every legal run that is long enough comes to a state with `Q`. -/
def LeadsTo (m : Machine S I) (bound : ℕ) (P Q : S → Prop) : Prop :=
  ∀ s inputs, P s → m.Legal s inputs → bound ≤ inputs.length → ∃ k ≤ bound, Q (m.run s (inputs.take k))

/-- The first cycles of a legal run are legal, and so is the rest of it. -/
theorem Legal.split {s : S} {inputs : List I} (h : m.Legal s inputs) (k : ℕ) :
    m.Legal s (inputs.take k) ∧ m.Legal (m.run s (inputs.take k)) (inputs.drop k) := by
  rw [← m.legal_append, List.take_append_drop]
  exact h

/-- Nothing has to happen. -/
theorem LeadsTo.of_imp (h : ∀ s, P s → Q s) : m.LeadsTo 0 P Q := fun s _ hs _ _ => ⟨0, Nat.le_refl 0, h s hs⟩

/-- A weaker start, a weaker goal, a larger bound. -/
theorem LeadsTo.mono {P' Q' : S → Prop} (h : m.LeadsTo bound P Q) (hbound : bound ≤ bound') (hP : ∀ s, P' s → P s)
    (hQ : ∀ s, Q s → Q' s) : m.LeadsTo bound' P' Q' := by
  intro s inputs hs hlegal hlong
  obtain ⟨k, hk, hgoal⟩ := h s inputs (hP s hs) hlegal (Nat.le_trans hbound hlong)
  exact ⟨k, Nat.le_trans hk hbound, hQ _ hgoal⟩

/-- One cycle. -/
theorem LeadsTo.of_step (h : ∀ s i, P s → m.legal s i → Q (m.step s i)) : m.LeadsTo 1 P Q := by
  intro s inputs hs hlegal hlong
  cases inputs with
  | nil => exact absurd hlong (Nat.not_succ_le_zero 0)
  | cons i rest => exact ⟨1, Nat.le_refl 1, h s i hs hlegal.1⟩

/-- One after the other. -/
theorem LeadsTo.trans (h : m.LeadsTo bound P Q) (h' : m.LeadsTo bound' Q R) : m.LeadsTo (bound + bound') P R := by
  intro s inputs hs hlegal hlong
  obtain ⟨k, hk, hQ⟩ := h s inputs hs hlegal (Nat.le_trans (Nat.le_add_right bound bound') hlong)
  obtain ⟨k', hk', hR⟩ := h' _ (inputs.drop k) hQ (hlegal.split k).2 (by rw [List.length_drop]; omega)
  refine ⟨k + k', Nat.add_le_add hk hk', ?_⟩
  rw [List.take_add, run_append]
  exact hR

/-- A measure that goes down in every cycle before the goal. -/
theorem LeadsTo.of_measure {n : ℕ} (measure : S → ℕ) (hzero : ∀ s, P s → measure s = 0 → Q s)
    (hstep : ∀ s i, P s → ¬ Q s → m.legal s i → P (m.step s i) ∧ measure (m.step s i) < measure s) :
    m.LeadsTo n (fun s => P s ∧ measure s ≤ n) Q := by
  induction n with
  | zero => exact .of_imp fun s hs => hzero s hs.1 (Nat.le_zero.mp hs.2)
  | succ n ih =>
    rintro s inputs ⟨hs, hmeasure⟩ hlegal hlong
    by_cases hgoal : Q s
    · exact ⟨0, Nat.zero_le _, hgoal⟩
    · cases inputs with
      | nil => exact absurd hlong (Nat.not_succ_le_zero n)
      | cons i rest =>
        obtain ⟨hkept, hless⟩ := hstep s i hs hgoal hlegal.1
        obtain ⟨k, hk, hreached⟩ := ih (m.step s i) rest ⟨hkept, by omega⟩ hlegal.2 (Nat.le_of_succ_le_succ hlong)
        exact ⟨k + 1, Nat.succ_le_succ hk, hreached⟩

/-- What every cycle before the goal keeps still holds when the goal is reached. -/
theorem LeadsTo.until {J : S → Prop} (h : m.LeadsTo bound P Q)
    (hkeep : ∀ s i, J s → ¬ Q s → m.legal s i → J (m.step s i)) :
    m.LeadsTo bound (fun s => P s ∧ J s) fun s => Q s ∧ J s := by
  classical
  rintro s inputs ⟨hs, hJ⟩ hlegal hlong
  have hreached : ∃ k, Q (m.run s (inputs.take k)) := by
    obtain ⟨k, -, hgoal⟩ := h s inputs hs hlegal hlong
    exact ⟨k, hgoal⟩
  -- the first time at which the goal is reached
  have hfirst : Nat.find hreached ≤ bound := by
    obtain ⟨k, hk, hgoal⟩ := h s inputs hs hlegal hlong
    exact Nat.le_trans (Nat.find_min' hreached hgoal) hk
  have hbefore : ∀ k ≤ Nat.find hreached, J (m.run s (inputs.take k)) := by
    intro k hk
    induction k with
    | zero => exact hJ
    | succ k ih =>
      have hlt : k < inputs.length := by omega
      have hlegal' := (hlegal.split k).2
      rw [List.drop_eq_getElem_cons hlt] at hlegal'
      rw [List.take_succ_eq_append_getElem hlt, run_append]
      exact hkeep _ _ (ih (by omega)) (Nat.find_min hreached (by omega)) hlegal'.1
  exact ⟨Nat.find hreached, hfirst, Nat.find_spec hreached, hbefore _ (Nat.le_refl _)⟩

/-- From either of two states on. -/
theorem LeadsTo.or (h : m.LeadsTo bound P R) (h' : m.LeadsTo bound Q R) : m.LeadsTo bound (fun s => P s ∨ Q s) R := by
  rintro s inputs (hs | hs) hlegal hlong
  · exact h s inputs hs hlegal hlong
  · exact h' s inputs hs hlegal hlong

/-- The progress of a component is progress of the whole, while the whole keeps what makes its cycles legal for the
component. -/
theorem LeadsTo.project_of_kept {T I' : Type*} {n : Machine T I'} {P Q : T → Prop} {J : S → Prop} (view : S → T)
    (input : S → I → I') (hkeep : ∀ s i, J s → m.legal s i → J (m.step s i))
    (hstep : ∀ s i, view (m.step s i) = n.step (view s) (input s i))
    (hlegal : ∀ s i, J s → m.legal s i → n.legal (view s) (input s i)) (h : n.LeadsTo bound P Q) :
    m.LeadsTo bound (fun s => P (view s) ∧ J s) fun s => Q (view s) ∧ J s := by
  have hfollow : ∀ (inputs : List I) (s : S), J s → m.Legal s inputs → ∃ js : List I', js.length = inputs.length ∧
      n.Legal (view s) js ∧ ∀ k, view (m.run s (inputs.take k)) = n.run (view s) (js.take k) ∧
        J (m.run s (inputs.take k)) := by
    intro inputs
    induction inputs with
    | nil => exact fun s hs _ => ⟨[], rfl, trivial, fun k => by simpa using hs⟩
    | cons i rest ih =>
      intro s hs hruns
      obtain ⟨js, hlength, hjs, hrun⟩ := ih (m.step s i) (hkeep s i hs hruns.1) hruns.2
      refine ⟨input s i :: js, congrArg Nat.succ hlength, ⟨hlegal s i hs hruns.1, ?_⟩, fun k => ?_⟩
      · rw [← hstep]
        exact hjs
      · cases k with
        | zero => exact ⟨rfl, hs⟩
        | succ k =>
          rw [List.take_succ_cons, List.take_succ_cons, run_cons, run_cons, ← hstep]
          exact hrun k
  rintro s inputs ⟨hP, hs⟩ hruns hlong
  obtain ⟨js, hlength, hjs, hrun⟩ := hfollow inputs s hs hruns
  obtain ⟨k, hk, hgoal⟩ := h (view s) js hP hjs (by rw [hlength]; exact hlong)
  exact ⟨k, hk, show Q (view _) by rw [(hrun k).1]; exact hgoal, (hrun k).2⟩

/-- The progress of a component is progress of the whole. -/
theorem LeadsTo.project {T I' : Type*} {n : Machine T I'} {P Q : T → Prop} (view : S → T) (input : S → I → I')
    (hstep : ∀ s i, view (m.step s i) = n.step (view s) (input s i))
    (hlegal : ∀ s i, m.legal s i → n.legal (view s) (input s i)) (h : n.LeadsTo bound P Q) :
    m.LeadsTo bound (fun s => P (view s)) fun s => Q (view s) :=
  (h.project_of_kept (J := fun _ => True) view input (fun _ _ _ _ => trivial) hstep fun s i _ => hlegal s i).mono
    (Nat.le_refl _) (fun _ hs => ⟨hs, trivial⟩) fun _ hs => hs.1

/-- What is kept once it is reached holds from then on. -/
theorem LeadsTo.settles (h : m.LeadsTo bound P Q) (hkeep : ∀ s i, Q s → m.legal s i → Q (m.step s i)) {s : S}
    {inputs : List I} (hs : P s) (hlegal : m.Legal s inputs) (hlong : bound ≤ inputs.length) : Q (m.run s inputs) := by
  obtain ⟨k, -, hgoal⟩ := h s inputs hs hlegal hlong
  have hlater := invariant (m := m) hgoal hkeep ⟨inputs.drop k, (hlegal.split k).2, rfl⟩
  rwa [← run_append, List.take_append_drop] at hlater

end Machine

end Clocked
