import Mathlib.Data.List.Induction

/-!
# Clocked machines and their runs

A machine is a total step function, taken once per clock edge, together with the
environment behaviour it may assume in each cycle. A run is a finite list of inputs.
Safety is stated over every legal run, so an invariant is proved from one step lemma
and used at every cycle of every run.
-/

namespace Clocked

variable {S T I J : Type*}

/-- A synchronous machine with the assumption it makes on each cycle's input. -/
structure Machine (S I : Type*) where
  step : S → I → S
  legal : S → I → Prop

namespace Machine

/-- The state reached from `s` after the listed cycles. -/
def run (m : Machine S I) (s : S) (inputs : List I) : S :=
  inputs.foldl m.step s

/-- Every cycle of the run meets the environment assumption in the state it starts from. -/
def Legal (m : Machine S I) : S → List I → Prop
  | _, [] => True
  | s, i :: rest => m.legal s i ∧ Legal m (m.step s i) rest

instance Legal.decidable (m : Machine S I) [∀ s i, Decidable (m.legal s i)] :
    (s : S) → (inputs : List I) → Decidable (m.Legal s inputs)
  | _, [] => instDecidableTrue
  | s, i :: rest => @instDecidableAnd _ _ _ (Legal.decidable m (m.step s i) rest)

/-- The states some legal run reaches from `s`. -/
def Reachable (m : Machine S I) (s t : S) : Prop :=
  ∃ inputs, m.Legal s inputs ∧ m.run s inputs = t

/-- The same machine under an additional condition on every cycle. -/
def restrict (m : Machine S I) (condition : S → I → Prop) : Machine S I where
  step := m.step
  legal := fun s i => m.legal s i ∧ condition s i

/-- A property of each cycle holds in every cycle of every legal run. -/
def Always (m : Machine S I) (s : S) (property : S → I → Prop) : Prop :=
  ∀ t, m.Reachable s t → ∀ i, m.legal t i → property t i

/-- A property of each cycle holds in every cycle of a run. -/
def Throughout (m : Machine S I) (property : S → I → Prop) : S → List I → Prop
  | _, [] => True
  | s, i :: rest => property s i ∧ Throughout m property (m.step s i) rest

@[simp] theorem run_nil (m : Machine S I) (s : S) : m.run s [] = s := rfl

@[simp] theorem run_cons (m : Machine S I) (s : S) (i : I) (rest : List I) :
    m.run s (i :: rest) = m.run (m.step s i) rest := rfl

@[simp] theorem restrict_run (m : Machine S I) (condition : S → I → Prop) (s : S) (inputs : List I) :
    (m.restrict condition).run s inputs = m.run s inputs := rfl

/-- A run of two pieces is the second piece run from where the first one ended. -/
theorem run_append (m : Machine S I) (s : S) (first second : List I) :
    m.run s (first ++ second) = m.run (m.run s first) second := List.foldl_append

/-- A run of two pieces is legal exactly when both pieces are. -/
theorem legal_append (m : Machine S I) (s : S) (first second : List I) :
    m.Legal s (first ++ second) ↔ m.Legal s first ∧ m.Legal (m.run s first) second := by
  induction first generalizing s with
  | nil => simp [Legal]
  | cons i rest ih => simp only [List.cons_append, Legal, run_cons, ih, and_assoc]

/-- A property holds throughout a run of two pieces exactly when it does throughout both. -/
theorem throughout_append (m : Machine S I) (property : S → I → Prop) (s : S) (first second : List I) :
    m.Throughout property s (first ++ second) ↔
      m.Throughout property s first ∧ m.Throughout property (m.run s first) second := by
  induction first generalizing s with
  | nil => simp [Throughout]
  | cons i rest ih => simp only [List.cons_append, Throughout, run_cons, ih, and_assoc]

/-- Where the environment may do anything, every run is legal. -/
theorem legal_of_forall (m : Machine S I) (hall : ∀ s i, m.legal s i) (s : S) (inputs : List I) : m.Legal s inputs := by
  induction inputs generalizing s with
  | nil => trivial
  | cons i rest ih => exact ⟨hall s i, ih (m.step s i)⟩

/-- Where it depends on the input alone what is legal, a run is legal if its inputs are. -/
theorem legal_iff_forall (m : Machine S I) {condition : I → Prop} (hall : ∀ s i, m.legal s i ↔ condition i) (s : S)
    (inputs : List I) : m.Legal s inputs ↔ ∀ i ∈ inputs, condition i := by
  induction inputs generalizing s with
  | nil => simp [Legal]
  | cons i rest ih => rw [Legal, hall, ih, List.forall_mem_cons]

/-- A run is legal in another machine that allows what the first one allows for its inputs. -/
theorem Legal.mono (m n : Machine S I) (hstep : n.step = m.step) {s : S} {inputs : List I} (h : m.Legal s inputs)
    (hall : ∀ i ∈ inputs, ∀ t, m.legal t i → n.legal t i) : n.Legal s inputs := by
  induction inputs generalizing s with
  | nil => trivial
  | cons i rest ih =>
    obtain ⟨hi, hrest⟩ := h
    refine ⟨hall i List.mem_cons_self s hi, ?_⟩
    rw [hstep]
    exact ih hrest fun j hj => hall j (List.mem_cons_of_mem i hj)

/-- The initial state is reachable. -/
theorem Reachable.refl (m : Machine S I) (s : S) : m.Reachable s s := ⟨[], trivial, rfl⟩

/-- One more legal cycle keeps a state reachable. -/
theorem Reachable.next {m : Machine S I} {s t : S} {i : I} (h : m.Reachable s t)
    (hi : m.legal t i) : m.Reachable s (m.step t i) := by
  obtain ⟨inputs, hlegal, rfl⟩ := h
  refine ⟨inputs ++ [i], (m.legal_append s inputs [i]).mpr ⟨hlegal, hi, trivial⟩, ?_⟩
  rw [run_append, run_cons, run_nil]

/-- Reachable states are generated by single cycles. -/
theorem Reachable.rec_step {m : Machine S I} {s : S} {motive : S → Prop} (hstart : motive s)
    (hstep : ∀ t i, m.Reachable s t → motive t → m.legal t i → motive (m.step t i)) :
    ∀ t, m.Reachable s t → motive t := by
  rintro t ⟨inputs, hlegal, rfl⟩
  induction inputs using List.reverseRecOn with
  | nil => exact hstart
  | append_singleton inputs i ih =>
    obtain ⟨hfirst, hi, -⟩ := (m.legal_append s inputs [i]).mp hlegal
    rw [run_append, run_cons, run_nil]
    exact hstep _ i ⟨inputs, hfirst, rfl⟩ (ih hfirst) hi

/-- An invariant of single cycles holds in every reachable state. -/
theorem invariant {m : Machine S I} {s : S} {inv : S → Prop} (hstart : inv s)
    (hstep : ∀ t i, inv t → m.legal t i → inv (m.step t i)) {t : S} (h : m.Reachable s t) : inv t :=
  Reachable.rec_step (motive := inv) hstart (fun t i _ => hstep t i) t h

/-- An invariant that implies a cycle property establishes it throughout every run. -/
theorem always_of_invariant {m : Machine S I} {s : S} {inv : S → Prop} {property : S → I → Prop}
    (hstart : inv s) (hstep : ∀ t i, inv t → m.legal t i → inv (m.step t i))
    (huse : ∀ t i, inv t → m.legal t i → property t i) : m.Always s property :=
  fun t ht i hi => huse t i (invariant hstart hstep ht) hi

/-- A concrete legal run that ends in a bad cycle refutes a property of all runs. -/
theorem not_always_of_run {m : Machine S I} {s : S} {property : S → I → Prop} (inputs : List I)
    (i : I) (hlegal : m.Legal s inputs) (hi : m.legal (m.run s inputs) i)
    (hbad : ¬ property (m.run s inputs) i) : ¬ m.Always s property :=
  fun h => hbad (h _ ⟨inputs, hlegal, rfl⟩ i hi)

/-- An invariant that the condition keeps and that a cycle without the condition breaks: the property
holds throughout a run exactly when all its cycles meet the condition. -/
theorem throughout_iff {m : Machine S I} (inv : S → Prop) {property condition : S → I → Prop}
    (hkeep : ∀ s i, inv s → m.legal s i → condition s i → inv (m.step s i) ∧ property s i)
    (hbreak : ∀ s i, inv s → m.legal s i → ¬ condition s i → ¬ property s i) {s : S} (hs : inv s)
    {inputs : List I} (hlegal : m.Legal s inputs) :
    m.Throughout property s inputs ↔ (m.restrict condition).Legal s inputs := by
  induction inputs generalizing s with
  | nil => exact Iff.rfl
  | cons i rest ih =>
    obtain ⟨hi, hrest⟩ := hlegal
    by_cases hcondition : condition s i
    · have hnext := hkeep s i hs hi hcondition
      have hiff := ih hnext.1 hrest
      exact ⟨fun hthrough => ⟨⟨hi, hcondition⟩, hiff.mp hthrough.2⟩,
        fun hall => ⟨hnext.2, hiff.mpr hall.2⟩⟩
    · exact iff_of_false (fun hthrough => hbreak s i hs hi hcondition hthrough.1)
        fun hall => hcondition hall.1.2

/-- A machine that contains another one as a component: reachability projects to the component. -/
theorem Reachable.project {m : Machine S I} {n : Machine T J} {s : S} (view : S → T)
    (input : S → I → J) (hstep : ∀ t i, view (m.step t i) = n.step (view t) (input t i))
    (hlegal : ∀ t i, m.legal t i → n.legal (view t) (input t i)) {t : S} (h : m.Reachable s t) :
    n.Reachable (view s) (view t) := by
  refine Reachable.rec_step (motive := fun t => n.Reachable (view s) (view t)) (.refl _ _) ?_ t h
  intro t i _ ih hi
  rw [hstep]
  exact ih.next (hlegal t i hi)

end Machine

end Clocked
