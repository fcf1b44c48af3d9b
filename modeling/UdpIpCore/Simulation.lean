import UdpIpCore.Clocked

/-!
# Simulation of clocked machines

A machine is simulated by another one along a relation of their states if every cycle of the first
is matched by one cycle of the second. Then every run is matched, and what is known of the states
that the second machine reaches is known of the first.
-/

namespace Clocked

namespace Machine

variable {S I T J : Type*} {m : Machine S I} {n : Machine T J} {r : S → T → Prop}

/-- Every legal cycle is matched by a legal cycle of the other machine. -/
def Simulates (m : Machine S I) (n : Machine T J) (r : S → T → Prop) : Prop :=
  ∀ s t i, r s t → m.legal s i → ∃ j, n.legal t j ∧ r (m.step s i) (n.step t j)

/-- Every state that is reached is matched. -/
theorem Simulates.reachable (h : m.Simulates n r) {s s' : S} {t : T} (hr : r s t) (hs : m.Reachable s s') :
    ∃ t', n.Reachable t t' ∧ r s' t' := by
  refine Reachable.rec_step (motive := fun s' => ∃ t', n.Reachable t t' ∧ r s' t') ⟨t, .refl n t, hr⟩ ?_ s' hs
  rintro s' i - ⟨t', ht', hr'⟩ hi
  obtain ⟨j, hj, hnext⟩ := h s' t' i hr' hi
  exact ⟨n.step t' j, ht'.next hj, hnext⟩

/-- Along with the simulation an invariant of the first machine may be used and kept. -/
theorem Simulates.with_invariant {inv : S → Prop} (hkeep : ∀ s i, inv s → m.legal s i → inv (m.step s i))
    (h : ∀ s t i, inv s → r s t → m.legal s i → ∃ j, n.legal t j ∧ r (m.step s i) (n.step t j)) :
    m.Simulates n fun s t => inv s ∧ r s t := by
  rintro s t i ⟨hs, hr⟩ hi
  obtain ⟨j, hj, hnext⟩ := h s t i hs hr hi
  exact ⟨j, hj, hkeep s i hs hi, hnext⟩

/-- What is simulated under any condition is simulated under one more. -/
theorem Simulates.restrict (h : m.Simulates n r) (condition : S → I → Prop) : (m.restrict condition).Simulates n r :=
  fun s t i hr hi => h s t i hr hi.1

/-- What is known of the states of the second machine may be used to keep an invariant of the first. -/
theorem Simulates.invariant (h : m.Simulates n r) {K : T → Prop} {P : S → Prop} {s s' : S} {t : T} (hr : r s t)
    (hknown : ∀ t', n.Reachable t t' → K t') (hstart : P s)
    (hstep : ∀ s t i, r s t → K t → P s → m.legal s i → P (m.step s i)) (hs : m.Reachable s s') : P s' := by
  refine Reachable.rec_step (motive := P) hstart (fun s' i hreach hinv hi => ?_) s' hs
  obtain ⟨t', ht', hr'⟩ := h.reachable hr hreach
  exact hstep s' t' i hr' (hknown t' ht') hinv hi

end Machine

end Clocked
