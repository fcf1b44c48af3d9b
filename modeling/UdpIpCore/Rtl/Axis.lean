import Mathlib.Data.List.Basic

/-!
# Stream beats and the output register

The stream modules of the core end in an `axis_register`, a submodule outside this
repository. It enters as a parameter: a lossless two-deep FIFO whose ready flag is a
register. `AxisRegister` lists what the core relies on and nothing else, so the results
hold for any latency and any ready behaviour the register may have.
-/

namespace UdpIpCore

/-- One beat of a 64-bit stream; `tvalid` is the presence of the beat. -/
structure Beat where
  tdata : BitVec 64
  tkeep : BitVec 8
  tlast : Bool
  tuser : Bool
deriving DecidableEq, Repr

/-- The documented behaviour of `axis_register`: a lossless FIFO of at most two beats. -/
structure AxisRegister where
  State : Type
  /-- The state after `rst`. -/
  reset : State
  /-- `s_axis_tready`, a function of the registers alone. -/
  tready : State → Bool
  /-- The beat presented on `m_axis`, if `m_axis_tvalid`. -/
  out : State → Option Beat
  /-- One clock edge, given the beat offered on `s_axis` and `m_axis_tready`. -/
  step : State → Option Beat → Bool → State
  /-- The beats held, oldest first. -/
  contents : State → List Beat
  contents_reset : contents reset = []
  contents_le : ∀ s, (contents s).length ≤ 2
  out_head : ∀ s b, out s = some b → (contents s).head? = some b
  contents_step : ∀ s offered ready, contents (step s offered ready) =
    (if (out s).isSome && ready then (contents s).tail else contents s) ++
      (if tready s then offered.toList else [])
  /-- A ready register that is offered nothing stays ready. -/
  tready_stable : ∀ s ready, tready s = true → tready (step s none ready) = true
  /-- A beat that is not taken stays on the output. -/
  out_stable : ∀ s offered b, out s = some b → out (step s offered false) = some b

namespace AxisRegister

/-- The beat that leaves the register in a cycle with the given `m_axis_tready`. -/
def taken (R : AxisRegister) (s : R.State) (ready : Bool) : List Beat :=
  if ready then (R.out s).toList else []

/-- The beat that enters the register in a cycle. -/
def accepted (R : AxisRegister) (s : R.State) (offered : Option Beat) : List Beat :=
  if R.tready s then offered.toList else []

/-- Nothing is lost, duplicated or reordered: what was held and what enters is what leaves and
what is held next. -/
theorem conservation (R : AxisRegister) (s : R.State) (offered : Option Beat) (ready : Bool) :
    R.taken s ready ++ R.contents (R.step s offered ready) =
      R.contents s ++ R.accepted s offered := by
  rw [R.contents_step, taken, accepted]
  cases hout : R.out s with
  | none => cases ready <;> simp
  | some b =>
    have hhead := R.out_head s b hout
    cases ready with
    | false => simp
    | true =>
      cases hc : R.contents s with
      | nil => simp [hc] at hhead
      | cons c rest =>
        simp only [hc, List.head?_cons, Option.some.injEq] at hhead
        simp [hhead]

/-- The beats a two-deep FIFO holds after one edge. -/
def twoDeepNext (held : List Beat) (offered : Option Beat) (ready : Bool) : List Beat :=
  (if held.head?.isSome && ready then held.tail else held) ++
    (if decide (held.length < 2) then offered.toList else [])

/-- Accepting only below two beats keeps the FIFO within its depth. -/
theorem length_twoDeepNext {held : List Beat} (h : held.length ≤ 2) (offered : Option Beat)
    (ready : Bool) : (twoDeepNext held offered ready).length ≤ 2 := by
  have hoffered : offered.toList.length ≤ 1 := by cases offered <;> simp
  have hkept : (if held.head?.isSome && ready then held.tail else held).length ≤ held.length := by
    split <;> simp
  have haccepted : held.length + (if decide (held.length < 2) then offered.toList else []).length ≤ 2 := by
    by_cases hroom : held.length < 2
    · simp only [hroom, decide_true, if_true]
      omega
    · simpa [hroom] using h
  rw [twoDeepNext, List.length_append]
  omega

/-- A FIFO that is taken from in every cycle holds at most one beat. -/
theorem length_twoDeepNext_taken {held : List Beat} (h : held.length ≤ 1) (offered : Option Beat) :
    (twoDeepNext held offered true).length ≤ 1 := by
  match held, h with
  | [], _ => simp [twoDeepNext]
  | [b], _ => simp [twoDeepNext]

/-- A two-deep FIFO that is ready while it holds fewer than two beats. -/
def twoDeep : AxisRegister where
  State := { held : List Beat // held.length ≤ 2 }
  reset := ⟨[], by simp⟩
  tready := fun s => decide (s.val.length < 2)
  out := fun s => s.val.head?
  step := fun s offered ready => ⟨twoDeepNext s.val offered ready, length_twoDeepNext s.property _ _⟩
  contents := Subtype.val
  contents_reset := rfl
  contents_le := Subtype.property
  out_head := fun _ _ h => h
  contents_step := fun _ _ _ => rfl
  tready_stable := by
    intro s ready h
    simp only [twoDeepNext, decide_eq_true_eq, Option.toList_none, ite_self, List.append_nil] at h ⊢
    split
    · simp only [List.length_tail]
      omega
    · exact h
  out_stable := by
    rintro ⟨held, hheld⟩ offered b h
    cases held with
    | nil => simp at h
    | cons c rest => simpa [twoDeepNext] using h

end AxisRegister

end UdpIpCore
