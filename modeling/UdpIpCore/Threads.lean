import Mathlib.Data.List.Forall2
import Mathlib.Data.List.Nodup
import Mathlib.Data.List.Perm.Basic
import UdpIpCore.Clocked
import UdpIpCore.Interference

/-!
# Threads on one device

Any number of threads make calls to programs. Each command takes effect at once; between
two commands of one thread the others and the device take any number of steps. A call is
for one resource, and has a section that ends with the command by which it takes effect.

When no call enters its section while another one for the same resource is inside, a proof
outline for the section of each call on its own is enough for all interleavings: the log of
each resource has one entry for each effective call, those still to return included.
-/

namespace Interaction

variable {C : Type} {R : C → Type} {S E T K A Q B : Type}

/-- A device whose commands are atomic, and which takes steps of its own. -/
structure AtomicDevice (C : Type) (R : C → Type) (S E : Type) where
  execute : S → (c : C) → R c × S
  move : S → E → S
  /-- What the device may do on its own. -/
  legal : S → E → Prop

/-- The calls threads can make. -/
structure Calls (C : Type) (R : C → Type) (K A Q : Type) where
  code : K → Program C R A
  /-- What a call is for. -/
  resource : K → Q
  /-- Whether a call is inside its section after a command, by where it was and the response. -/
  inside : K → Bool → (c : C) → R c → Bool

/-- A call in progress. -/
structure Running (C : Type) (R : C → Type) (K A : Type) where
  call : K
  inside : Bool
  rest : Program C R A

/-- The device, what each thread runs, and the calls that have returned. -/
structure Threads (T C : Type) (R : C → Type) (K A S : Type) where
  device : S
  running : T → Option (Running C R K A)
  results : List (K × A)

/-- One step of the system. -/
inductive ThreadStep (T K E : Type)
  | call (t : T) (k : K)
  /-- The next command of a thread, or its return. -/
  | advance (t : T)
  | move (e : E)

/-- What the calls rely on and what they keep. -/
structure Contract (S C K A Q B : Type) where
  /-- What always holds of a resource. -/
  kept : Q → S → Prop
  /-- The steps a call inside its section does not notice. -/
  quiet : Q → S → S → Prop
  /-- The calls that are made. -/
  admits : K → Prop
  /-- The commands of a section. -/
  allowed : Q → C → Prop
  /-- The commands after a section. -/
  late : C → Prop
  /-- When a command of a section may be performed. -/
  ready : S → C → Prop
  /-- The effects on a resource so far. -/
  log : Q → S → List B
  /-- Whether a call with this result had an effect. -/
  effective : K → A → Bool
  /-- The entry is the effect of the call. -/
  accounts : K → A → B → Prop

namespace Threads

/-- Before the first call. -/
def start (d : S) : Threads T C R K A S := ⟨d, fun _ => none, []⟩

/-- The step performs the command. -/
def Performs (s : Threads T C R K A S) (i : ThreadStep T K E) (c : C) : Prop :=
  ∃ t x next, i = .advance t ∧ s.running t = some x ∧ x.rest = .perform c next

/-- No call enters its section while another one for the same resource is inside. -/
def Exclusive (v : AtomicDevice C R S E) (calls : Calls C R K A Q) (s : Threads T C R K A S) :
    ThreadStep T K E → Prop
  | .advance t => ∀ x c next, s.running t = some x → x.rest = .perform c next → x.inside = false →
    calls.inside x.call false c (v.execute s.device c).1 = true →
    ∀ u y, s.running u = some y → y.inside = true → calls.resource y.call ≠ calls.resource x.call
  | .call _ _ => True
  | .move _ => True

/-- The command that the step performs. -/
def performed (s : Threads T C R K A S) : ThreadStep T K E → Option C
  | .advance t =>
    match s.running t with
    | some ⟨_, _, .perform c _⟩ => some c
    | _ => none
  | _ => none

/-- The resource whose section the step enters. -/
def entered (v : AtomicDevice C R S E) (calls : Calls C R K A Q) (s : Threads T C R K A S) : ThreadStep T K E → Option Q
  | .advance t =>
    match s.running t with
    | some ⟨k, false, .perform c _⟩ =>
      if calls.inside k false c (v.execute s.device c).1 then some (calls.resource k) else none
    | _ => none
  | _ => none

/-- The resource whose section the thread is inside. -/
def occupied (calls : Calls C R K A Q) (s : Threads T C R K A S) (t : T) : Option Q :=
  match s.running t with
  | some ⟨k, true, _⟩ => some (calls.resource k)
  | _ => none

/-- A step performs the command it is to perform. -/
theorem performed_of_performs {s : Threads T C R K A S} {i : ThreadStep T K E} {c : C} (h : s.Performs i c) :
    s.performed i = some c := by
  obtain ⟨t, ⟨k, inside, rest⟩, next, rfl, ht, hrest⟩ := h
  obtain rfl : rest = .perform c next := hrest
  simp only [performed, ht]

/-- A step that enters no occupied section. -/
theorem exclusive_of_entered {v : AtomicDevice C R S E} {calls : Calls C R K A Q} {s : Threads T C R K A S}
    {i : ThreadStep T K E} (h : ∀ t, entered v calls s i = none ∨ occupied calls s t ≠ entered v calls s i) :
    Exclusive v calls s i := by
  cases i with
  | call t k => trivial
  | move e => trivial
  | advance t =>
    rintro ⟨k, inside, rest⟩ c next ht hrest hout hin u ⟨k', inside', rest'⟩ hu hinside hsame
    obtain rfl : rest = .perform c next := hrest
    obtain rfl : inside = false := hout
    obtain rfl : inside' = true := hinside
    have hentered : entered v calls s (.advance t : ThreadStep T K E) = some (calls.resource k) := by
      simp only [entered, ht]
      exact if_pos hin
    have hoccupied : occupied calls s u = some (calls.resource k) := by
      simp only [occupied, hu]
      exact congrArg some hsame
    rcases h u with hnone | hother
    · rw [hentered] at hnone
      exact Option.noConfusion rfl (heq_of_eq hnone)
    · exact hother (hoccupied.trans hentered.symm)

section Step

variable [DecidableEq T]

/-- Thread `t` goes on with `x`. -/
def set (s : Threads T C R K A S) (t : T) (x : Option (Running C R K A)) : T → Option (Running C R K A) :=
  fun u => if u = t then x else s.running u

/-- One step. -/
def step (v : AtomicDevice C R S E) (calls : Calls C R K A Q) (s : Threads T C R K A S) :
    ThreadStep T K E → Threads T C R K A S
  | .call t k => { s with running := s.set t (some ⟨k, false, calls.code k⟩) }
  | .advance t =>
    match s.running t with
    | none => s
    | some ⟨k, _, .done a⟩ => { s with running := s.set t none, results := s.results ++ [(k, a)] }
    | some ⟨k, inside, .perform c next⟩ =>
      { s with
        device := (v.execute s.device c).2
        running := s.set t
          (some ⟨k, calls.inside k inside c (v.execute s.device c).1, next (v.execute s.device c).1⟩) }
  | .move e => { s with device := v.move s.device e }

/-- Threads make one call at a time. -/
def machine (v : AtomicDevice C R S E) (calls : Calls C R K A Q) :
    Clocked.Machine (Threads T C R K A S) (ThreadStep T K E) where
  step := step v calls
  legal := fun s i => match i with
    | .call t _ => (s.running t).isNone = true
    | .advance _ => True
    | .move e => v.legal s.device e

instance (v : AtomicDevice C R S E) (calls : Calls C R K A Q) [∀ d e, Decidable (v.legal d e)]
    (s : Threads T C R K A S) : (i : ThreadStep T K E) → Decidable ((machine v calls).legal s i)
  | .call t _ => inferInstanceAs (Decidable ((s.running t).isNone = true))
  | .advance _ => instDecidableTrue
  | .move e => inferInstanceAs (Decidable (v.legal s.device e))

end Step

end Threads

namespace Program

/-- Every command the program can come to is allowed. -/
def Within (allowed : C → Prop) : Program C R A → Prop
  | done _ => True
  | perform c next => allowed c ∧ ∀ r, (next r).Within allowed

variable {allowed : C → Prop} {D : Type}

/-- A returned result performs nothing. -/
theorem Within.pure (a : A) : (Pure.pure a : Program C R A).Within allowed := trivial

/-- A single command. -/
theorem Within.command {c : C} (h : allowed c) : (Program.command c : Program C R (R c)).Within allowed :=
  ⟨h, fun _ => trivial⟩

/-- Sequencing. -/
theorem Within.bind {p : Program C R A} {f : A → Program C R D} (hp : p.Within allowed)
    (hf : ∀ a, (f a).Within allowed) : (p >>= f).Within allowed := by
  induction p with
  | done a => exact hf a
  | perform c next ih => exact ⟨hp.1, fun r => ih r (hp.2 r)⟩

/-- A loop. -/
theorem Within.forEach {items : List D} {body : D → Program C R Unit}
    (h : ∀ item ∈ items, (body item).Within allowed) : (Program.forEach items body).Within allowed := by
  induction items with
  | nil => trivial
  | cons item rest ih =>
    have hfirst := h item List.mem_cons_self
    exact Within.bind hfirst fun _ => ih fun other hother => h other (List.mem_cons_of_mem item hother)

end Program

section Outlines

variable (v : AtomicDevice C R S E) (calls : Calls C R K A Q) (m : Contract S C K A Q B) (k : K)

/-- After its section a call only performs late commands, and returns `a`. -/
def Program.Returns (a : A) : Program C R A → Prop
  | .done b => b = a
  | .perform c next => m.late c ∧ ∀ r, calls.inside k false c r = false ∧ (next r).Returns a

/-- In its section a call keeps the resource, and it leaves the section by its effect. -/
inductive Program.Inside : Program C R A → S → Prop
  | stay {c : C} {next : R c → Program C R A} {d : S} (during : S → Prop) (hd : during d)
      (hquiet : ∀ d d', during d → m.quiet (calls.resource k) d d' → during d')
      (hkept : ∀ d, during d → m.kept (calls.resource k) d) (hallowed : m.allowed (calls.resource k) c)
      (hlog : ∀ d, m.log (calls.resource k) (v.execute d c).2 = m.log (calls.resource k) d)
      (hstays : ∀ r, calls.inside k true c r = true)
      (hnext : ∀ d, during d → m.ready d c → Inside (next (v.execute d c).1) (v.execute d c).2) :
      Inside (.perform c next) d
  | leave {c : C} {next : R c → Program C R A} {d : S} (during : S → Prop) (hd : during d)
      (hquiet : ∀ d d', during d → m.quiet (calls.resource k) d d' → during d')
      (hkept : ∀ d, during d → m.kept (calls.resource k) d) (hallowed : m.allowed (calls.resource k) c)
      (hleaves : ∀ r, calls.inside k true c r = false)
      (heffect : ∀ d, during d → m.ready d c → m.kept (calls.resource k) (v.execute d c).2 ∧
        ∃ a b, m.log (calls.resource k) (v.execute d c).2 = m.log (calls.resource k) d ++ [b] ∧
          m.effective k a = true ∧ m.accounts k a b ∧ (next (v.execute d c).1).Returns calls m k a) :
      Inside (.perform c next) d

/-- Before its section a call only looks at the device; if it returns without one, it had no effect. -/
def Program.Outside : Program C R A → Prop
  | .done a => m.effective k a = false
  | .perform c next => (∀ d, (v.execute d c).2 = d) ∧ ∀ d, m.kept (calls.resource k) d →
    (calls.inside k false c (v.execute d c).1 = true → (next (v.execute d c).1).Inside v calls m k d) ∧
    (calls.inside k false c (v.execute d c).1 = false → (next (v.execute d c).1).Outside)

/-- What an outline of each single call leaves to show. -/
structure Contract.Lawful : Prop where
  refl : ∀ q d, m.quiet q d d
  kept : ∀ q d d', m.quiet q d d' → m.kept q d → m.kept q d'
  log : ∀ q d d', m.kept q d → m.quiet q d d' → m.log q d' = m.log q d
  frame : ∀ q q' c d, q ≠ q' → m.allowed q c → m.quiet q' d (v.execute d c).2
  late : ∀ c q d, m.late c → m.quiet q d (v.execute d c).2
  outside : ∀ k, m.admits k → (calls.code k).Outside v calls m k

variable {v calls m k}

/-- A quiet step stays at the same point of a section. -/
theorem Program.Inside.quiet_step {p : Program C R A} {d d' : S} (h : p.Inside v calls m k d)
    (hquiet : m.quiet (calls.resource k) d d') : p.Inside v calls m k d' := by
  cases h with
  | stay during hd hstable hkept hallowed hlog hstays hnext =>
    exact .stay during (hstable d d' hd hquiet) hstable hkept hallowed hlog hstays hnext
  | leave during hd hstable hkept hallowed hleaves heffect =>
    exact .leave during (hstable d d' hd hquiet) hstable hkept hallowed hleaves heffect

/-- In a section the resource is kept. -/
theorem Program.Inside.kept {p : Program C R A} {d : S} (h : p.Inside v calls m k d) :
    m.kept (calls.resource k) d := by
  cases h with
  | stay during hd _ hkept => exact hkept d hd
  | leave during hd _ hkept => exact hkept d hd

/-- A part of a section that performs no effect, by its outline under interference. -/
theorem Program.Inside.bind {D : Type} {p : Program C R D} {f : D → Program C R A} {d : S} {stays : C → Prop}
    (hstays : ∀ c, stays c → m.allowed (calls.resource k) c ∧ (∀ r, calls.inside k true c r = true) ∧
      ∀ d, m.log (calls.resource k) (v.execute d c).2 = m.log (calls.resource k) d)
    (hwithin : p.Within stays)
    (h : p.Outline (m.quiet (calls.resource k)) (fun d c r d' => m.ready d c ∧ v.execute d c = (r, d'))
      (m.kept (calls.resource k)) (fun a d => (f a).Inside v calls m k d) d) :
    (p >>= f).Inside v calls m k d := by
  revert hwithin
  induction h with
  | done during hs _ huse => exact fun _ => (huse _ hs).2
  | @perform c next d during hs hquiet huse _ ih =>
    intro hwithin
    obtain ⟨hallowed, hinside, hlog⟩ := hstays c hwithin.1
    exact .stay during hs hquiet huse hallowed hlog hinside
      fun d hd hready => ih d _ _ hd ⟨hready, rfl⟩ (hwithin.2 _)

end Outlines

namespace Threads

variable {v : AtomicDevice C R S E} {calls : Calls C R K A Q} {m : Contract S C K A Q B}

/-- Where a call in progress is. -/
inductive Placed (v : AtomicDevice C R S E) (calls : Calls C R K A Q) (m : Contract S C K A Q B) (d : S)
    (pending : List (T × K × A)) (t : T) (x : Running C R K A) : Prop
  | outside (hinside : x.inside = false) (hfree : ∀ y ∈ pending, y.1 ≠ t)
      (h : x.rest.Outside v calls m x.call)
  | inside (hinside : x.inside = true) (hfree : ∀ y ∈ pending, y.1 ≠ t)
      (h : x.rest.Inside v calls m x.call d)
  | returning (hinside : x.inside = false) (a : A) (hpending : (t, x.call, a) ∈ pending)
      (h : x.rest.Returns calls m x.call a)

/-- The effective calls for a resource among the listed ones. -/
def effects (calls : Calls C R K A Q) (m : Contract S C K A Q B) [DecidableEq Q] (q : Q) (results : List (K × A)) :
    List (K × A) := results.filter fun y => decide (calls.resource y.1 = q) && m.effective y.1 y.2

/-- The resources are kept, at most one call is inside for each of them, and each log accounts for the
calls that have returned and for those that have left their section and are to return. -/
structure Inv [DecidableEq Q] (v : AtomicDevice C R S E) (calls : Calls C R K A Q) (m : Contract S C K A Q B)
    (pending : List (T × K × A)) (order : Q → List (K × A)) (s : Threads T C R K A S) : Prop where
  kept : ∀ q, m.kept q s.device
  single : ∀ t u x y, s.running t = some x → s.running u = some y → x.inside = true → y.inside = true →
    calls.resource x.call = calls.resource y.call → t = u
  placed : ∀ t x, s.running t = some x → Placed v calls m s.device pending t x
  running : ∀ y ∈ pending, ∃ x, s.running y.1 = some x ∧ x.call = y.2.1
  once : (pending.map (·.1)).Nodup
  perm : ∀ q, (order q).Perm (effects calls m q (s.results ++ pending.map (·.2)))
  accounted : ∀ q, List.Forall₂ (fun y b => m.accounts y.1 y.2 b) (order q) (m.log q s.device)

section Step

variable {s : Threads T C R K A S} {t u : T} {x y : Running C R K A} {pending pending' : List (T × K × A)}
  {d d' : S}

/-- Another thread takes a step that this one does not notice. -/
theorem Placed.other (h : Placed v calls m d pending u y)
    (hquiet : y.inside = true → m.quiet (calls.resource y.call) d d')
    (hnew : ∀ z ∈ pending', z ∈ pending ∨ z.1 ≠ u) (hold : ∀ z ∈ pending, z.1 = u → z ∈ pending') :
    Placed v calls m d' pending' u y := by
  have hfree (hbefore : ∀ z ∈ pending, z.1 ≠ u) : ∀ z ∈ pending', z.1 ≠ u :=
    fun z hz => (hnew z hz).elim (hbefore z) id
  cases h with
  | outside hinside hbefore hcode => exact .outside hinside (hfree hbefore) hcode
  | inside hinside hbefore hcode => exact .inside hinside (hfree hbefore) (hcode.quiet_step (hquiet hinside))
  | returning hinside a hpending hcode => exact .returning hinside a (hold _ hpending rfl) hcode

variable [DecidableEq Q] {order order' : Q → List (K × A)}

theorem effects_append (q : Q) (first second : List (K × A)) :
    effects calls m q (first ++ second) = effects calls m q first ++ effects calls m q second :=
  List.filter_append _ _

/-- A call without effect leaves the list of effects. -/
theorem effects_of_not_effective (calls : Calls C R K A Q) {k : K} {a : A} (h : m.effective k a = false) (q : Q) :
    effects calls m q [(k, a)] = [] := by
  simp [effects, h]

/-- An effective call has its effect on its resource. -/
theorem effects_of_effective {k : K} {a : A} (h : m.effective k a = true) (q : Q) :
    effects calls m q [(k, a)] = if calls.resource k = q then [(k, a)] else [] := by
  by_cases hq : calls.resource k = q <;> simp [effects, h, hq]

/-- Before the first call. -/
theorem inv_start (hkept : ∀ q, m.kept q d) (hlog : ∀ q, m.log q d = []) :
    Inv v calls m [] (fun _ => []) (start d : Threads T C R K A S) where
  kept := hkept
  single := fun _ _ _ _ hrunning => Option.noConfusion rfl (heq_of_eq hrunning)
  placed := fun _ _ hrunning => Option.noConfusion rfl (heq_of_eq hrunning)
  running := fun _ hy => absurd hy List.not_mem_nil
  once := List.nodup_nil
  perm := fun _ => List.Perm.refl _
  accounted := fun q => by
    change List.Forall₂ _ [] (m.log q d)
    rw [hlog]
    exact .nil

/-- The device takes a step that no call notices. -/
theorem Inv.device (law : m.Lawful v calls) (h : Inv v calls m pending order s)
    (hquiet : ∀ q, m.quiet q s.device d') : Inv v calls m pending order { s with device := d' } where
  kept := fun q => law.kept q _ _ (hquiet q) (h.kept q)
  single := h.single
  placed := fun u y hu => (h.placed u y hu).other (fun _ => hquiet _) (fun _ hz => Or.inl hz) fun _ hz _ => hz
  running := h.running
  once := h.once
  perm := h.perm
  accounted := fun q => by
    change List.Forall₂ _ (order q) (m.log q d')
    rw [law.log q _ _ (h.kept q) (hquiet q)]
    exact h.accounted q

variable [DecidableEq T]

@[simp] theorem set_self (x : Option (Running C R K A)) : s.set t x t = x := if_pos rfl

theorem set_of_ne (h : u ≠ t) (x : Option (Running C R K A)) : s.set t x u = s.running u := if_neg h

/-- Thread `t` goes on with `x`, in a step that the sections of the others do not notice. -/
theorem Inv.resume (h : Inv v calls m pending order s) (hkept : ∀ q, m.kept q d')
    (hothers : ∀ u y, u ≠ t → s.running u = some y → y.inside = true →
      m.quiet (calls.resource y.call) s.device d' ∧
        (x.inside = true → calls.resource y.call ≠ calls.resource x.call))
    (hplaced : Placed v calls m d' pending' t x)
    (hnew : ∀ z ∈ pending', z ∈ pending ∨ z.1 = t) (hold : ∀ z ∈ pending, z ∈ pending')
    (hown : ∀ z ∈ pending', z.1 = t → x.call = z.2.1) (honce : (pending'.map (·.1)).Nodup)
    (hperm : ∀ q, (order' q).Perm (effects calls m q (s.results ++ pending'.map (·.2))))
    (haccounted : ∀ q, List.Forall₂ (fun y b => m.accounts y.1 y.2 b) (order' q) (m.log q d')) :
    Inv v calls m pending' order' { s with device := d', running := s.set t (some x) } where
  kept := hkept
  single := by
    intro u w y z hu hw hy hz hsame
    by_cases hut : u = t
    · by_cases hwt : w = t
      · rw [hut, hwt]
      · subst hut
        obtain rfl := Option.some.inj ((set_self _).symm.trans hu)
        exact absurd hsame.symm ((hothers w z hwt ((set_of_ne hwt _).symm.trans hw) hz).2 hy)
    · have hu' := (set_of_ne hut _).symm.trans hu
      by_cases hwt : w = t
      · subst hwt
        obtain rfl := Option.some.inj ((set_self _).symm.trans hw)
        exact absurd hsame ((hothers u y hut hu' hy).2 hz)
      · exact h.single u w y z hu' ((set_of_ne hwt _).symm.trans hw) hy hz hsame
  placed := by
    intro u y hu
    by_cases hut : u = t
    · subst hut
      obtain rfl := Option.some.inj ((set_self _).symm.trans hu)
      exact hplaced
    · have hu' := (set_of_ne hut _).symm.trans hu
      refine (h.placed u y hu').other (fun hy => (hothers u y hut hu' hy).1) (fun z hz => ?_) fun z hz _ => hold z hz
      exact (hnew z hz).imp_right fun hzt hzu => hut (hzu.symm.trans hzt)
  running := by
    intro z hz
    by_cases hzt : z.1 = t
    · refine ⟨x, ?_, hown z hz hzt⟩
      rw [hzt]
      exact set_self _
    · obtain ⟨y, hy, hcall⟩ := h.running z ((hnew z hz).resolve_right hzt)
      exact ⟨y, (set_of_ne hzt _).trans hy, hcall⟩
  once := honce
  perm := hperm
  accounted := haccounted

/-- The call of `t` goes on, and no log grows. -/
theorem Inv.resume_same (h : Inv v calls m pending order s) (ht : s.running t = some x) {inside : Bool}
    {rest : Program C R A} (hkept : ∀ q, m.kept q d') (hlog : ∀ q, m.log q d' = m.log q s.device)
    (hothers : ∀ u y, u ≠ t → s.running u = some y → y.inside = true →
      m.quiet (calls.resource y.call) s.device d' ∧
        (inside = true → calls.resource y.call ≠ calls.resource x.call))
    (hplaced : Placed v calls m d' pending t ⟨x.call, inside, rest⟩) :
    Inv v calls m pending order { s with device := d', running := s.set t (some ⟨x.call, inside, rest⟩) } := by
  refine h.resume hkept hothers hplaced (fun _ hz => Or.inl hz) (fun _ hz => hz) ?_ h.once h.perm fun q => ?_
  · intro z hz hzt
    obtain ⟨y, hy, hcall⟩ := h.running z hz
    rw [hzt, ht] at hy
    rw [← hcall, Option.some.inj hy]
  · rw [hlog]
    exact h.accounted q

/-- A call is made. -/
theorem Inv.called (law : m.Lawful v calls) (h : Inv v calls m pending order s) (hfree : s.running t = none) {k : K}
    (hadmits : m.admits k) : Inv v calls m pending order { s with running := s.set t (some ⟨k, false, calls.code k⟩) } := by
  have hnone : ∀ z ∈ pending, z.1 ≠ t := by
    rintro z hz rfl
    obtain ⟨y, hy, -⟩ := h.running z hz
    simp [hfree] at hy
  refine h.resume h.kept (fun u y _ hu hy => ⟨law.refl _ _, fun hinside => Bool.noConfusion hinside⟩)
    (.outside rfl hnone (law.outside k hadmits)) (fun _ hz => Or.inl hz) (fun _ hz => hz) (fun z hz hzt => absurd hzt (hnone z hz))
    h.once h.perm h.accounted

/-- A call leaves its section by its effect. -/
theorem Inv.left (law : m.Lawful v calls) (h : Inv v calls m pending order s) (ht : s.running t = some x)
    (hinside : x.inside = true) {c : C} (hallowed : m.allowed (calls.resource x.call) c)
    (hkept : m.kept (calls.resource x.call) (v.execute s.device c).2) {a : A} {b : B}
    (hlog : m.log (calls.resource x.call) (v.execute s.device c).2 = m.log (calls.resource x.call) s.device ++ [b])
    (heffective : m.effective x.call a = true) (haccounts : m.accounts x.call a b) {rest : Program C R A}
    (hreturns : rest.Returns calls m x.call a) (hfree : ∀ z ∈ pending, z.1 ≠ t) :
    Inv v calls m (pending ++ [(t, x.call, a)]) (fun q => order q ++ effects calls m q [(x.call, a)])
      { s with device := (v.execute s.device c).2, running := s.set t (some ⟨x.call, false, rest⟩) } := by
  have hquiet {q : Q} (hq : calls.resource x.call ≠ q) : m.quiet q s.device (v.execute s.device c).2 :=
    law.frame _ q c _ hq hallowed
  refine h.resume (fun q => ?_) (fun u y hut hu hy => ⟨hquiet fun hsame => hut ?_, fun hin => Bool.noConfusion hin⟩)
    (.returning rfl a (List.mem_append_right _ List.mem_cons_self) hreturns) ?_ (fun _ hz => List.mem_append_left _ hz)
    ?_ ?_ (fun q => ?_) fun q => ?_
  · by_cases hq : calls.resource x.call = q
    · rw [← hq]
      exact hkept
    · exact law.kept q _ _ (hquiet hq) (h.kept q)
  · exact (h.single t u x y ht hu hinside hy hsame).symm
  · intro z hz
    refine (List.mem_append.mp hz).imp_right fun hlast => ?_
    rw [List.mem_singleton.mp hlast]
  · intro z hz hzt
    rcases List.mem_append.mp hz with hold | hlast
    · exact absurd hzt (hfree z hold)
    · rw [List.mem_singleton.mp hlast]
  · rw [List.map_append, List.nodup_append]
    refine ⟨h.once, List.nodup_cons.mpr ⟨List.not_mem_nil, List.nodup_nil⟩, ?_⟩
    intro u hu w hw
    obtain ⟨z, hz, rfl⟩ := List.mem_map.mp hu
    rw [List.mem_singleton.mp hw]
    exact hfree z hz
  · rw [List.map_append, ← List.append_assoc, effects_append]
    exact (h.perm q).append_right _
  · rw [effects_of_effective heffective]
    split
    · rename_i hq
      subst hq
      rw [hlog]
      exact List.rel_append (h.accounted _) (.cons haccounts .nil)
    · rename_i hq
      rw [List.append_nil, law.log q _ _ (h.kept q) (hquiet hq)]
      exact h.accounted q

/-- A call returns. -/
theorem Inv.returned (law : m.Lawful v calls) (h : Inv v calls m pending order s) {k : K} {a : A}
    (hnew : ∀ z ∈ pending', z ∈ pending ∧ z.1 ≠ t) (hold : ∀ z ∈ pending, z.1 ≠ t → z ∈ pending')
    (honce : (pending'.map (·.1)).Nodup)
    (hperm : ∀ q, (order q).Perm (effects calls m q (s.results ++ [(k, a)] ++ pending'.map (·.2)))) :
    Inv v calls m pending' order { s with running := s.set t none, results := s.results ++ [(k, a)] } where
  kept := h.kept
  single := by
    intro u w y z hu hw
    have hrunning {u : T} {y : Running C R K A} (hu : s.set t none u = some y) : s.running u = some y := by
      have hne : u ≠ t := by
        rintro rfl
        simp at hu
      exact (set_of_ne hne _).symm.trans hu
    exact h.single u w y z (hrunning hu) (hrunning hw)
  placed := by
    intro u y hu
    have hne : u ≠ t := by
      rintro rfl
      change s.set u none u = some y at hu
      simp at hu
    have hu' := (set_of_ne hne _).symm.trans hu
    refine (h.placed u y hu').other (fun _ => law.refl _ _) (fun z hz => Or.inl (hnew z hz).1) fun z hz hzu => ?_
    exact hold z hz fun hzt => hne (hzu.symm.trans hzt)
  running := by
    intro z hz
    obtain ⟨hbefore, hne⟩ := hnew z hz
    obtain ⟨y, hy, hcall⟩ := h.running z hbefore
    exact ⟨y, (set_of_ne hne _).trans hy, hcall⟩
  once := honce
  perm := hperm
  accounted := h.accounted

/-- The next command of a call, or its return. -/
theorem Inv.advanced (law : m.Lawful v calls) (h : Inv v calls m pending order s)
    (hexclusive : Exclusive v calls s (.advance t : ThreadStep T K E))
    (hready : ∀ c, s.Performs (.advance t : ThreadStep T K E) c → m.ready s.device c) :
    ∃ pending order, Inv v calls m pending order (s.step v calls (.advance t : ThreadStep T K E)) := by
  rw [step]
  split
  · exact ⟨pending, order, h⟩
  · rename_i k inside a ht
    cases h.placed t _ ht with
    | outside hinside hfree heffective =>
      refine ⟨pending, order, h.returned law (fun z hz => ⟨hz, hfree z hz⟩) (fun _ hz _ => hz) h.once fun q => ?_⟩
      have hskip := effects_of_not_effective calls heffective q
      rw [effects_append, effects_append, hskip, List.append_nil, ← effects_append]
      exact h.perm q
    | inside hinside hfree hcode => cases hcode
    | returning hinside b hpending hreturns =>
      obtain rfl : a = b := hreturns
      obtain ⟨first, second, rfl⟩ := List.append_of_mem hpending
      have honce := h.once
      rw [List.map_append, List.map_cons, List.nodup_middle, ← List.map_append, List.nodup_cons] at honce
      refine ⟨first ++ second, order, h.returned law (fun z hz => ⟨?_, fun hzt => honce.1 ?_⟩) (fun z hz hzt => ?_)
        honce.2 fun q => (h.perm q).trans (List.Perm.filter _ ?_)⟩
      · exact (List.mem_append.mp hz).elim (List.mem_append_left _) (fun hsecond => List.mem_append_right _ (List.mem_cons_of_mem _ hsecond))
      · exact List.mem_map.mpr ⟨z, hz, hzt⟩
      · simp only [List.mem_append, List.mem_cons] at hz ⊢
        rcases hz with hfirst | rfl | hsecond
        · exact Or.inl hfirst
        · exact absurd rfl hzt
        · exact Or.inr hsecond
      · rw [List.map_append, List.map_cons, List.map_append, List.append_assoc, List.singleton_append]
        exact List.perm_middle.append_left _
  · rename_i k inside c next ht
    cases h.placed t _ ht with
    | outside hinside hfree hlooks =>
      obtain ⟨hsame, hnext⟩ := hlooks
      obtain rfl : inside = false := hinside
      obtain ⟨henter, hstay⟩ := hnext s.device (h.kept _)
      refine ⟨pending, order, h.resume_same ht (fun q => ?_) (fun q => ?_) (fun u y hut hu hy => ⟨?_, fun hin => ?_⟩) ?_⟩
      · rw [hsame]
        exact h.kept q
      · rw [hsame]
      · rw [hsame]
        exact law.refl _ _
      · exact hexclusive _ c next ht rfl rfl hin u y hu hy
      · rw [hsame]
        cases hflag : calls.inside k false c (v.execute s.device c).1 with
        | true => exact .inside rfl hfree (henter hflag)
        | false => exact .outside rfl hfree (hstay hflag)
    | inside hinside hfree hcode =>
      obtain rfl : inside = true := hinside
      have hperforms := hready c ⟨t, _, next, rfl, ht, rfl⟩
      cases hcode with
      | stay during hd _ _ hallowed hlog hstays hnext =>
        have hinner := hnext _ hd hperforms
        have hquiet {q : Q} (hq : calls.resource k ≠ q) : m.quiet q s.device (v.execute s.device c).2 :=
          law.frame _ q c _ hq hallowed
        refine ⟨pending, order, h.resume_same ht (fun q => ?_) (fun q => ?_) (fun u y hut hu hy => ?_) ?_⟩
        · by_cases hq : calls.resource k = q
          · rw [← hq]
            exact hinner.kept
          · exact law.kept q _ _ (hquiet hq) (h.kept q)
        · by_cases hq : calls.resource k = q
          · rw [← hq]
            exact hlog _
          · exact law.log q _ _ (h.kept q) (hquiet hq)
        · have hne : calls.resource k ≠ calls.resource y.call :=
            fun hsame => hut (h.single t u _ y ht hu rfl hy hsame).symm
          exact ⟨hquiet hne, fun _ => hne.symm⟩
        · rw [hstays]
          exact .inside rfl hfree hinner
      | leave during hd _ _ hallowed hleaves heffect =>
        obtain ⟨hkept, a, b, hlog, heffective, haccounts, hreturns⟩ := heffect _ hd hperforms
        have hflag : calls.inside k true c (v.execute s.device c).1 = false := hleaves _
        rw [hflag]
        exact ⟨_, _, h.left law ht rfl hallowed hkept hlog heffective haccounts hreturns hfree⟩
    | returning hinside a hpending hreturns =>
      obtain rfl : inside = false := hinside
      obtain ⟨hlate, hnext⟩ := hreturns
      have hquiet := fun q => law.late c q s.device hlate
      refine ⟨pending, order, h.resume_same ht (fun q => law.kept q _ _ (hquiet q) (h.kept q))
        (fun q => law.log q _ _ (h.kept q) (hquiet q)) (fun u y hut hu hy => ⟨hquiet _, fun hin => ?_⟩) ?_⟩
      · rw [(hnext _).1] at hin
        exact Bool.noConfusion hin
      · exact .returning (hnext _).1 a hpending (hnext _).2

/-- Every step keeps the outlines, if the calls are admitted, no two for one resource are inside their sections
at once, their commands are ready and no call notices the steps of the device. -/
theorem inv_step (law : m.Lawful v calls) (i : ThreadStep T K E) (h : Inv v calls m pending order s)
    (hlegal : (machine v calls).legal s i) (hadmits : ∀ t k, i = .call t k → m.admits k) (hexclusive : Exclusive v calls s i)
    (hready : ∀ c, s.Performs i c → m.ready s.device c)
    (hmove : ∀ e, i = .move e → ∀ q, m.quiet q s.device (v.move s.device e)) :
    ∃ pending order, Inv v calls m pending order ((machine v calls).step s i) := by
  cases i with
  | call t k => exact ⟨pending, order, h.called law (Option.isNone_iff_eq_none.mp hlegal) (hadmits t k rfl)⟩
  | advance t => exact h.advanced law hexclusive hready
  | move e => exact ⟨pending, order, h.device law (hmove e rfl)⟩

end Step

end Threads

end Interaction
