import Mathlib.Data.List.Basic

/-!
# Ledgers of resources

A ledger lists the acquisitions and the releases of some resources in their order. It is exact
if each release finds its resource held and nothing is held at its end. What follows an exact
ledger is judged on its own, so a component that works in rounds is exact if each round is.
-/

namespace Ledger

variable {α : Type}

/-- A resource is acquired or released. -/
inductive Entry (α : Type)
  | acquire (a : α)
  | release (a : α)
deriving DecidableEq

variable [DecidableEq α]

/-- Each release finds its resource held, and each resource is released as often as it was acquired. -/
structure Exact (log : List (Entry α)) : Prop where
  held : ∀ before a after, log = before ++ .release a :: after →
    before.count (.release a) < before.count (.acquire a)
  released : ∀ a, log.count (.release a) = log.count (.acquire a)

/-- The same from some resources that are held, by going through the ledger. -/
def settles (held : List α) : List (Entry α) → Bool
  | [] => held.isEmpty
  | .acquire a :: rest => settles (a :: held) rest
  | .release a :: rest => decide (a ∈ held) && settles (held.erase a) rest

variable {log first second : List (Entry α)}

/-- Nothing was acquired or released. -/
theorem exact_nil : Exact ([] : List (Entry α)) where
  held := fun _ _ _ h => absurd h (by simp)
  released := fun _ => rfl

/-- An exact ledger and another one behind it. -/
theorem exact_append_iff (h : Exact first) : Exact (first ++ second) ↔ Exact second := by
  constructor
  · intro hboth
    constructor
    · intro before a after heq
      have hheld := hboth.held (first ++ before) a after (by rw [heq, List.append_assoc])
      rw [List.count_append, List.count_append, h.released] at hheld
      omega
    · intro a
      have hreleased := hboth.released a
      rw [List.count_append, List.count_append, h.released] at hreleased
      omega
  · intro hsecond
    constructor
    · intro before a after heq
      obtain ⟨rest, rfl, hrest⟩ | ⟨rest, rfl, hrest⟩ := List.append_eq_append_iff.mp heq
      · have hheld := hsecond.held rest a after hrest
        rw [List.count_append, List.count_append, h.released]
        omega
      · cases rest with
        | nil =>
          have hheld := hsecond.held [] a after hrest.symm
          exact absurd hheld (Nat.not_lt_zero _)
        | cons entry rest =>
          obtain ⟨rfl, -⟩ := List.cons.inj hrest
          exact h.held before a rest rfl
    · intro a
      rw [List.count_append, List.count_append, h.released, hsecond.released]

/-- A release of what was never acquired. -/
theorem not_exact_of_not_mem {before after : List (Entry α)} {a : α} (h : Entry.acquire a ∉ before) :
    ¬ Exact (before ++ .release a :: after) := by
  intro hexact
  have hheld := hexact.held before a after rfl
  rw [List.count_eq_zero_of_not_mem h] at hheld
  exact Nat.not_lt_zero _ hheld

/-- The same of what follows when some resources are held. -/
structure ExactFrom (start : List α) (log : List (Entry α)) : Prop where
  held : ∀ before a after, log = before ++ .release a :: after →
    before.count (.release a) < before.count (.acquire a) + start.count a
  released : ∀ a, log.count (.release a) = log.count (.acquire a) + start.count a

section Counting

variable (l : List (Entry α)) (a b : α)

theorem count_acquire_acquire : (Entry.acquire b :: l).count (.acquire a) =
    l.count (.acquire a) + if b = a then 1 else 0 := by
  simp [List.count_cons]

theorem count_release_release : (Entry.release b :: l).count (.release a) =
    l.count (.release a) + if b = a then 1 else 0 := by
  simp [List.count_cons]

theorem count_acquire_release : (Entry.acquire b :: l).count (.release a) = l.count (.release a) := by
  simp

theorem count_release_acquire : (Entry.release b :: l).count (.acquire a) = l.count (.acquire a) := by
  simp

end Counting

/-- One more resource is held. -/
theorem exactFrom_acquire {held : List α} {b : α} :
    ExactFrom held (.acquire b :: log) ↔ ExactFrom (b :: held) log := by
  have hcount (l : List (Entry α)) (a : α) : (Entry.acquire b :: l).count (.acquire a) + held.count a =
      l.count (.acquire a) + (b :: held).count a := by
    rw [count_acquire_acquire, List.count_cons]
    simp only [beq_iff_eq]
    omega
  constructor
  · intro h
    constructor
    · intro before a after heq
      have hheld := h.held (.acquire b :: before) a after (congrArg (List.cons _) heq)
      rwa [hcount, count_acquire_release] at hheld
    · intro a
      rw [← hcount, ← h.released a, count_acquire_release]
  · intro h
    constructor
    · intro before a after heq
      cases before with
      | nil => exact absurd (List.cons.inj heq).1 (by simp)
      | cons entry before =>
        obtain ⟨rfl, hrest⟩ := List.cons.inj heq
        rw [hcount, count_acquire_release]
        exact h.held before a after hrest
    · intro a
      rw [hcount, count_acquire_release]
      exact h.released a

/-- A resource that is held is released. -/
theorem exactFrom_release {held : List α} {b : α} :
    ExactFrom held (.release b :: log) ↔ b ∈ held ∧ ExactFrom (held.erase b) log := by
  have hcount (hb : b ∈ held) (a : α) : held.count a = (held.erase b).count a + if b = a then 1 else 0 := by
    rw [List.count_erase]
    by_cases hba : b = a
    · subst hba
      have hpos := List.count_pos_iff.mpr hb
      simp only [beq_self_eq_true, if_true]
      omega
    · simp [hba]
  constructor
  · intro h
    have hb : b ∈ held := by
      have hheld := h.held [] b log rfl
      rw [List.count_nil, List.count_nil, Nat.zero_add] at hheld
      exact List.count_pos_iff.mp hheld
    refine ⟨hb, ?_, ?_⟩
    · intro before a after heq
      have hheld := h.held (.release b :: before) a after (congrArg (List.cons _) heq)
      rw [count_release_release, count_release_acquire, hcount hb] at hheld
      omega
    · intro a
      have hreleased := h.released a
      rw [count_release_release, count_release_acquire, hcount hb] at hreleased
      omega
  · rintro ⟨hb, h⟩
    constructor
    · intro before a after heq
      cases before with
      | nil =>
        obtain ⟨hba, -⟩ := List.cons.inj heq
        obtain rfl := Entry.release.inj hba
        rw [List.count_nil, List.count_nil, Nat.zero_add]
        exact List.count_pos_iff.mpr hb
      | cons entry before =>
        obtain ⟨rfl, hrest⟩ := List.cons.inj heq
        have hheld := h.held before a after hrest
        rw [count_release_release, count_release_acquire, hcount hb]
        omega
    · intro a
      have hreleased := h.released a
      rw [count_release_release, count_release_acquire, hcount hb]
      omega

/-- Going through a ledger decides it. -/
theorem settles_iff (held : List α) (log : List (Entry α)) : settles held log = true ↔ ExactFrom held log := by
  induction log generalizing held with
  | nil =>
    rw [settles, List.isEmpty_iff]
    constructor
    · rintro rfl
      exact ⟨fun _ _ _ h => absurd h (by simp), fun _ => rfl⟩
    · intro h
      rw [List.eq_nil_iff_forall_not_mem]
      intro a ha
      have hcount := h.released a
      rw [List.count_nil, List.count_nil, Nat.zero_add] at hcount
      exact Nat.ne_of_lt (List.count_pos_iff.mpr ha) hcount
  | cons entry rest ih =>
    cases entry with
    | acquire b => rw [settles, ih, exactFrom_acquire]
    | release b => rw [settles, Bool.and_eq_true, decide_eq_true_iff, ih, exactFrom_release]

/-- So exactness can be decided. -/
theorem settles_nil_iff : settles [] log = true ↔ Exact log := by
  rw [settles_iff]
  exact ⟨fun h => ⟨h.held, h.released⟩, fun h => ⟨h.held, h.released⟩⟩

instance : Decidable (Exact log) := decidable_of_iff _ settles_nil_iff

end Ledger
