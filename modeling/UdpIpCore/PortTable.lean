import Mathlib.Logic.Function.Basic

/-!
# Handles and the ports they receive on

A table gives each handle the port it is bound to and records which handles were shut down
for reading; beside it, each port has an open flag. The table mirrors the flags when a
port in range is open exactly if some handle receives on it. For each action the exact
condition is given under which the table still mirrors the flags afterwards.
-/

/-- Handles `F`, ports `P`. -/
structure PortTable (F P : Type*) where
  port : F → Option P
  shut : F → Bool
  opened : P → Bool

/-- What can happen to one handle. -/
inductive PortAction (F P : Type*)
  | keep
  /-- A fresh handle. -/
  | create (fd : F)
  | bind (fd : F) (p : P)
  /-- Shut down for reading; the flag of the port is cleared, or left as it is. -/
  | shut (fd : F) (clears : Bool)
  | release (fd : F)

namespace PortTable

variable {F P : Type*} [DecidableEq F] [DecidableEq P] (ranged : P → Prop) [DecidablePred ranged]

/-- The handle receives on the port. -/
def Listens (t : PortTable F P) (fd : F) (p : P) : Prop := t.port fd = some p ∧ t.shut fd = false

/-- The table after an action; only ports in range have a flag. -/
def apply (t : PortTable F P) : PortAction F P → PortTable F P
  | .keep => t
  | .create fd => { t with shut := Function.update t.shut fd false }
  | .bind fd p =>
    { t with
      port := Function.update t.port fd (some p)
      opened := if ranged p then Function.update t.opened p true else t.opened }
  | .shut fd clears =>
    { t with
      shut := Function.update t.shut fd true
      opened := fun p => if clears ∧ t.port fd = some p ∧ ranged p then false else t.opened p }
  | .release fd => { t with port := Function.update t.port fd none }

/-- Only an unbound handle is created anew or bound. -/
def Valid (t : PortTable F P) : PortAction F P → Prop
  | .create fd | .bind fd _ => t.port fd = none
  | .keep | .shut _ _ | .release _ => True

/-- A port in range is open exactly if some handle receives on it. -/
def Mirrors (t : PortTable F P) : Prop := ∀ p, ranged p → (t.opened p = true ↔ ∃ fd, t.Listens fd p)

/-- Another handle receives on the port as well. -/
def Shared (t : PortTable F P) (fd : F) (p : P) : Prop := ∃ other, other ≠ fd ∧ t.Listens other p

/-- The condition on an action: a handle that is bound receives, or another one does so on its port;
a flag is cleared only with the last handle, and left alone only without being the last one. -/
def Fits (t : PortTable F P) : PortAction F P → Prop
  | .keep | .create _ => True
  | .bind fd p => ranged p → t.shut fd = false ∨ t.Shared fd p
  | .shut fd true => ∀ p, ranged p → t.port fd = some p → ¬ t.Shared fd p
  | .shut fd false | .release fd => ∀ p, ranged p → t.Listens fd p → t.Shared fd p

variable {ranged} {t : PortTable F P}

omit [DecidableEq P] in
/-- The handles of a port are those that share it and the given one. -/
theorem exists_listens_iff (fd : F) (p : P) : (∃ other, t.Listens other p) ↔ t.Listens fd p ∨ t.Shared fd p := by
  constructor
  · rintro ⟨other, hother⟩
    by_cases heq : other = fd
    · exact Or.inl (heq ▸ hother)
    · exact Or.inr ⟨other, heq, hother⟩
  · rintro (hfd | ⟨other, -, hother⟩)
    · exact ⟨fd, hfd⟩
    · exact ⟨other, hother⟩

/-- An action on one handle leaves the others as they are. -/
theorem shared_apply {a : PortAction F P} {fd : F} (hport : ∀ other, other ≠ fd → (t.apply ranged a).port other = t.port other)
    (hshut : ∀ other, other ≠ fd → (t.apply ranged a).shut other = t.shut other) (p : P) :
    (t.apply ranged a).Shared fd p ↔ t.Shared fd p := by
  refine exists_congr fun other => and_congr_right fun hne => ?_
  rw [Listens, Listens, hport other hne, hshut other hne]

/-- A fresh handle changes nothing. -/
theorem mirrors_create_iff {fd : F} (hfd : t.port fd = none) :
    (t.apply ranged (.create fd)).Mirrors ranged ↔ t.Mirrors ranged := by
  refine forall_congr' fun p => imp_congr_right fun _ => iff_congr Iff.rfl (exists_congr fun other => ?_)
  by_cases heq : other = fd
  · subst heq
    simp [Listens, apply, hfd]
  · simp [Listens, apply, Function.update_of_ne heq]

/-- Binding a handle opens its port. -/
theorem mirrors_bind_iff (h : t.Mirrors ranged) {fd : F} {p : P} (hfd : t.port fd = none) :
    (t.apply ranged (.bind fd p)).Mirrors ranged ↔ t.Fits ranged (.bind fd p) := by
  have hshared : ∀ q, (t.apply ranged (.bind fd p)).Shared fd q ↔ t.Shared fd q := shared_apply
    (fun other hne => Function.update_of_ne hne _ _) (fun _ _ => rfl)
  have hlistens (q : P) : (t.apply ranged (.bind fd p)).Listens fd q ↔ p = q ∧ t.shut fd = false := by
    simp [Listens, apply]
  constructor
  · intro hmirrors hp
    have hopen : (t.apply ranged (.bind fd p)).opened p = true := by simp [apply, hp]
    have hsome := (exists_listens_iff fd p).mp ((hmirrors p hp).mp hopen)
    rw [hlistens, hshared] at hsome
    exact hsome.imp And.right id
  · intro hfits q hq
    rw [exists_listens_iff fd, hlistens, hshared]
    by_cases hpq : p = q
    · subst hpq
      have hopen : (t.apply ranged (.bind fd p)).opened p = true := by simp [apply, hq]
      exact iff_of_true hopen ((hfits hq).imp (fun hshut => ⟨rfl, hshut⟩) id)
    · have hopened : (t.apply ranged (.bind fd p)).opened q = t.opened q := by
        by_cases hp : ranged p <;> simp [apply, hp, Function.update_of_ne (Ne.symm hpq)]
      have hold : ¬ t.Listens fd q := by simp [Listens, hfd]
      rw [hopened, h q hq, exists_listens_iff fd]
      simp [hpq, hold]

/-- A handle that stops receiving: its flag is left as it is. -/
theorem mirrors_unlisten_iff (h : t.Mirrors ranged) {a : PortAction F P} {fd : F}
    (hopened : (t.apply ranged a).opened = t.opened) (hlistens : ∀ p, ¬ (t.apply ranged a).Listens fd p)
    (hshared : ∀ p, (t.apply ranged a).Shared fd p ↔ t.Shared fd p) :
    (t.apply ranged a).Mirrors ranged ↔ ∀ p, ranged p → t.Listens fd p → t.Shared fd p := by
  refine forall_congr' fun p => imp_congr_right fun hp => ?_
  rw [hopened, h p hp, exists_listens_iff fd, exists_listens_iff fd, hshared, or_iff_right (hlistens p)]
  exact or_iff_right_iff_imp

/-- Shutting a handle down and clearing the flag of its port. -/
theorem mirrors_shut_iff (h : t.Mirrors ranged) (fd : F) :
    (t.apply ranged (.shut fd true)).Mirrors ranged ↔ t.Fits ranged (.shut fd true) := by
  have hshared : ∀ q, (t.apply ranged (.shut fd true)).Shared fd q ↔ t.Shared fd q := shared_apply
    (fun _ _ => rfl) (fun other hne => Function.update_of_ne hne _ _)
  have hlistens (p : P) : ¬ (t.apply ranged (.shut fd true)).Listens fd p := by simp [Listens, apply]
  refine forall_congr' fun p => imp_congr_right fun hp => ?_
  rw [exists_listens_iff fd, hshared]
  by_cases hport : t.port fd = some p
  · have hopened : (t.apply ranged (.shut fd true)).opened p = false := by simp [apply, hport, hp]
    simp [hopened, hlistens, hport]
  · have hopened : (t.apply ranged (.shut fd true)).opened p = t.opened p := by simp [apply, hport]
    have hold : ¬ t.Listens fd p := fun hold => hport hold.1
    rw [hopened, h p hp, exists_listens_iff fd]
    simp [hlistens, hport, hold]

/-- From a table that mirrors the flags, an action leads to one exactly if it fits. -/
theorem mirrors_apply_iff (h : t.Mirrors ranged) {a : PortAction F P} (hvalid : t.Valid a) :
    (t.apply ranged a).Mirrors ranged ↔ t.Fits ranged a := by
  cases a with
  | keep => exact iff_of_true h trivial
  | create fd => exact (mirrors_create_iff hvalid).trans (iff_of_true h trivial)
  | bind fd p => exact mirrors_bind_iff h hvalid
  | shut fd clears =>
    cases clears with
    | true => exact mirrors_shut_iff h fd
    | false =>
      refine mirrors_unlisten_iff h ?_ ?_ ?_
      · funext p
        simp [apply]
      · simp [Listens, apply]
      · exact shared_apply (fun _ _ => rfl) fun other hne => Function.update_of_ne hne _ _
  | release fd =>
    refine mirrors_unlisten_iff h rfl ?_ ?_
    · simp [Listens, apply]
    · exact shared_apply (fun other hne => Function.update_of_ne hne _ _) fun _ _ => rfl

/-- Every bound handle has a port in range, and no other handle has it. -/
structure Owned (ranged : P → Prop) (t : PortTable F P) : Prop where
  inRange : ∀ fd p, t.port fd = some p → ranged p
  alone : ∀ fd other p, t.port fd = some p → t.port other = some p → fd = other

/-- A handle is bound to a port in range that no handle has. -/
def Claims (ranged : P → Prop) (t : PortTable F P) : PortAction F P → Prop
  | .bind _ p => ranged p ∧ ∀ other, t.port other ≠ some p
  | .keep | .create _ | .shut _ _ | .release _ => True

/-- Such actions keep the ports owned. -/
theorem Owned.apply (h : t.Owned ranged) {a : PortAction F P} (hclaims : t.Claims ranged a) :
    (t.apply ranged a).Owned ranged := by
  cases a with
  | keep | create | shut => exact ⟨h.inRange, h.alone⟩
  | bind fd p =>
    obtain ⟨hp, hfree⟩ := hclaims
    have hcases (other : F) (q : P) (hother : (t.apply ranged (.bind fd p)).port other = some q) :
        other = fd ∧ p = q ∨ other ≠ fd ∧ t.port other = some q := by
      by_cases heq : other = fd
      · subst heq
        exact Or.inl ⟨rfl, by simpa [PortTable.apply] using hother⟩
      · exact Or.inr ⟨heq, by simpa [PortTable.apply, Function.update_of_ne heq] using hother⟩
    refine ⟨fun other q hother => ?_, fun one two q hone htwo => ?_⟩
    · rcases hcases other q hother with ⟨-, rfl⟩ | ⟨-, hold⟩
      · exact hp
      · exact h.inRange other q hold
    · rcases hcases one q hone with ⟨rfl, rfl⟩ | ⟨-, hold⟩ <;> rcases hcases two _ htwo with ⟨rfl, hq⟩ | ⟨-, hold'⟩
      · rfl
      · exact absurd hold' (hfree two)
      · exact absurd (hq ▸ hold) (hfree one)
      · exact h.alone one two q hold hold'
  | release fd =>
    have hcases (other : F) (q : P) (hother : (t.apply ranged (.release fd)).port other = some q) :
        t.port other = some q := by
      by_cases heq : other = fd
      · subst heq
        simp [PortTable.apply] at hother
      · simpa [PortTable.apply, Function.update_of_ne heq] using hother
    exact ⟨fun other q hother => h.inRange other q (hcases other q hother),
      fun one two q hone htwo => h.alone one two q (hcases one q hone) (hcases two q htwo)⟩

end PortTable
