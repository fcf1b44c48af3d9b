import Mathlib.Data.Nat.Init

/-!
# A memory behind a write-back cache

The lines of a cache are filled and evicted at any time. A processor reads and writes its
lines; a line it has written is dirty until its contents are written to the memory. A device
writes the memory itself, and no line learns of it.

The owned contents of the memory are those it would have with all dirty lines written back.
They are what the processor reads as long as it reads no byte that the device has written
since the line was filled, and neither fills nor evictions change them.
-/

namespace WriteBack

variable {V : Type}

/-- A line of the cache; its contents are given by address. -/
structure Line (V : Type) where
  data : ℕ → V
  dirty : Bool
  /-- The bytes the device has written since the line was filled. -/
  outdated : ℕ → Bool

/-- A memory and the lines of it that are in the cache. -/
structure Cached (V : Type) where
  memory : ℕ → V
  lines : ℕ → Option (Line V)

/-- The lines that share bytes with a range of addresses. -/
def InRange (size offset length n : ℕ) : Prop := offset / size ≤ n ∧ n * size < offset + length

instance (size offset length n : ℕ) : Decidable (InRange size offset length n) :=
  inferInstanceAs (Decidable (_ ∧ _))

/-- The line of an address of the range. -/
theorem inRange_of_mem {size offset length a : ℕ} (hlow : offset ≤ a) (hhigh : a < offset + length) :
    InRange size offset length (a / size) :=
  ⟨Nat.div_le_div_right hlow, Nat.lt_of_le_of_lt (Nat.div_mul_le_self a size) hhigh⟩

/-- There are not many of them. -/
theorem exists_of_inRange {size offset length n : ℕ} (hpos : 0 < size) (h : InRange size offset length n) :
    ∃ k < length + 2, n = offset / size + k := by
  obtain ⟨hlow, hhigh⟩ := h
  refine ⟨n - offset / size, ?_, by omega⟩
  have hfirst : offset < (offset / size + 1) * size := Nat.lt_mul_of_div_lt (Nat.lt_succ_self _) hpos
  have hrest : (length + 1) * 1 ≤ (length + 1) * size := Nat.mul_le_mul_left _ hpos
  refine Nat.lt_of_not_le fun hmany => ?_
  have hlast : (offset / size + 1 + (length + 1)) * size ≤ n * size := Nat.mul_le_mul_right _ (by omega)
  rw [Nat.add_mul] at hlast
  omega

namespace Cached

variable (size : ℕ)

/-- What the processor reads. -/
def read (c : Cached V) (a : ℕ) : V :=
  match c.lines (a / size) with
  | some l => l.data a
  | none => c.memory a

/-- A line as it is filled. -/
def filled (c : Cached V) : Line V := ⟨c.memory, false, fun _ => false⟩

/-- A line is filled, unless it is in the cache. -/
def fill (c : Cached V) (n : ℕ) : Cached V :=
  { c with lines := fun k => if k = n then some ((c.lines n).getD c.filled) else c.lines k }

/-- The owned contents: a dirty line holds newer ones than the memory. -/
def owned (c : Cached V) (a : ℕ) : V :=
  match c.lines (a / size) with
  | some l => if l.dirty then l.data a else c.memory a
  | none => c.memory a

/-- A line leaves the cache. -/
def evict (c : Cached V) (n : ℕ) : Cached V where
  memory := fun a => if a / size = n then c.owned size a else c.memory a
  lines := fun k => if k = n then none else c.lines k

/-- The processor writes a byte; the line is filled first. -/
def store (c : Cached V) (a : ℕ) (v : V) : Cached V :=
  let l := (c.lines (a / size)).getD c.filled
  { c with
    lines := fun k =>
      if k = a / size then some { l with data := fun b => if b = a then v else l.data b, dirty := true }
      else c.lines k }

/-- A sync to the device: the lines of the range are written back. -/
def clean (c : Cached V) (offset length : ℕ) : Cached V where
  memory := fun a => if InRange size offset length (a / size) then c.owned size a else c.memory a
  lines := fun k =>
    if InRange size offset length k then (c.lines k).map fun l => { l with dirty := false } else c.lines k

/-- A sync from the device: the lines of the range are dropped. -/
def invalidate (c : Cached V) (offset length : ℕ) : Cached V :=
  { c with lines := fun k => if InRange size offset length k then none else c.lines k }

/-- The device writes some bytes. -/
def deviceWrite (c : Cached V) (written : ℕ → Option V) : Cached V where
  memory := fun a => (written a).getD (c.memory a)
  lines := fun k => (c.lines k).map fun l => { l with outdated := fun a => l.outdated a || (written a).isSome }

/-- The line is in the cache and dirty. -/
def Dirty (c : Cached V) (n : ℕ) : Prop := ∃ l, c.lines n = some l ∧ l.dirty = true

/-- The line of the byte is in the cache and was filled before the device wrote the byte. -/
def Outdated (c : Cached V) (a : ℕ) : Prop := ∃ l, c.lines (a / size) = some l ∧ l.outdated a = true

instance (c : Cached V) (n : ℕ) : Decidable (c.Dirty n) :=
  decidable_of_iff ((c.lines n).any (·.dirty) = true) (Option.any_eq_true _ _)

instance (c : Cached V) (a : ℕ) : Decidable (c.Outdated size a) :=
  decidable_of_iff ((c.lines (a / size)).any (·.outdated a) = true) (Option.any_eq_true _ _)

/-- The processor writes only its own area, and the device only outside of it. -/
structure Coherent (area : ℕ → Prop) (c : Cached V) : Prop where
  current : ∀ a l, c.lines (a / size) = some l → l.dirty = false → l.outdated a = false → l.data a = c.memory a
  device : ∀ a l, c.lines (a / size) = some l → l.outdated a = true → ¬ area a
  processor : ∀ a l, c.lines (a / size) = some l → l.dirty = true → area a

variable {size} {area : ℕ → Prop} {c : Cached V} {n offset length : ℕ}

/-- A line that is not dirty owns nothing. -/
theorem owned_of_not_dirty {a : ℕ} (h : ¬ c.Dirty (a / size)) : c.owned size a = c.memory a := by
  rw [owned]
  split
  · rename_i l hl
    exact if_neg fun hdirty => h ⟨l, hl, hdirty⟩
  · rfl

/-- An empty cache. -/
theorem coherent_empty (area : ℕ → Prop) (memory : ℕ → V) : Coherent size area ⟨memory, fun _ => none⟩ := by
  refine ⟨?_, ?_, ?_⟩ <;> intro a l hl <;> simp at hl

/-- What is not outdated is read as it is owned. -/
theorem Coherent.read_eq (h : c.Coherent size area) {a : ℕ} (hcurrent : ¬ c.Outdated size a) :
    c.read size a = c.owned size a := by
  rw [read, owned]
  split
  · rename_i l hl
    cases hdirty : l.dirty with
    | true => rfl
    | false =>
      refine h.current a l hl hdirty ?_
      rw [← Bool.not_eq_true]
      exact fun houtdated => hcurrent ⟨l, hl, houtdated⟩
  · rfl

/-- A line of the cache after a fill. -/
theorem lines_fill {k : ℕ} {l : Line V} (hl : (c.fill n).lines k = some l) :
    c.lines k = some l ∨ l = c.filled ∧ c.lines k = none := by
  simp only [fill] at hl
  split at hl
  · rename_i hk
    subst hk
    cases hold : c.lines k with
    | some l' =>
      rw [hold, Option.getD_some] at hl
      exact Or.inl hl
    | none =>
      rw [hold, Option.getD_none, Option.some.injEq] at hl
      exact Or.inr ⟨hl.symm, rfl⟩
  · exact Or.inl hl

/-- A fill changes nothing that is owned. -/
theorem owned_fill (a : ℕ) : (c.fill n).owned size a = c.owned size a := by
  rw [owned, owned, fill]
  by_cases hk : a / size = n
  · subst hk
    dsimp only
    rw [if_pos rfl]
    cases c.lines (a / size) <;> rfl
  · dsimp only
    rw [if_neg hk]

/-- Filling a line. -/
theorem Coherent.fill (h : c.Coherent size area) (n : ℕ) : (c.fill n).Coherent size area where
  current := by
    intro a l hl hdirty houtdated
    rcases lines_fill hl with hold | ⟨rfl, -⟩
    · exact h.current a l hold hdirty houtdated
    · rfl
  device := by
    intro a l hl houtdated
    rcases lines_fill hl with hold | ⟨rfl, -⟩
    · exact h.device a l hold houtdated
    · exact Bool.noConfusion houtdated
  processor := by
    intro a l hl hdirty
    rcases lines_fill hl with hold | ⟨rfl, -⟩
    · exact h.processor a l hold hdirty
    · exact Bool.noConfusion hdirty

/-- A fill makes no line dirty. -/
theorem dirty_fill {k : ℕ} (h : (c.fill n).Dirty k) : c.Dirty k := by
  obtain ⟨l, hl, hdirty⟩ := h
  rcases lines_fill hl with hold | ⟨rfl, -⟩
  · exact ⟨l, hold, hdirty⟩
  · exact Bool.noConfusion hdirty

/-- The lines that stay in the cache. -/
theorem lines_evict {k : ℕ} {l : Line V} (hl : (c.evict size n).lines k = some l) : k ≠ n ∧ c.lines k = some l := by
  simp only [evict] at hl
  split at hl
  · exact absurd hl (by simp)
  · exact ⟨‹_›, hl⟩

/-- An eviction changes nothing that is owned. -/
theorem owned_evict (a : ℕ) : (c.evict size n).owned size a = c.owned size a := by
  by_cases hk : a / size = n
  · have hgone : (c.evict size n).lines (a / size) = none := if_pos hk
    rw [owned, hgone]
    exact if_pos hk
  · have hstays : (c.evict size n).lines (a / size) = c.lines (a / size) := if_neg hk
    have hmemory : (c.evict size n).memory a = c.memory a := if_neg hk
    rw [owned, hstays, hmemory, owned]

/-- Evicting a line. -/
theorem Coherent.evict (h : c.Coherent size area) (n : ℕ) : (c.evict size n).Coherent size area where
  current := by
    intro a l hl hdirty houtdated
    obtain ⟨hk, hold⟩ := lines_evict hl
    exact (h.current a l hold hdirty houtdated).trans (if_neg hk).symm
  device := fun a l hl => h.device a l (lines_evict hl).2
  processor := fun a l hl => h.processor a l (lines_evict hl).2

/-- An eviction makes no line dirty. -/
theorem dirty_evict {k : ℕ} (h : (c.evict size n).Dirty k) : c.Dirty k := by
  obtain ⟨l, hl, hdirty⟩ := h
  exact ⟨l, (lines_evict hl).2, hdirty⟩

/-- Writing a byte of the processor's area. -/
theorem Coherent.store (h : c.Coherent size area) {a : ℕ} (harea : ∀ b, b / size = a / size → area b) (v : V) :
    (c.store size a v).Coherent size area where
  current := by
    intro b l hl hdirty houtdated
    simp only [Cached.store] at hl
    split at hl
    · rw [← Option.some.inj hl] at hdirty
      exact Bool.noConfusion hdirty
    · exact h.current b l hl hdirty houtdated
  device := by
    intro b l hl houtdated
    simp only [Cached.store] at hl
    split at hl
    · rename_i hk
      rw [← Option.some.inj hl] at houtdated
      rw [← hk] at houtdated
      cases hold : c.lines (b / size) with
      | some l' =>
        rw [hold] at houtdated
        exact h.device b l' hold houtdated
      | none =>
        rw [hold] at houtdated
        exact Bool.noConfusion houtdated
    · exact h.device b l hl houtdated
  processor := by
    intro b l hl hdirty
    simp only [Cached.store] at hl
    split at hl
    · exact harea b ‹_›
    · exact h.processor b l hl hdirty

/-- The byte that was written is owned, and nothing else changes. -/
theorem Coherent.owned_store (h : c.Coherent size area) {a : ℕ} (harea : ∀ b, b / size = a / size → area b) (v : V)
    (b : ℕ) : (c.store size a v).owned size b = if b = a then v else c.owned size b := by
  by_cases hk : b / size = a / size
  · have hline : (c.store size a v).lines (b / size) = some { (c.lines (a / size)).getD c.filled with
        data := fun x => if x = a then v else ((c.lines (a / size)).getD c.filled).data x, dirty := true } :=
      if_pos hk
    rw [owned, hline]
    change (if b = a then v else ((c.lines (a / size)).getD c.filled).data b) = _
    by_cases hba : b = a
    · rw [if_pos hba, if_pos hba]
    · rw [if_neg hba, if_neg hba, ← hk, owned]
      cases hold : c.lines (b / size) with
      | none => rfl
      | some l =>
        rw [Option.getD_some]
        dsimp only
        cases hdirty : l.dirty with
        | true => rfl
        | false =>
          -- a clean line of the area is as the memory, so writing it dirties no stale byte
          refine h.current b l hold hdirty ?_
          rw [← Bool.not_eq_true]
          exact fun houtdated => h.device b l hold houtdated (harea b hk)
  · have hline : (c.store size a v).lines (b / size) = c.lines (b / size) := if_neg hk
    have hba : b ≠ a := fun heq => hk (heq ▸ rfl)
    rw [owned, hline, if_neg hba, owned]
    rfl

/-- A line of the cache after a sync to the device. -/
theorem lines_clean {k : ℕ} {l : Line V} (hl : (c.clean size offset length).lines k = some l) :
    ∃ l', c.lines k = some l' ∧ l.data = l'.data ∧ l.outdated = l'.outdated ∧
      (InRange size offset length k ∧ l.dirty = false ∨ ¬ InRange size offset length k ∧ l.dirty = l'.dirty) := by
  simp only [clean] at hl
  split at hl
  · obtain ⟨l', hl', rfl⟩ := Option.map_eq_some_iff.mp hl
    exact ⟨l', hl', rfl, rfl, Or.inl ⟨‹_›, rfl⟩⟩
  · exact ⟨l, hl, rfl, rfl, Or.inr ⟨‹_›, rfl⟩⟩

/-- A sync to the device changes nothing that is owned. -/
theorem owned_clean (a : ℕ) : (c.clean size offset length).owned size a = c.owned size a := by
  by_cases hrange : InRange size offset length (a / size)
  · have hmemory : (c.clean size offset length).memory a = c.owned size a := if_pos hrange
    rw [← hmemory]
    refine owned_of_not_dirty ?_
    rintro ⟨l, hl, hdirty⟩
    obtain ⟨l', -, -, -, ⟨-, hclean⟩ | ⟨hnot, -⟩⟩ := lines_clean hl
    · rw [hclean] at hdirty
      exact Bool.noConfusion hdirty
    · exact hnot hrange
  · have hline : (c.clean size offset length).lines (a / size) = c.lines (a / size) := if_neg hrange
    have hmemory : (c.clean size offset length).memory a = c.memory a := if_neg hrange
    rw [owned, hline, hmemory, owned]

/-- A sync of a range to the device. -/
theorem Coherent.clean (h : c.Coherent size area) (offset length : ℕ) :
    (c.clean size offset length).Coherent size area where
  current := by
    intro a l hl hdirty houtdated
    obtain ⟨l', hl', hdata, hsame, ⟨hrange, -⟩ | ⟨hrange, hdirty'⟩⟩ := lines_clean hl
    · have hmemory : (c.clean size offset length).memory a = c.owned size a := if_pos hrange
      rw [hmemory, hdata, owned, hl']
      dsimp only
      cases hbefore : l'.dirty with
      | true => rfl
      | false => exact h.current a l' hl' hbefore (hsame ▸ houtdated)
    · have hmemory : (c.clean size offset length).memory a = c.memory a := if_neg hrange
      rw [hmemory, hdata]
      exact h.current a l' hl' (hdirty' ▸ hdirty) (hsame ▸ houtdated)
  device := by
    intro a l hl houtdated
    obtain ⟨l', hl', -, hsame, -⟩ := lines_clean hl
    exact h.device a l' hl' (hsame ▸ houtdated)
  processor := by
    intro a l hl hdirty
    obtain ⟨l', hl', -, -, ⟨-, hclean⟩ | ⟨-, hdirty'⟩⟩ := lines_clean hl
    · rw [hclean] at hdirty
      exact Bool.noConfusion hdirty
    · exact h.processor a l' hl' (hdirty' ▸ hdirty)

/-- After a sync to the device no line of the range is dirty. -/
theorem dirty_clean {k : ℕ} (h : (c.clean size offset length).Dirty k) :
    c.Dirty k ∧ ¬ InRange size offset length k := by
  obtain ⟨l, hl, hdirty⟩ := h
  obtain ⟨l', hl', -, -, ⟨-, hclean⟩ | ⟨hrange, hdirty'⟩⟩ := lines_clean hl
  · rw [hclean] at hdirty
    exact Bool.noConfusion hdirty
  · exact ⟨⟨l', hl', hdirty' ▸ hdirty⟩, hrange⟩

/-- The lines that a sync from the device leaves. -/
theorem lines_invalidate {k : ℕ} {l : Line V} (hl : (c.invalidate size offset length).lines k = some l) :
    c.lines k = some l ∧ ¬ InRange size offset length k := by
  simp only [invalidate] at hl
  split at hl
  · exact absurd hl (by simp)
  · exact ⟨hl, ‹_›⟩

/-- A sync from the device drops nothing that is owned, if no line of the range is dirty. -/
theorem owned_invalidate (h : ∀ k, InRange size offset length k → ¬ c.Dirty k) (a : ℕ) :
    (c.invalidate size offset length).owned size a = c.owned size a := by
  by_cases hrange : InRange size offset length (a / size)
  · have hline : (c.invalidate size offset length).lines (a / size) = none := if_pos hrange
    rw [owned, hline, owned_of_not_dirty (h _ hrange)]
    rfl
  · have hline : (c.invalidate size offset length).lines (a / size) = c.lines (a / size) := if_neg hrange
    rw [owned, hline, owned]
    rfl

/-- A sync of a range from the device. -/
theorem Coherent.invalidate (h : c.Coherent size area) (offset length : ℕ) :
    (c.invalidate size offset length).Coherent size area where
  current := fun a l hl => h.current a l (lines_invalidate hl).1
  device := fun a l hl => h.device a l (lines_invalidate hl).1
  processor := fun a l hl => h.processor a l (lines_invalidate hl).1

/-- After a sync from the device no line of the range is dirty. -/
theorem dirty_invalidate {k : ℕ} (h : (c.invalidate size offset length).Dirty k) :
    c.Dirty k ∧ ¬ InRange size offset length k := by
  obtain ⟨l, hl, hdirty⟩ := h
  obtain ⟨hold, hrange⟩ := lines_invalidate hl
  exact ⟨⟨l, hold, hdirty⟩, hrange⟩

/-- A line of the cache after the device has written. -/
theorem lines_deviceWrite {written : ℕ → Option V} {k : ℕ} {l : Line V}
    (hl : (c.deviceWrite written).lines k = some l) : ∃ l', c.lines k = some l' ∧ l.data = l'.data ∧
      l.dirty = l'.dirty ∧ ∀ a, l.outdated a = (l'.outdated a || (written a).isSome) := by
  obtain ⟨l', hl', rfl⟩ := Option.map_eq_some_iff.mp hl
  exact ⟨l', hl', rfl, rfl, fun _ => rfl⟩

/-- What the device writes outside of the processor's area is owned. -/
theorem Coherent.owned_deviceWrite (h : c.Coherent size area) {written : ℕ → Option V}
    (hwritten : ∀ a, (written a).isSome = true → ¬ area a) (a : ℕ) :
    (c.deviceWrite written).owned size a = (written a).getD (c.owned size a) := by
  cases hold : c.lines (a / size) with
  | none =>
    have hline : (c.deviceWrite written).lines (a / size) = none := by simp [deviceWrite, hold]
    rw [owned, owned, hline, hold]
    rfl
  | some l =>
    have hline : (c.deviceWrite written).lines (a / size) =
        some { l with outdated := fun a => l.outdated a || (written a).isSome } := by simp [deviceWrite, hold]
    rw [owned, owned, hline, hold]
    dsimp only
    cases hdirty : l.dirty with
    | false => rfl
    | true =>
      have hnone : written a = none := by
        rw [← Option.not_isSome_iff_eq_none]
        exact fun hsome => hwritten a hsome (h.processor a l hold hdirty)
      rw [hnone]
      rfl

/-- The device writes outside of the processor's area. -/
theorem Coherent.deviceWrite (h : c.Coherent size area) {written : ℕ → Option V}
    (hwritten : ∀ a, (written a).isSome = true → ¬ area a) : (c.deviceWrite written).Coherent size area where
  current := by
    intro a l hl hdirty houtdated
    obtain ⟨l', hl', hdata, hdirty', hout⟩ := lines_deviceWrite hl
    rw [hout, Bool.or_eq_false_iff, Option.isSome_eq_false_iff, Option.isNone_iff_eq_none] at houtdated
    have hmemory : (c.deviceWrite written).memory a = c.memory a := by simp [Cached.deviceWrite, houtdated.2]
    rw [hmemory, hdata]
    exact h.current a l' hl' (hdirty' ▸ hdirty) houtdated.1
  device := by
    intro a l hl houtdated
    obtain ⟨l', hl', -, -, hout⟩ := lines_deviceWrite hl
    rw [hout, Bool.or_eq_true] at houtdated
    exact houtdated.elim (h.device a l' hl') (hwritten a)
  processor := by
    intro a l hl hdirty
    obtain ⟨l', hl', -, hdirty', -⟩ := lines_deviceWrite hl
    exact h.processor a l' hl' (hdirty' ▸ hdirty)

/-- The device makes no line dirty. -/
theorem dirty_deviceWrite {written : ℕ → Option V} {k : ℕ} (h : (c.deviceWrite written).Dirty k) : c.Dirty k := by
  obtain ⟨l, hl, hdirty⟩ := h
  obtain ⟨l', hl', -, hdirty', -⟩ := lines_deviceWrite hl
  exact ⟨l', hl', hdirty' ▸ hdirty⟩

end Cached

end WriteBack
