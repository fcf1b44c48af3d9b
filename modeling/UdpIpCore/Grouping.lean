import UdpIpCore.Framing

/-!
# Groups in a stream

A stream is cut into groups: a group is complete with its `n`-th element, or with an element that
ends a frame. The groups flow together to the stream, and complete groups are found again in their
concatenation.
-/

namespace Grouping

variable {α : Type*} {ends : α → Bool} {n : ℕ}

/-- The complete groups and the one that has begun, with one more element. -/
def push (ends : α → Bool) (n : ℕ) (s : List (List α) × List α) (x : α) : List (List α) × List α :=
  if ends x || decide (s.2.length + 1 = n) then (s.1 ++ [s.2 ++ [x]], []) else (s.1, s.2 ++ [x])

/-- The complete groups of a stream and the one that has begun. -/
def cut (ends : α → Bool) (n : ℕ) (l : List α) : List (List α) × List α := l.foldl (push ends n) ([], [])

/-- The complete groups of a stream. -/
def groups (ends : α → Bool) (n : ℕ) (l : List α) : List (List α) := (cut ends n l).1

/-- The elements behind the last complete group. -/
def left (ends : α → Bool) (n : ℕ) (l : List α) : List α := (cut ends n l).2

/-- A list that is complete with its last element and not before. -/
structure Complete (ends : α → Bool) (n : ℕ) (g : List α) : Prop where
  nonempty : g ≠ []
  length_le : g.length ≤ n
  opened : ∀ x ∈ g.dropLast, ends x = false
  closed : ∀ x, g.getLast? = some x → ends x = true ∨ g.length = n

@[simp] theorem groups_nil : groups ends n [] = [] := rfl

@[simp] theorem left_nil : left ends n [] = [] := rfl

/-- One more element of the stream. -/
theorem cut_append_singleton (l : List α) (x : α) : cut ends n (l ++ [x]) = push ends n (cut ends n l) x := by
  rw [cut, List.foldl_append]
  rfl

/-- An element that completes a group. -/
theorem cut_of_closes {l : List α} {x : α} (h : ends x = true ∨ (left ends n l).length + 1 = n) :
    groups ends n (l ++ [x]) = groups ends n l ++ [left ends n l ++ [x]] ∧ left ends n (l ++ [x]) = [] := by
  have hcut : cut ends n (l ++ [x]) = (groups ends n l ++ [left ends n l ++ [x]], []) := by
    rw [cut_append_singleton, push, if_pos]
    · rfl
    · rw [Bool.or_eq_true, decide_eq_true_eq]
      exact h
  exact ⟨by rw [groups, hcut], by rw [left, hcut]⟩

/-- An element that does not. -/
theorem cut_of_opens {l : List α} {x : α} (hx : ends x = false) (hlength : (left ends n l).length + 1 ≠ n) :
    groups ends n (l ++ [x]) = groups ends n l ∧ left ends n (l ++ [x]) = left ends n l ++ [x] := by
  have hcut : cut ends n (l ++ [x]) = (groups ends n l, left ends n l ++ [x]) := by
    rw [cut_append_singleton, push, if_neg]
    · rfl
    · rw [hx, Bool.false_or, decide_eq_true_eq]
      exact hlength
  exact ⟨by rw [groups, hcut], by rw [left, hcut]⟩

/-- It is shorter than a complete one. -/
theorem length_left_lt (hn : 0 < n) (l : List α) : (left ends n l).length < n := by
  induction l using List.reverseRecOn with
  | nil => exact hn
  | append_singleton l x ih =>
    by_cases h : ends x = true ∨ (left ends n l).length + 1 = n
    · rw [(cut_of_closes h).2]
      exact hn
    · push Not at h
      rw [(cut_of_opens (Bool.eq_false_iff.mpr h.1) h.2).2, List.length_append, List.length_singleton]
      exact Nat.lt_of_le_of_ne ih h.2

/-- The beginning of a complete group completes none. -/
theorem cut_append_open {l before : List α} (hleft : left ends n l = []) (hopen : Framing.Open ends before)
    (hlength : before.length < n) : groups ends n (l ++ before) = groups ends n l ∧ left ends n (l ++ before) = before := by
  induction before using List.reverseRecOn with
  | nil => rw [List.append_nil]; exact ⟨rfl, hleft⟩
  | append_singleton before x ih =>
    rw [List.length_append, List.length_singleton] at hlength
    obtain ⟨hgroups, hleft'⟩ := ih (fun y hy => hopen y (List.mem_append_left [x] hy)) (Nat.lt_of_succ_lt hlength)
    have hx : ends x = false := hopen x (List.mem_append_right before (List.mem_singleton_self x))
    have hne : (left ends n (l ++ before)).length + 1 ≠ n := by
      rw [hleft']
      exact Nat.ne_of_lt hlength
    obtain ⟨hgroups', hleft''⟩ := cut_of_opens hx hne
    rw [← List.append_assoc, hgroups', hleft'', hgroups, hleft']
    exact ⟨rfl, rfl⟩

/-- A complete group in the stream is found again. -/
theorem cut_append_complete {l g : List α} (hleft : left ends n l = []) (hg : Complete ends n g) :
    groups ends n (l ++ g) = groups ends n l ++ [g] ∧ left ends n (l ++ g) = [] := by
  have hsplit : g.dropLast ++ [g.getLast hg.nonempty] = g := List.dropLast_concat_getLast hg.nonempty
  have hlength : g.dropLast.length + 1 = g.length := by
    rw [List.length_dropLast]
    have hpos := List.length_pos_iff.mpr hg.nonempty
    omega
  have hle := hg.length_le
  obtain ⟨hgroups, hleft'⟩ := cut_append_open hleft hg.opened (by omega)
  have hcloses : ends (g.getLast hg.nonempty) = true ∨ (left ends n (l ++ g.dropLast)).length + 1 = n := by
    rw [hleft', hlength]
    exact hg.closed _ (List.getLast?_eq_some_getLast hg.nonempty)
  obtain ⟨hgroups', hleft''⟩ := cut_of_closes hcloses
  rw [← hsplit, ← List.append_assoc, hgroups', hleft'', hgroups, hleft', hsplit]
  exact ⟨rfl, rfl⟩

/-- Complete groups are the groups of their concatenation. -/
theorem groups_flatten {gs : List (List α)} (hgs : ∀ g ∈ gs, Complete ends n g) :
    groups ends n gs.flatten = gs ∧ left ends n gs.flatten = [] := by
  induction gs using List.reverseRecOn with
  | nil => exact ⟨rfl, rfl⟩
  | append_singleton gs g ih =>
    obtain ⟨hgroups, hleft⟩ := ih fun x hx => hgs x (List.mem_append_left [g] hx)
    have hg := hgs g (List.mem_append_right gs (List.mem_singleton_self g))
    rw [List.flatten_append, List.flatten_singleton]
    rw [(cut_append_complete hleft hg).1, (cut_append_complete hleft hg).2, hgroups]
    exact ⟨rfl, rfl⟩

/-- A longer stream has the same groups, and perhaps more. -/
theorem groups_isPrefix (l more : List α) : groups ends n l <+: groups ends n (l ++ more) := by
  induction more using List.reverseRecOn with
  | nil => simp only [List.append_nil, List.prefix_rfl]
  | append_singleton more x ih =>
    rw [← List.append_assoc]
    by_cases h : ends x = true ∨ (left ends n (l ++ more)).length + 1 = n
    · rw [(cut_of_closes h).1]
      exact ih.trans (List.prefix_append _ _)
    · push Not at h
      rw [(cut_of_opens (Bool.eq_false_iff.mpr h.1) h.2).1]
      exact ih

end Grouping
