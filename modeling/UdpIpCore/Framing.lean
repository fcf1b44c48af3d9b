import Mathlib.Data.List.Induction

/-!
# Frames in a stream

A stream carries frames back to back. A frame ends at its first element that says so, so
the frames are found again in their concatenation, and two cuts of one stream into frames
agree as far as both go.
-/

namespace Framing

variable {α : Type*} {ends : α → Bool}

/-- A list that ends at its only element that ends a frame. -/
def Frame (ends : α → Bool) (l : List α) : Prop :=
  ∃ before last, l = before ++ [last] ∧ ends last = true ∧ ∀ x ∈ before, ends x = false

/-- The beginning of a frame. -/
def Open (ends : α → Bool) (l : List α) : Prop := ∀ x ∈ l, ends x = false

/-- A frame is not empty. -/
theorem Frame.ne_nil {l : List α} (h : Frame ends l) : l ≠ [] := by
  obtain ⟨before, last, rfl, -⟩ := h
  simp

/-- A frame is not the beginning of a frame. -/
theorem Frame.not_open {l : List α} (h : Frame ends l) : ¬ Open ends l := by
  obtain ⟨before, last, rfl, hlast, -⟩ := h
  intro hopen
  simp [hopen last (by simp)] at hlast

/-- Exactly one element of a frame ends it. -/
theorem Frame.countP {l : List α} (h : Frame ends l) : l.countP ends = 1 := by
  obtain ⟨before, last, rfl, hlast, hbefore⟩ := h
  have hzero : before.countP ends = 0 := by
    rw [List.countP_eq_zero]
    intro x hx
    simp [hbefore x hx]
  rw [List.countP_append, hzero, List.countP_singleton, hlast]
  rfl

/-- A stream of frames has as many ends as frames. -/
theorem countP_flatten {frames : List (List α)} (hframes : ∀ frame ∈ frames, Frame ends frame) :
    frames.flatten.countP ends = frames.length := by
  induction frames with
  | nil => rfl
  | cons frame frames ih =>
    have hfirst := (hframes frame List.mem_cons_self).countP
    have hrest := ih fun x hx => hframes x (List.mem_cons_of_mem frame hx)
    rw [List.flatten_cons, List.countP_append, hfirst, hrest, List.length_cons, Nat.add_comm]

/-- A stream of frames is used up once all their ends were seen. -/
theorem countP_eq_length_iff {frames : List (List α)} (hframes : ∀ frame ∈ frames, Frame ends frame) {l rest : List α}
    (h : l ++ rest = frames.flatten) : l.countP ends = frames.length ↔ rest = [] := by
  have hcount := countP_flatten hframes
  rw [← h, List.countP_append] at hcount
  constructor
  · intro hall
    cases rest using List.reverseRecOn with
    | nil => rfl
    | append_singleton rest x _ =>
      -- the last element of the stream ends its last frame
      cases frames using List.reverseRecOn with
      | nil => simp at h
      | append_singleton frames frame _ =>
        obtain ⟨before, last, rfl, hlast, -⟩ := hframes frame (List.mem_append_right _ (List.mem_singleton_self _))
        rw [List.flatten_append, List.flatten_singleton, ← List.append_assoc, ← List.append_assoc] at h
        have hx : x = last := List.singleton_inj.mp (List.append_inj_right' h rfl)
        rw [List.countP_append, List.countP_singleton, hx, hlast, if_pos rfl] at hcount
        omega
  · intro hrest
    simpa [hrest] using hcount

/-- A frame is not a proper prefix of another one. -/
theorem Frame.eq_of_isPrefix {a b : List α} (ha : Frame ends a) (hb : Frame ends b) (h : a <+: b) : a = b := by
  obtain ⟨more, rfl⟩ := h
  have hcount := hb.countP
  rw [List.countP_append, ha.countP] at hcount
  cases more using List.reverseRecOn with
  | nil => rw [List.append_nil]
  | append_singleton more x _ =>
    obtain ⟨before, last, heq, hlast, -⟩ := hb
    rw [← List.append_assoc] at heq
    have hx : x = last := List.singleton_inj.mp (List.append_inj_right' heq rfl)
    rw [List.countP_append, List.countP_singleton, hx, hlast] at hcount
    simp at hcount

/-- Two frames at the beginning of one stream are equal. -/
theorem Frame.eq_of_append {a b x y : List α} (ha : Frame ends a) (hb : Frame ends b)
    (h : a ++ x = b ++ y) : a = b := by
  rcases List.prefix_or_prefix_of_prefix ⟨x, rfl⟩ ⟨y, h.symm⟩ with hab | hba
  · exact ha.eq_of_isPrefix hb hab
  · exact (hb.eq_of_isPrefix ha hba).symm

/-- The frames of a stream that was cut into frames are those it was put together from, and the
rest of it is what is left of them. -/
theorem isPrefix_of_flatten {as bs : List (List α)} {rest : List α} (has : ∀ a ∈ as, Frame ends a)
    (hbs : ∀ b ∈ bs, Frame ends b) (h : as.flatten ++ rest <+: bs.flatten) :
    as <+: bs ∧ rest <+: (bs.drop as.length).flatten := by
  induction as generalizing bs with
  | nil => exact ⟨List.nil_prefix, by simpa using h⟩
  | cons a as ih =>
    have ha := has a List.mem_cons_self
    cases bs with
    | nil =>
      have hnil := List.prefix_nil.mp h
      simp [ha.ne_nil] at hnil
    | cons b bs =>
      have hb := hbs b List.mem_cons_self
      have hab : a = b := by
        obtain ⟨more, hmore⟩ := h
        rw [List.flatten_cons, List.flatten_cons, List.append_assoc, List.append_assoc] at hmore
        exact ha.eq_of_append hb hmore
      subst hab
      rw [List.flatten_cons, List.flatten_cons, List.append_assoc, List.prefix_append_right_inj] at h
      obtain ⟨hfirst, hrest⟩ := ih (fun x hx => has x (List.mem_cons_of_mem a hx))
        (fun x hx => hbs x (List.mem_cons_of_mem a hx)) h
      exact ⟨List.cons_prefix_cons.mpr ⟨rfl, hfirst⟩, by simpa using hrest⟩

/-- A frame, whole or begun, at the beginning of a stream of frames is that of the first one. -/
theorem isPrefix_head {rest b : List α} {bs : List (List α)} (hrest : Frame ends rest ∨ Open ends rest)
    (hb : Frame ends b) (h : rest <+: (b :: bs).flatten) : rest <+: b := by
  rw [List.flatten_cons] at h
  rcases hrest with hframe | hopen
  · obtain ⟨more, hmore⟩ := h
    exact hframe.eq_of_append hb hmore ▸ List.prefix_rfl
  · rcases List.prefix_or_prefix_of_prefix h (List.prefix_append b _) with hshort | hlong
    · exact hshort
    · obtain ⟨more, rfl⟩ := hlong
      exact absurd (fun x hx => hopen x (List.mem_append_left more hx)) hb.not_open

/-- The elements after the last one that ends a frame. -/
def sinceEnd (ends : α → Bool) (l : List α) : List α := (l.reverse.takeWhile fun x => !ends x).reverse

/-- One more element continues the frame that has begun, or ends it. -/
theorem sinceEnd_append_singleton (l : List α) (x : α) :
    sinceEnd ends (l ++ [x]) = if ends x then [] else sinceEnd ends l ++ [x] := by
  rw [sinceEnd, List.reverse_append, List.reverse_singleton, List.singleton_append, List.takeWhile_cons]
  cases ends x <;> simp [sinceEnd]

/-- What follows the last end is the beginning of a frame. -/
theorem open_sinceEnd (l : List α) : Open ends (sinceEnd ends l) := by
  intro x hx
  rw [sinceEnd, List.mem_reverse] at hx
  simpa using List.all_eq_true.mp List.all_takeWhile x hx

/-- A list is the frames that have ended and what follows them. -/
theorem exists_flatten_append (ends : α → Bool) (l : List α) : ∃ frames : List (List α),
    l = frames.flatten ++ sinceEnd ends l ∧ (∀ frame ∈ frames, Frame ends frame) ∧ frames.length = l.countP ends := by
  induction l using List.reverseRecOn with
  | nil => exact ⟨[], rfl, fun _ h => absurd h List.not_mem_nil, rfl⟩
  | append_singleton l x ih =>
    obtain ⟨frames, hl, hframes, hlength⟩ := ih
    rw [sinceEnd_append_singleton, List.countP_append, List.countP_singleton]
    cases hx : ends x with
    | false =>
      refine ⟨frames, ?_, hframes, by simpa using hlength⟩
      rw [if_neg Bool.false_ne_true, ← List.append_assoc, ← hl]
    | true =>
      refine ⟨frames ++ [sinceEnd ends l ++ [x]], ?_, ?_, ?_⟩
      · rw [if_pos rfl, List.append_nil, List.flatten_append, List.flatten_singleton, ← List.append_assoc, ← hl]
      · intro frame hframe
        rcases List.mem_append.mp hframe with hold | hnew
        · exact hframes frame hold
        · rw [List.mem_singleton.mp hnew]
          exact ⟨sinceEnd ends l, x, rfl, hx, open_sinceEnd l⟩
      · rw [List.length_append, hlength]
        rfl

/-- The next element of a stream of frames goes on with the frame whose turn it is. -/
theorem isPrefix_next {l : List α} {x : α} {frames : List (List α)} (hframes : ∀ frame ∈ frames, Frame ends frame)
    (h : l ++ [x] <+: frames.flatten) :
    ∃ frame, frames[l.countP ends]? = some frame ∧ sinceEnd ends l ++ [x] <+: frame := by
  obtain ⟨ended, hl, hended, hlength⟩ := exists_flatten_append ends l
  have hsplit : ended.flatten ++ (sinceEnd ends l ++ [x]) <+: frames.flatten := by
    rwa [← List.append_assoc, ← hl]
  obtain ⟨-, hrest⟩ := isPrefix_of_flatten hended hframes hsplit
  rw [hlength] at hrest
  have hlt : l.countP ends < frames.length := by
    by_contra hge
    rw [List.drop_eq_nil_of_le (Nat.le_of_not_lt hge), List.flatten_nil, List.prefix_nil] at hrest
    simp at hrest
  refine ⟨frames[l.countP ends], List.getElem?_eq_getElem hlt, ?_⟩
  rw [List.drop_eq_getElem_cons hlt] at hrest
  refine isPrefix_head ?_ (hframes _ (List.getElem_mem hlt)) hrest
  cases hx : ends x with
  | true => exact Or.inl ⟨sinceEnd ends l, x, rfl, hx, open_sinceEnd l⟩
  | false =>
    refine Or.inr fun y hy => ?_
    rcases List.mem_append.mp hy with hy | hy
    · exact open_sinceEnd l y hy
    · rw [List.mem_singleton.mp hy, hx]

end Framing
