import UdpIpCore.Interaction

/-!
# Programs under interference

A program whose environment moves between any two of its commands. Its proof outline
gives one assertion for each point of the program where it waits: the assertion survives
every quiet step of the environment, and performing the command from it leads to a point
with an outline of its own.
-/

namespace Interaction

namespace Program

variable {C : Type} {R : C → Type} {S α β : Type}

/-- From `s`, with quiet steps anywhere between the commands, the invariant always holds, and
`post` from the return on. -/
inductive Outline (quiet : S → S → Prop) (responds : S → (c : C) → R c → S → Prop) (inv : S → Prop)
    (post : α → S → Prop) : Program C R α → S → Prop
  | done {a : α} {s : S} (during : S → Prop) (hs : during s)
      (hquiet : ∀ s s', during s → quiet s s' → during s')
      (huse : ∀ s, during s → inv s ∧ post a s) : Outline quiet responds inv post (done a) s
  | perform {c : C} {next : R c → Program C R α} {s : S} (during : S → Prop) (hs : during s)
      (hquiet : ∀ s s', during s → quiet s s' → during s') (huse : ∀ s, during s → inv s)
      (hnext : ∀ s r s', during s → responds s c r s' → Outline quiet responds inv post (next r) s') :
      Outline quiet responds inv post (perform c next) s

namespace Outline

variable {quiet : S → S → Prop} {responds : S → (c : C) → R c → S → Prop} {inv : S → Prop}
  {post : α → S → Prop} {s : S}

/-- A quiet step stays at the same point of the program. -/
theorem quiet_step {p : Program C R α} {s' : S} (h : p.Outline quiet responds inv post s)
    (hquiet : quiet s s') : p.Outline quiet responds inv post s' := by
  cases h with
  | done during hs hstable huse => exact .done during (hstable s s' hs hquiet) hstable huse
  | perform during hs hstable huse hnext => exact .perform during (hstable s s' hs hquiet) hstable huse hnext

/-- The invariant holds at every point. -/
theorem invariant {p : Program C R α} (h : p.Outline quiet responds inv post s) : inv s := by
  cases h with
  | done during hs _ huse => exact (huse s hs).1
  | perform during hs _ huse _ => exact huse s hs

/-- After the return the postcondition holds. -/
theorem result {a : α} (h : (Program.done a : Program C R α).Outline quiet responds inv post s) :
    post a s := by
  cases h with
  | done during hs _ huse => exact (huse s hs).2

/-- Performing the command leads to the next point. -/
theorem performed {c : C} {next : R c → Program C R α} {r : R c} {s' : S}
    (h : (Program.perform c next).Outline quiet responds inv post s) (hr : responds s c r s') :
    (next r).Outline quiet responds inv post s' := by
  cases h with
  | perform during hs _ _ hnext => exact hnext s r s' hs hr

/-- A weaker postcondition is met as well. -/
theorem mono {p : Program C R α} {post' : α → S → Prop} (h : p.Outline quiet responds inv post s)
    (hpost : ∀ a s, post a s → post' a s) : p.Outline quiet responds inv post' s := by
  induction h with
  | done during hs hquiet huse =>
    exact .done during hs hquiet fun s hs => ⟨(huse s hs).1, hpost _ s (huse s hs).2⟩
  | perform during hs hquiet huse _ ih => exact .perform during hs hquiet huse ih

/-- Sequencing: at the return of the first part the second one can start. -/
theorem bind {p : Program C R α} {f : α → Program C R β} {post : β → S → Prop}
    (h : p.Outline quiet responds inv (fun a s => (f a).Outline quiet responds inv post s) s) :
    (p >>= f).Outline quiet responds inv post s := by
  induction h with
  | done during hs _ huse => exact (huse _ hs).2
  | perform during hs hquiet huse _ ih => exact .perform during hs hquiet huse ih

/-- A single command. -/
theorem command {c : C} {post : R c → S → Prop} (during : S → Prop) (after : R c → S → Prop)
    (hs : during s) (hquiet : ∀ s s', during s → quiet s s' → during s')
    (huse : ∀ s, during s → inv s)
    (hresponse : ∀ s r s', during s → responds s c r s' → after r s')
    (hafter : ∀ r s s', after r s → quiet s s' → after r s')
    (hpost : ∀ r s, after r s → inv s ∧ post r s) :
    (Program.command c).Outline quiet responds inv post s :=
  .perform during hs hquiet huse fun s r s' hduring hr =>
    .done (after r) (hresponse s r s' hduring hr) (hafter r) (hpost r)

/-- What every step keeps holds at the return as well. -/
theorem frame {p : Program C R α} (h : p.Outline quiet responds inv post s) (kept : S → Prop) (hs : kept s)
    (hquiet : ∀ s s', kept s → quiet s s' → kept s') (hresponds : ∀ s c r s', kept s → responds s c r s' → kept s') :
    p.Outline quiet responds inv (fun a s => post a s ∧ kept s) s := by
  induction h with
  | done during hduring hstable huse =>
    refine .done (fun s => during s ∧ kept s) ⟨hduring, hs⟩ ?_ ?_
    · exact fun s s' hboth hq => ⟨hstable s s' hboth.1 hq, hquiet s s' hboth.2 hq⟩
    · exact fun s hboth => ⟨(huse s hboth.1).1, (huse s hboth.1).2, hboth.2⟩
  | perform during hduring hstable huse _ ih =>
    refine .perform (fun s => during s ∧ kept s) ⟨hduring, hs⟩ ?_ (fun s hboth => huse s hboth.1) ?_
    · exact fun s s' hboth hq => ⟨hstable s s' hboth.1 hq, hquiet s s' hboth.2 hq⟩
    · exact fun s r s' hboth hr => ih s r s' hboth.1 hr (hresponds s _ r s' hboth.2 hr)

/-- A command that is performed after a quiet step. -/
def afterQuiet (quiet : S → S → Prop) (responds : S → (c : C) → R c → S → Prop) (s : S) (c : C) (r : R c) (s' : S) : Prop :=
  ∃ s₁, quiet s s₁ ∧ responds s₁ c r s'

/-- A program with an outline is safe when its environment moves before each command. -/
theorem safe {p : Program C R α} (h : p.Outline quiet responds inv post s) :
    p.Safe (afterQuiet quiet responds) inv post s := by
  induction h with
  | done during hs _ huse => exact .done (huse _ hs).2
  | perform during hs hquiet _ hnext ih =>
    refine .perform (fun r s' => ?_) fun r s' => ?_
    · rintro ⟨s₁, hmoved, hr⟩
      exact (hnext s₁ r s' (hquiet _ s₁ hs hmoved) hr).invariant
    · rintro ⟨s₁, hmoved, hr⟩
      exact ih s₁ r s' (hquiet _ s₁ hs hmoved) hr

end Outline

end Program

end Interaction
