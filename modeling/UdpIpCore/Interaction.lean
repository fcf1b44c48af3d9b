import Mathlib.Data.List.Basic

/-!
# Programs that interact with a device

A program returns or performs a command and continues with the response. What a command
does is given by a relation on the states of the environment, so one program can be read
against any device. `Safe` is the proof rule: it asks that an invariant holds after every
single command and a postcondition when the program returns.
-/

namespace Interaction

variable {C : Type} {R : C → Type} {S α β : Type}

/-- A program over commands `C` with responses `R`. -/
inductive Program (C : Type) (R : C → Type) (α : Type)
  | done (result : α)
  | perform (c : C) (next : R c → Program C R α)

namespace Program

/-- Continue with `f` once the program has returned. -/
def bind (p : Program C R α) (f : α → Program C R β) : Program C R β :=
  match p with
  | done a => f a
  | perform c next => perform c fun r => (next r).bind f

instance : Monad (Program C R) where
  pure := done
  bind := bind

/-- The program that performs one command and returns its response. -/
def command (c : C) : Program C R (R c) := perform c done

/-- Run the body for each item in order. -/
def forEach (items : List β) (body : β → Program C R Unit) : Program C R Unit :=
  match items with
  | [] => done ()
  | b :: rest => (body b).bind fun _ => forEach rest body

/-- A program has returned. -/
def isDone : Program C R α → Bool
  | done _ => true
  | perform _ _ => false

/-- Run the program from `s`, every command executed at once. -/
def eval (execute : S → (c : C) → R c × S) : Program C R α → S → α × S
  | done a, s => (a, s)
  | perform c next, s => (next (execute s c).1).eval execute (execute s c).2

/-- A returned result is the result of the run. -/
@[simp] theorem eval_pure (execute : S → (c : C) → R c × S) (a : α) (s : S) :
    (Pure.pure a : Program C R α).eval execute s = (a, s) := rfl

/-- A single command is executed once. -/
@[simp] theorem eval_command (execute : S → (c : C) → R c × S) (c : C) (s : S) :
    (command c).eval execute s = execute s c := rfl

/-- The second program runs from where the first one has returned. -/
@[simp] theorem eval_bind (execute : S → (c : C) → R c × S) (p : Program C R α) (f : α → Program C R β)
    (s : S) : (p >>= f).eval execute s = (f (p.eval execute s).1).eval execute (p.eval execute s).2 := by
  induction p generalizing s with
  | done a => rfl
  | perform c next ih => exact ih (execute s c).1 (execute s c).2

/-- Sequencing is associative. -/
theorem bind_assoc {γ : Type} (p : Program C R α) (f : α → Program C R β) (g : β → Program C R γ) :
    (p >>= f) >>= g = p >>= fun a => f a >>= g := by
  induction p with
  | done a => rfl
  | perform c next ih => exact congrArg (perform c) (funext ih)

/-- From `s`, the invariant holds after each command, and `post` when the program returns. -/
inductive Safe (responds : S → (c : C) → R c → S → Prop) (inv : S → Prop) (post : α → S → Prop) :
    Program C R α → S → Prop
  | done {a : α} {s : S} (hpost : post a s) : Safe responds inv post (done a) s
  | perform {c : C} {next : R c → Program C R α} {s : S}
      (hinv : ∀ r s', responds s c r s' → inv s')
      (hnext : ∀ r s', responds s c r s' → Safe responds inv post (next r) s') :
      Safe responds inv post (perform c next) s

variable {responds : S → (c : C) → R c → S → Prop} {inv : S → Prop}

/-- A returned result. -/
theorem Safe.pure {a : α} {post : α → S → Prop} {s : S} (hpost : post a s) :
    (Pure.pure a : Program C R α).Safe responds inv post s := .done hpost

/-- A weaker postcondition is met as well. -/
theorem Safe.mono {p : Program C R α} {post post' : α → S → Prop} {s : S}
    (h : p.Safe responds inv post s) (hpost : ∀ a s, post a s → post' a s) :
    p.Safe responds inv post' s := by
  induction h with
  | done hdone => exact .done (hpost _ _ hdone)
  | perform hinv _ ih => exact .perform hinv ih

/-- Sequencing: the postcondition of the first part is the precondition of the second. -/
theorem Safe.bind {p : Program C R α} {f : α → Program C R β} {post : β → S → Prop} {s : S}
    (h : p.Safe responds inv (fun a s => (f a).Safe responds inv post s) s) :
    (p >>= f).Safe responds inv post s := by
  induction h with
  | done hdone => exact hdone
  | perform hinv _ ih => exact .perform hinv ih

/-- A single command. -/
theorem Safe.command {c : C} {post : R c → S → Prop} {s : S}
    (h : ∀ r s', responds s c r s' → inv s' ∧ post r s') :
    (Program.command c).Safe responds inv post s :=
  .perform (fun r s' hr => (h r s' hr).1) fun r s' hr => .done (h r s' hr).2

/-- A loop: `during done` holds once the listed items were processed. -/
theorem Safe.forEach {items : List β} {body : β → Program C R Unit} (during : List β → S → Prop)
    {s : S} (hstart : during [] s)
    (hbody : ∀ done b s, b ∈ items → during done s →
      (body b).Safe responds inv (fun _ => during (done ++ [b])) s) :
    (Program.forEach items body).Safe responds inv (fun _ => during items) s := by
  suffices hgeneral : ∀ rest done s, (∀ b ∈ rest, b ∈ items) → during done s →
      (Program.forEach rest body).Safe responds inv (fun _ => during (done ++ rest)) s by
    simpa using hgeneral items [] s (fun _ hb => hb) hstart
  intro rest
  induction rest with
  | nil =>
    intro done s _ hdone
    exact .done (by simpa using hdone)
  | cons b rest ih =>
    intro done s hsub hdone
    refine Safe.bind ((hbody done b s (hsub b List.mem_cons_self) hdone).mono fun _ s' hs' => ?_)
    have hrest := ih (done ++ [b]) s' (fun x hx => hsub x (List.mem_cons_of_mem _ hx)) hs'
    simpa only [List.append_assoc, List.singleton_append] using hrest

/-- The answers together with the state before each of them. -/
def keeping (responds : S → (c : C) → R c → S → Prop) (q : S × S) (c : C) (r : R c) (q' : S × S) : Prop :=
  q'.1 = q.2 ∧ responds q.2 c r q'.2

/-- Each command of a safe program is performed in a state with the invariant. -/
theorem Safe.keeping {p : Program C R α} {post : α → S → Prop} {rel : S × S → Prop} {before s : S}
    (h : p.Safe responds inv post s) (hinv : inv s)
    (hrel : ∀ c r s s', inv s → responds s c r s' → rel (s, s')) :
    p.Safe (keeping responds) rel (fun a q => inv q.2 ∧ post a q.2) (before, s) := by
  induction h generalizing before with
  | done hdone => exact .done ⟨hinv, hdone⟩
  | @perform c next s hnextInv _ ih =>
    refine .perform (fun r q' hr => ?_) fun r q' hr => ?_
    · obtain ⟨rfl, hr⟩ := hr
      exact hrel c r _ _ hinv hr
    · obtain ⟨b, s'⟩ := q'
      obtain ⟨rfl, hr⟩ := hr
      exact ih r s' hr (hnextInv r s' hr)

/-- A single command with the state before it. -/
theorem Safe.command_keeping {c : C} {before s : S} {rel : S × S → Prop} {post : R c → S × S → Prop}
    (h : ∀ r s', responds s c r s' → rel (s, s') ∧ post r (s, s')) :
    (Program.command c).Safe (Program.keeping responds) rel post (before, s) := by
  refine Safe.command fun r q' hr => ?_
  obtain ⟨hbefore, hr⟩ := hr
  have hq : q' = (s, q'.2) := Prod.ext hbefore rfl
  rw [hq]
  exact h r q'.2 hr

/-- A safe program can be run to its end, if every command can be answered. -/
theorem Safe.completes {p : Program C R α} {post : α → S → Prop} {s : S}
    (h : p.Safe responds inv post s) (reach : S → Program C R α → Prop)
    (hanswer : ∀ s c next, reach s (.perform c next) →
      ∃ r s', responds s c r s' ∧ reach s' (next r)) (hreach : reach s p) :
    ∃ a s', reach s' (.done a) ∧ post a s' := by
  induction h with
  | done hpost => exact ⟨_, _, hreach, hpost⟩
  | @perform c next s _ _ ih =>
    obtain ⟨r, s', hr, hreach'⟩ := hanswer s c next hreach
    exact ih r s' hr hreach'

/-- The program runs from `s` to its return in `s'`; the commands are those it has performed, in order. -/
inductive Trace (responds : S → (c : C) → R c → S → Prop) : Program C R α → S → List C → α → S → Prop
  | done {a : α} {s : S} : Trace responds (done a) s [] a s
  | perform {c : C} {next : R c → Program C R α} {s s' s'' : S} {r : R c} {cs : List C} {a : α}
      (hresponds : responds s c r s') (hnext : Trace responds (next r) s' cs a s'') :
      Trace responds (perform c next) s (c :: cs) a s''

/-- A run of a sequence is a run of its first part followed by one of its second part. -/
theorem Trace.split {p : Program C R α} {f : α → Program C R β} {s s'' : S} {cs : List C} {b : β}
    (h : Trace responds (p >>= f) s cs b s'') : ∃ first second a s', cs = first ++ second ∧
      Trace responds p s first a s' ∧ Trace responds (f a) s' second b s'' := by
  induction p generalizing s cs with
  | done a => exact ⟨[], cs, a, s, rfl, .done, h⟩
  | perform c next ih =>
    cases h with
    | perform hresponds hnext =>
      obtain ⟨first, second, a, s', rfl, hfirst, hsecond⟩ := ih _ hnext
      exact ⟨c :: first, second, a, s', rfl, .perform hresponds hfirst, hsecond⟩

/-- A run that returns at once. -/
theorem Trace.of_pure {a b : α} {s s' : S} {cs : List C} (h : Trace responds (Pure.pure a : Program C R α) s cs b s') :
    cs = [] ∧ b = a ∧ s' = s := by
  cases h with
  | done => exact ⟨rfl, rfl, rfl⟩

/-- A run of a single command. -/
theorem Trace.of_command {c : C} {s s' : S} {cs : List C} {r : R c}
    (h : Trace responds (command c : Program C R (R c)) s cs r s') : cs = [c] ∧ responds s c r s' := by
  cases h with
  | perform hresponds hnext =>
    cases hnext with
    | done => exact ⟨rfl, hresponds⟩

/-- A run that starts with a single command. -/
theorem Trace.split_command {c : C} {f : R c → Program C R β} {s s'' : S} {cs : List C} {b : β}
    (h : Trace responds ((command c : Program C R (R c)) >>= f) s cs b s'') : ∃ rest r s', cs = c :: rest ∧
      responds s c r s' ∧ Trace responds (f r) s' rest b s'' := by
  obtain ⟨first, second, r, s', rfl, hfirst, hsecond⟩ := h.split
  obtain ⟨rfl, hresponds⟩ := hfirst.of_command
  exact ⟨second, r, s', rfl, hresponds, hsecond⟩

/-- A run stays one when more responses are possible. -/
theorem Trace.mono {responds' : S → (c : C) → R c → S → Prop} {p : Program C R α} {s s' : S} {cs : List C} {a : α}
    (h : Trace responds p s cs a s') (hresponds : ∀ s c r s', responds s c r s' → responds' s c r s') :
    Trace responds' p s cs a s' := by
  induction h with
  | done => exact .done
  | perform hr _ ih => exact .perform (hresponds _ _ _ _ hr) ih

/-- In a run of a safe program every command leads to a state with the invariant. -/
theorem Safe.of_trace {p : Program C R α} {post : α → S → Prop} {s s' : S} {cs : List C} {a : α}
    (h : p.Safe responds inv post s) (htrace : Trace responds p s cs a s') :
    post a s' ∧ ∀ c ∈ cs, ∃ s₁ r s₂, responds s₁ c r s₂ ∧ inv s₂ := by
  induction htrace with
  | done =>
    cases h with
    | done hpost => exact ⟨hpost, fun _ hc => absurd hc List.not_mem_nil⟩
  | @perform c next s s₁ s'' r cs a hresponds _ ih =>
    cases h with
    | perform hinv hnext =>
      obtain ⟨hpost, hrest⟩ := ih (hnext r _ hresponds)
      refine ⟨hpost, fun x hx => ?_⟩
      rcases List.mem_cons.mp hx with rfl | hx
      · exact ⟨s, r, s₁, hresponds, hinv r s₁ hresponds⟩
      · exact hrest x hx

/-- The run in which every command is executed at once. -/
theorem exists_trace (execute : S → (c : C) → R c × S) (hresponds : ∀ s c, responds s c (execute s c).1 (execute s c).2)
    (p : Program C R α) (s : S) : ∃ cs, Trace responds p s cs (p.eval execute s).1 (p.eval execute s).2 := by
  induction p generalizing s with
  | done a => exact ⟨[], .done⟩
  | perform c next ih =>
    obtain ⟨cs, hcs⟩ := ih (execute s c).1 (execute s c).2
    exact ⟨c :: cs, .perform (hresponds s c) hcs⟩

section Lift

variable {D : Type} {Q : D → Type} {T : Type}

/-- The same program over commands that include its own. -/
def lift (embed : C → D) (answer : ∀ c, Q (embed c) → R c) : Program C R α → Program D Q α
  | done a => done a
  | perform c next => perform (embed c) fun r => (next (answer c r)).lift embed answer

/-- In a run of a lifted program the part of the state that its commands work on makes a run of the program. -/
theorem Trace.of_lift {embed : C → D} {answer : ∀ c, Q (embed c) → R c} {responds' : T → (d : D) → Q d → T → Prop}
    (view : S → T)
    (hview : ∀ s c r t, responds' (view s) (embed c) r t → ∃ s', t = view s' ∧ responds s c (answer c r) s')
    {p : Program C R α} {s : S} {t : T} {ds : List D} {a : α}
    (h : Trace responds' (p.lift embed answer) (view s) ds a t) :
    ∃ cs s', ds = cs.map embed ∧ t = view s' ∧ Trace responds p s cs a s' := by
  induction p generalizing s ds with
  | done b =>
    obtain ⟨rfl, rfl, rfl⟩ := h.of_pure
    exact ⟨[], s, rfl, rfl, .done⟩
  | perform c next ih =>
    cases h with
    | perform hresponds hnext =>
      obtain ⟨s', rfl, hr⟩ := hview _ _ _ _ hresponds
      obtain ⟨cs, s'', rfl, rfl, hcs⟩ := ih _ hnext
      exact ⟨c :: cs, s'', rfl, rfl, .perform hr hcs⟩

end Lift

end Program

end Interaction
