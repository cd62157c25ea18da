import Ch552e.Lib.Run

/-!
# An instrumented machine beside the plain one

The instrumented machine carries more state and checks more, so it answers in
`Except ε`; the plain one answers in `Option`. `Agrees stop R` says that the
checks are idle: the two give related answers, and the only error is `stop`,
raised exactly where the plain machine has no answer either. Every other error
is then excluded, in one step and, by `agrees_runs`, in a whole run.
-/

namespace Ch552e.Lib

universe u v w x

variable {ε : Type u} {α β γ δ : Type v} {ι : Type x}

@[simp] theorem ok_bind (a : α) (f : α → Except ε γ) :
    (Except.ok a >>= f) = f a := rfl

inductive Agrees (stop : ε) (R : α → β → Prop) : Except ε α → Option β → Prop where
  | stop : Agrees stop R (.error stop) none
  | ok {a : α} {b : β} (h : R a b) : Agrees stop R (.ok a) (some b)

variable {stop : ε} {R : α → β → Prop} {S : γ → δ → Prop} {x : Except ε α}
  {y : Option β}

theorem agrees_of_eq {a : α} {b : β} (hx : x = .ok a) (h : R a b) :
    Agrees stop R x (some b) := hx ▸ .ok h

theorem agrees_bind {f : α → Except ε γ} {g : β → Option δ}
    (h : Agrees stop R x y) (hfg : ∀ a b, R a b → Agrees stop S (f a) (g b)) :
    Agrees stop S (x >>= f) (y.bind g) := by
  cases h with
  | stop => exact .stop
  | ok hab => exact hfg _ _ hab

theorem agrees_map {f : α → Except ε γ} {g : β → δ} (h : Agrees stop R x y)
    (hfg : ∀ a b, R a b → Agrees stop S (f a) (some (g b))) :
    Agrees stop S (x >>= f) (y.map g) := by
  rw [Option.map_eq_bind]
  exact agrees_bind h hfg

/-- The errors other than `stop` do not happen. -/
theorem ne_error_of_agrees {e : ε} (h : Agrees stop R x y) (he : e ≠ stop) :
    x ≠ .error e := by
  cases h with
  | stop =>
      intro heq
      injection heq with heq
      exact he heq.symm
  | ok _ => simp

theorem rel_of_agrees (h : Agrees stop R x y) : Option.Rel R x.toOption y := by
  cases h with
  | stop => exact .none
  | ok hab => exact .some hab

/-- The run rule: what holds between the steps holds between the runs. -/
theorem agrees_runs {step₁ : α → ι → Except ε α} {step₂ : β → ι → Option β}
    (next : ∀ a b i, R a b → Agrees stop R (step₁ a i) (step₂ b i))
    {a : α} {b : β} (h : R a b) (is : List ι) :
    Agrees stop R (is.foldlM step₁ a) (runs step₂ b is) := by
  induction is generalizing a b with
  | nil => exact .ok h
  | cons i is ih =>
      rw [List.foldlM_cons, runs_cons]
      exact agrees_bind (next a b i h) fun a' b' h' => ih h'

end Ch552e.Lib
