import Ch552e.Lib.Run

/-!
# Simulation and progress

Two rules for a machine that is made of others.

`runs_simulates`: where every step of one machine is answered by some steps of
another, possibly none, every run of the first is answered by a run of the
second. An event of the whole that concerns one part is no event of the other.

`tally` counts the events of a run that a predicate picks. `tally_balance` is for
a difference that exactly these events raise. `tally_le` and `runs_settle` are for a
rank that they lower and no other event raises: the first bounds their number in
any run, in any order; the second says that a machine which can lower the rank as
long as it is not 0 can get it to 0. `length_le` is for a rank that every event
lowers.
-/

namespace Ch552e.Lib

universe u v w x

variable {σ : Type u} {τ : Type v} {ε : Type w} {φ : Type x}

theorem runs_single {step : σ → ε → Option σ} {s s' : σ} {e : ε}
    (h : step s e = some s') : runs step s [e] = some s' := by
  rw [runs_cons, h]
  rfl

theorem guarded_of {ok : σ → ε → Bool} {step : σ → ε → Option σ} {s s' : σ}
    {e : ε} (hok : ok s e = true) (h : step s e = some s') :
    guarded ok step s e = some s' := by
  rw [guarded, if_pos hok]
  exact h

theorem runs_simulates {step : σ → ε → Option σ} {part : τ → φ → Option τ}
    {R : σ → τ → Prop}
    (next : ∀ s e s' t, R s t → step s e = some s' →
      ∃ fs t', runs part t fs = some t' ∧ R s' t')
    {s s' : σ} {t : τ} {es : List ε} (hst : R s t)
    (h : runs step s es = some s') :
    ∃ fs t', runs part t fs = some t' ∧ R s' t' := by
  induction es generalizing s t with
  | nil =>
      rw [runs_nil, Option.some.injEq] at h
      exact ⟨[], t, rfl, h ▸ hst⟩
  | cons e es ih =>
      rw [runs_cons] at h
      obtain ⟨m, hstep, hrest⟩ := Option.bind_eq_some_iff.mp h
      obtain ⟨fs, n, hn, hmn⟩ := next s e m t hst hstep
      obtain ⟨gs, t', ht', hs't'⟩ := ih hmn hrest
      refine ⟨fs ++ gs, t', ?_, hs't'⟩
      rw [runs_append, hn]
      exact ht'

/-- What an environment under an assumption makes of a machine, any environment
may. -/
theorem runs_of_guarded {ok : σ → ε → Bool} {step : σ → ε → Option σ} {s s' : σ}
    {es : List ε} (h : runs (guarded ok step) s es = some s') :
    runs step s es = some s' := by
  induction es generalizing s with
  | nil => exact h
  | cons e es ih =>
      rw [runs_cons] at h ⊢
      obtain ⟨m, hstep, hrest⟩ := Option.bind_eq_some_iff.mp h
      rw [(guarded_eq_some hstep).2]
      exact ih hrest

theorem runs_weaken {ok ok' : σ → ε → Bool} {step : σ → ε → Option σ}
    (hok : ∀ s e, ok s e = true → ok' s e = true) {s s' : σ} {es : List ε}
    (h : runs (guarded ok step) s es = some s') :
    runs (guarded ok' step) s es = some s' := by
  induction es generalizing s with
  | nil => exact h
  | cons e es ih =>
      rw [runs_cons] at h ⊢
      obtain ⟨m, hstep, hrest⟩ := Option.bind_eq_some_iff.mp h
      obtain ⟨hallowed, hstep⟩ := guarded_eq_some hstep
      rw [guarded_of (hok s e hallowed) hstep]
      exact ih hrest

/-- A part of the state that follows its own rules. -/
theorem runs_part {step : σ → ε → Option σ} {part : τ → φ → Option τ}
    (view : σ → τ)
    (next : ∀ s e s', step s e = some s' →
      ∃ fs, runs part (view s) fs = some (view s'))
    {s s' : σ} {es : List ε} (h : runs step s es = some s') :
    ∃ fs, runs part (view s) fs = some (view s') := by
  obtain ⟨fs, t', ht', rfl⟩ :=
    runs_simulates (R := fun s t => t = view s)
      (fun s e s' t ht hstep => by
        obtain ⟨fs, hfs⟩ := next s e s' hstep
        exact ⟨fs, _, ht ▸ hfs, rfl⟩)
      rfl h
  exact ⟨fs, ht'⟩

/-! ## Steps that are related -/

theorem rel_refl {R : σ → σ → Prop} (h : ∀ s, R s s) (a : Option σ) :
    Option.Rel R a a := by
  cases a with
  | none => exact .none
  | some s => exact .some (h s)

theorem rel_trans {ρ : Type x} {R : σ → τ → Prop} {S : τ → ρ → Prop}
    {Q : σ → ρ → Prop} (h : ∀ s t r, R s t → S t r → Q s r) {a : Option σ}
    {b : Option τ} {c : Option ρ} (hab : Option.Rel R a b) (hbc : Option.Rel S b c) :
    Option.Rel Q a c := by
  cases hab with
  | none =>
      cases hbc
      exact .none
  | some hst =>
      cases hbc with
      | some htr => exact .some (h _ _ _ hst htr)

theorem rel_swap {R : σ → τ → Prop} {a : Option σ} {b : Option τ}
    (h : Option.Rel R a b) : Option.Rel (fun t s => R s t) b a := by
  cases h with
  | none => exact .none
  | some hst => exact .some hst

theorem rel_map_left {R : τ → σ → Prop} {f : σ → τ} {a : Option σ}
    (h : ∀ s, a = some s → R (f s) s) : Option.Rel R (a.map f) a := by
  cases a with
  | none => exact .none
  | some s => exact .some (h s rfl)

theorem rel_map_self {ρ : Type x} {R : τ → ρ → Prop} {f : σ → τ} {g : σ → ρ}
    {a : Option σ} (h : ∀ s, a = some s → R (f s) (g s)) :
    Option.Rel R (a.map f) (a.map g) := by
  cases a with
  | none => exact .none
  | some s => exact .some (h s rfl)

theorem rel_of_map {ρ : Type x} {R : τ → ρ → Prop} {f : σ → τ} {g : ε → ρ}
    {a : Option σ} {b : Option ε} (h : Option.Rel R (a.map f) (b.map g)) :
    Option.Rel (fun s t => R (f s) (g t)) a b := by
  cases a with
  | none =>
      cases b with
      | none => exact .none
      | some _ => cases h
  | some _ =>
      cases b with
      | none => cases h
      | some _ =>
          cases h with
          | some hst => exact .some hst

theorem rel_left {R : σ → τ → Prop} {a : Option σ} {b : Option τ} {s : σ}
    (h : Option.Rel R a b) (hs : a = some s) : ∃ t, b = some t ∧ R s t := by
  subst hs
  cases h with
  | some hst => exact ⟨_, rfl, hst⟩

/-- What is seen of related states, where that is the same. -/
theorem map_eq_of_rel {ρ : Type x} {R : σ → τ → Prop} {f : σ → ρ} {g : τ → ρ}
    {a : Option σ} {b : Option τ} (h : Option.Rel R a b)
    (hfg : ∀ s t, R s t → f s = g t) : a.map f = b.map g := by
  cases h with
  | none => rfl
  | some hst => exact congrArg some (hfg _ _ hst)

theorem guarded_rel {ok : σ → ε → Bool} {ok' : τ → ε → Bool}
    {step : σ → ε → Option σ} {step' : τ → ε → Option τ} {R : σ → τ → Prop} {s : σ}
    {t : τ} {e : ε} (hok : ok s e = ok' t e)
    (h : Option.Rel R (step s e) (step' t e)) :
    Option.Rel R (guarded ok step s e) (guarded ok' step' t e) := by
  rw [guarded, guarded, hok]
  split
  · exact h
  · exact .none

/-- What is known of a step that is related to another holds next to the
relation. -/
theorem rel_and {R : σ → τ → Prop} {P : σ → Prop} {Q : τ → Prop} {a : Option σ}
    {b : Option τ} (h : Option.Rel R a b) (hP : ∀ s, a = some s → P s)
    (hQ : ∀ t, b = some t → Q t) :
    Option.Rel (fun s t => R s t ∧ P s ∧ Q t) a b := by
  cases h with
  | none => exact .none
  | some hst => exact .some ⟨hst, hP _ rfl, hQ _ rfl⟩

/-! ## Counting -/

/-- How many events of a run `pick` picks. -/
def tally (step : σ → ε → Option σ) (pick : σ → ε → Bool) :
    σ → List ε → Nat
  | _, [] => 0
  | s, e :: es =>
      (if pick s e then 1 else 0) +
        (step s e).elim 0 fun s' => tally step pick s' es

/-- A balance: the total outgrows the part by one with each event picked. -/
theorem tally_balance {step : σ → ε → Option σ} (pick : σ → ε → Bool)
    (total part : σ → Nat)
    (next : ∀ s e s', step s e = some s' →
      total s' + part s = total s + part s' + if pick s e then 1 else 0)
    {s s' : σ} {es : List ε} (h : runs step s es = some s') :
    total s' + part s = total s + part s' + tally step pick s es := by
  induction es generalizing s with
  | nil =>
      rw [runs_nil, Option.some.injEq] at h
      exact h ▸ rfl
  | cons e es ih =>
      rw [runs_cons] at h
      obtain ⟨m, hstep, hrest⟩ := Option.bind_eq_some_iff.mp h
      have hfirst := next s e m hstep
      have hmore := ih hrest
      rw [tally, hstep, Option.elim_some]
      omega

theorem tally_le {step : σ → ε → Option σ} (pick : σ → ε → Bool)
    (rank : σ → Nat) {I : σ → Prop}
    (next : ∀ s e s', I s → step s e = some s' →
      I s' ∧ rank s' + (if pick s e then 1 else 0) ≤ rank s)
    {s s' : σ} {es : List ε} (hs : I s) (h : runs step s es = some s') :
    tally step pick s es + rank s' ≤ rank s := by
  induction es generalizing s with
  | nil =>
      rw [runs_nil, Option.some.injEq] at h
      subst h
      exact Nat.le_of_eq (Nat.zero_add _)
  | cons e es ih =>
      rw [runs_cons] at h
      obtain ⟨m, hstep, hrest⟩ := Option.bind_eq_some_iff.mp h
      obtain ⟨hm, hpaid⟩ := next s e m hs hstep
      have hmore := ih hm hrest
      rw [tally, hstep, Option.elim_some]
      omega

/-- Where every event lowers the rank, it bounds the length of a run. -/
theorem length_le {step : σ → ε → Option σ} (rank : σ → Nat) {I : σ → Prop}
    (next : ∀ s e s', I s → step s e = some s' → I s' ∧ rank s' + 1 ≤ rank s)
    {s s' : σ} {es : List ε} (hs : I s) (h : runs step s es = some s') :
    I s' ∧ es.length + rank s' ≤ rank s := by
  induction es generalizing s with
  | nil =>
      rw [runs_nil, Option.some.injEq] at h
      subst h
      exact ⟨hs, Nat.le_of_eq (Nat.zero_add _)⟩
  | cons e es ih =>
      rw [runs_cons] at h
      obtain ⟨m, hstep, hrest⟩ := Option.bind_eq_some_iff.mp h
      obtain ⟨hm, hpaid⟩ := next s e m hs hstep
      obtain ⟨hs', hmore⟩ := ih hm hrest
      refine ⟨hs', ?_⟩
      rw [List.length_cons]
      omega

theorem runs_settle {step : σ → ε → Option σ} {I : σ → Prop} (rank : σ → Nat)
    (next : ∀ s, I s → rank s ≠ 0 →
      ∃ e s', step s e = some s' ∧ I s' ∧ rank s' < rank s)
    {s : σ} (hs : I s) :
    ∃ es s', runs step s es = some s' ∧ I s' ∧ rank s' = 0 := by
  by_cases hzero : rank s = 0
  · exact ⟨[], s, rfl, hs, hzero⟩
  · obtain ⟨e, m, hstep, hm, hlt⟩ := next s hs hzero
    obtain ⟨es, s', hrun, hs', hrank⟩ := runs_settle rank next hm
    refine ⟨e :: es, s', ?_, hs', hrank⟩
    rw [runs_cons, hstep]
    exact hrun
termination_by rank s

end Ch552e.Lib
