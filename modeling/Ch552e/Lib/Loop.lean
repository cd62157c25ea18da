import Mathlib.Data.Fintype.Pigeonhole
import Mathlib.Data.Option.Basic
import Mathlib.Logic.Function.Iterate

/-!
# Loops on fuel

A `while` loop is given by its iteration, `body : σ → Bool × σ`: the state
after one turn and whether another turn follows. `loop body n s` runs it for
at most `n` turns and answers `none` when they do not suffice.

The rules are the ones a program logic has for `while`: `loop_inv` is partial
correctness, `loop_bound` total correctness, and `loop_rel` runs two loops in
lockstep.

`loop_exact` says when fuel costs nothing. If the part of the state that
decides the control flow is finite, a run that lasts longer than that part has
values repeats one of them, and then it never ends. So on that much fuel
`none` means divergence, and the loop's answer is the loop's meaning.
-/

namespace Ch552e.Lib

universe u v w

variable {σ : Type u} {τ : Type v}

/-- At most `n` turns of a loop. -/
def loop (body : σ → Bool × σ) : Nat → σ → Option σ
  | 0, _ => none
  | n + 1, s =>
      match body s with
      | (true, s') => loop body n s'
      | (false, s') => some s'

theorem loop_succ_of_continue {body : σ → Bool × σ} {s s' : σ} (n : Nat)
    (h : body s = (true, s')) : loop body (n + 1) s = loop body n s' := by
  rw [loop, h]

theorem loop_succ_of_exit {body : σ → Bool × σ} {s s' : σ} (n : Nat)
    (h : body s = (false, s')) : loop body (n + 1) s = some s' := by
  rw [loop, h]

theorem loop_mono {body : σ → Bool × σ} {n m : Nat} {s r : σ}
    (h : loop body n s = some r) (hle : n ≤ m) : loop body m s = some r := by
  induction n generalizing m s with
  | zero => exact absurd h (by simp [loop])
  | succ n ih =>
      obtain ⟨k, rfl⟩ : ∃ k, m = k + 1 := ⟨m - 1, by omega⟩
      match hb : body s with
      | (true, s') =>
          rw [loop_succ_of_continue n hb] at h
          rw [loop_succ_of_continue k hb]
          exact ih h (by omega)
      | (false, s') =>
          rw [loop_succ_of_exit n hb] at h
          rw [loop_succ_of_exit k hb]
          exact h

/-- Partial correctness: an invariant of the turns that go on, and what the
last turn makes of it. -/
theorem loop_inv {body : σ → Bool × σ} {I Q : σ → Prop}
    (again : ∀ s s', I s → body s = (true, s') → I s')
    (exit : ∀ s s', I s → body s = (false, s') → Q s') {n : Nat} {s r : σ}
    (hs : I s) (h : loop body n s = some r) : Q r := by
  induction n generalizing s with
  | zero => exact absurd h (by simp [loop])
  | succ n ih =>
      match hb : body s with
      | (true, s') =>
          rw [loop_succ_of_continue n hb] at h
          exact ih (again s s' hs hb) h
      | (false, s') =>
          rw [loop_succ_of_exit n hb, Option.some.injEq] at h
          exact h ▸ exit s s' hs hb

/-- Partial correctness where every turn, the last one too, keeps the same
property. -/
theorem loop_keeps {body : σ → Bool × σ} {I : σ → Prop}
    (turn : ∀ s, I s → I (body s).2) {n : Nat} {s r : σ} (hs : I s)
    (h : loop body n s = some r) : I r := by
  have hkeep : ∀ b s s', I s → body s = (b, s') → I s' := by
    intro b s s' hI hb
    have hnext := turn s hI
    rwa [hb] at hnext
  exact loop_inv (hkeep true) (hkeep false) hs h

/-- Total correctness: a number that every turn which goes on lowers is fuel
enough, and the last turn delivers the result. -/
theorem loop_bound {body : σ → Bool × σ} {I : Nat → σ → Prop} {Q : σ → Prop}
    (again : ∀ k s s', I k s → body s = (true, s') → ∃ k' < k, I k' s')
    (exit : ∀ k s s', I k s → body s = (false, s') → Q s') {n k : Nat} {s : σ}
    (hs : I k s) (hn : k < n) : ∃ r, loop body n s = some r ∧ Q r := by
  induction n generalizing k s with
  | zero => exact absurd hn (by omega)
  | succ n ih =>
      match hb : body s with
      | (true, s') =>
          rw [loop_succ_of_continue n hb]
          obtain ⟨k', hk', hs'⟩ := again k s s' hs hb
          exact ih hs' (by omega)
      | (false, s') =>
          rw [loop_succ_of_exit n hb]
          exact ⟨s', rfl, exit k s s' hs hb⟩

/-- Two loops in lockstep: turns that relate again and agree on whether to go
on give the same verdict and related results. -/
theorem loop_rel {b₁ : σ → Bool × σ} {b₂ : τ → Bool × τ} {R : σ → τ → Prop}
    (turn : ∀ s t, R s t → (b₁ s).1 = (b₂ t).1 ∧ R (b₁ s).2 (b₂ t).2)
    (n : Nat) {s : σ} {t : τ} (h : R s t) :
    Option.Rel R (loop b₁ n s) (loop b₂ n t) := by
  induction n generalizing s t with
  | zero => exact .none
  | succ n ih =>
      obtain ⟨hflag, hrel⟩ := turn s t h
      match hb : b₁ s, hc : b₂ t with
      | (true, s'), (true, t') =>
          rw [loop_succ_of_continue n hb, loop_succ_of_continue n hc]
          rw [hb, hc] at hrel
          exact ih hrel
      | (false, s'), (false, t') =>
          rw [loop_succ_of_exit n hb, loop_succ_of_exit n hc]
          rw [hb, hc] at hrel
          exact .some hrel
      | (true, _), (false, _) | (false, _), (true, _) =>
          rw [hb, hc] at hflag
          exact absurd hflag (by simp)

/-! ## When the fuel is exact -/

def orbit (body : σ → Bool × σ) (n : Nat) (s : σ) : σ :=
  (fun x => (body x).2)^[n] s

theorem orbit_succ (body : σ → Bool × σ) (n : Nat) (s : σ) :
    orbit body (n + 1) s = orbit body n (body s).2 := rfl

/-- What every turn keeps holds at the start of each. -/
theorem orbit_keeps {body : σ → Bool × σ} {I : σ → Prop}
    (turn : ∀ s, I s → I (body s).2) (n : Nat) {s : σ} (hs : I s) :
    I (orbit body n s) := by
  induction n generalizing s with
  | zero => exact hs
  | succ n ih =>
      rw [orbit_succ]
      exact ih (turn s hs)

theorem loop_eq_none_iff {body : σ → Bool × σ} {n : Nat} {s : σ} :
    loop body n s = none ↔ ∀ i < n, (body (orbit body i s)).1 = true := by
  induction n generalizing s with
  | zero => simp [loop]
  | succ n ih =>
      match hb : body s with
      | (true, s') =>
          rw [loop_succ_of_continue n hb, ih]
          have hshift : ∀ i, orbit body i s' = orbit body (i + 1) s := by
            intro i
            rw [orbit_succ, hb]
          constructor
          · intro h i hi
            cases i with
            | zero => exact congrArg Prod.fst hb
            | succ i => rw [← hshift]; exact h i (by omega)
          · intro h i hi
            rw [hshift]
            exact h (i + 1) (by omega)
      | (false, s') =>
          rw [loop_succ_of_exit n hb]
          constructor
          · intro h
            exact absurd h (by simp)
          · intro h
            have h0 := h 0 (by omega)
            rw [show orbit body 0 s = s from rfl, hb] at h0
            exact absurd h0 (by simp)

/-- A loop whose control flow depends on a finite key either ends within as
many turns as the key has values, or never. -/
theorem loop_exact {κ : Type w} [Fintype κ] {body : σ → Bool × σ} (key : σ → κ)
    (hkey : ∀ s t, key s = key t →
      (body s).1 = (body t).1 ∧ key (body s).2 = key (body t).2)
    {n : Nat} (hn : Fintype.card κ ≤ n) {s : σ} (h : loop body n s = none)
    (m : Nat) : loop body m s = none := by
  rw [loop_eq_none_iff] at h ⊢
  have hcard : Fintype.card κ < Fintype.card (Fin (n + 1)) := by
    rw [Fintype.card_fin]
    omega
  obtain ⟨a, b, hab, hrep⟩ : ∃ a b, a < b ∧ b ≤ n ∧
      key (orbit body a s) = key (orbit body b s) := by
    obtain ⟨x, y, hne, hxy⟩ := Fintype.exists_ne_map_eq_of_card_lt
      (fun i : Fin (n + 1) => key (orbit body i s)) hcard
    rcases Nat.lt_or_gt_of_ne (fun hv => hne (Fin.ext hv)) with hlt | hgt
    · exact ⟨x, y, hlt, by omega, hxy⟩
    · exact ⟨y, x, hgt, by omega, hxy.symm⟩
  -- from the repeated key on, the two tails of the run make the same choices
  have htail : ∀ d, key (orbit body (a + d) s) = key (orbit body (b + d) s) := by
    intro d
    induction d with
    | zero => exact hrep.2
    | succ d ih =>
        have hnext : ∀ c, orbit body (c + (d + 1)) s =
            (body (orbit body (c + d) s)).2 := by
          intro c
          exact Function.iterate_succ_apply' _ (c + d) s
        rw [hnext, hnext]
        exact (hkey _ _ ih).2
  have hforever : ∀ i, (body (orbit body i s)).1 = true := by
    intro i
    induction i using Nat.strong_induction_on with
    | _ i ih =>
        by_cases hi : i < b
        · exact h i (by omega)
        · have hflag := (hkey _ _ (htail (i - b))).1
          rw [show b + (i - b) = i by omega] at hflag
          rw [← hflag]
          exact ih _ (by omega)
  exact fun i _ => hforever i

end Ch552e.Lib
