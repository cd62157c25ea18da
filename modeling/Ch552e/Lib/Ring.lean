import Mathlib.Data.List.Basic
import Mathlib.Logic.Function.Basic

/-!
# Single-producer, single-consumer rings

A ring of `n` cells keeps two indices: the consumer releases cells at `tail`,
the producer fills the cell at `head` and then publishes it by moving `head`
on. One cell stays free, so the ring is empty when the indices are equal and
full when `head` is one step behind `tail`.

`Holds n buf tail head q` says that the ring stores the queue `q`. Filling a
cell and publishing it are two lemmas, `Holds.store` and `Holds.publish`,
because in an interrupted program they are two steps; so is reading the front
(`Holds.front`) and releasing it (`Holds.release`). Nothing else about indices
is needed by a client: the queue it abstracts to is an ordinary list.
-/

namespace Ch552e.Lib.Ring

universe u

variable {α : Type u}

/-- The queue between two indices: the cells from `tail` up to `head`. -/
def contents (n : Nat) (buf : Nat → α) (tail head : Nat) : List α :=
  (List.range ((head + n - tail) % n)).map fun i => buf ((tail + i) % n)

/-- The ring stores `q`, front first. -/
structure Holds (n : Nat) (buf : Nat → α) (tail head : Nat) (q : List α) :
    Prop where
  tail_lt : tail < n
  room : q.length < n
  head_eq : head = (tail + q.length) % n
  cell : ∀ i (h : i < q.length), buf ((tail + i) % n) = q[i]

/-- An offset within one revolution wraps at most once. -/
theorem wrap {n t k : Nat} (ht : t < n) (hk : k ≤ n) :
    (t + k) % n = if t + k < n then t + k else t + k - n := by
  split
  · next h => exact Nat.mod_eq_of_lt h
  · next h =>
      rw [Nat.mod_eq_sub_mod (by omega)]
      exact Nat.mod_eq_of_lt (by omega)

theorem offset_inj {n t i j : Nat} (ht : t < n) (hi : i < n) (hj : j < n)
    (h : (t + i) % n = (t + j) % n) : i = j := by
  rw [wrap ht (Nat.le_of_lt hi), wrap ht (Nat.le_of_lt hj)] at h
  split at h <;> split at h <;> omega

theorem succ_offset {n t k : Nat} :
    ((t + 1) % n + k) % n = (t + (k + 1)) % n := by
  rw [Nat.mod_add_mod]
  congr 1
  omega

namespace Holds

variable {n tail head : Nat} {buf : Nat → α} {q : List α}

theorem empty (ht : tail < n) : Holds n buf tail tail [] where
  tail_lt := ht
  room := by rw [List.length_nil]; omega
  head_eq := (Nat.mod_eq_of_lt ht).symm
  cell := fun i hi => absurd hi (by simp)

theorem length_eq (h : Holds n buf tail head q) :
    (head + n - tail) % n = q.length := by
  have ht := h.tail_lt
  have hq := h.room
  rw [h.head_eq, wrap ht (Nat.le_of_lt hq)]
  split
  · rw [show tail + q.length + n - tail = q.length + n by omega,
      Nat.add_mod_right, Nat.mod_eq_of_lt hq]
  · rw [show tail + q.length - n + n - tail = q.length by omega,
      Nat.mod_eq_of_lt hq]

/-- The abstraction is a function: what a ring holds is what can be read off
its cells. -/
theorem eq_contents (h : Holds n buf tail head q) :
    q = contents n buf tail head := by
  apply List.ext_getElem
  · simp [contents, h.length_eq]
  · intro i h₁ h₂
    simp [contents, h.cell i h₁]

theorem empty_iff (h : Holds n buf tail head q) : head = tail ↔ q = [] := by
  have ht := h.tail_lt
  have hq := h.room
  have hhead := h.head_eq
  rw [wrap ht (Nat.le_of_lt hq)] at hhead
  constructor
  · intro heq
    split at hhead <;> exact List.length_eq_zero_iff.mp (by omega)
  · intro hnil
    rw [hnil, List.length_nil] at hhead
    split at hhead <;> omega

/-- The producer's test: one step behind the tail is the last free cell. -/
theorem full_iff (h : Holds n buf tail head q) :
    (head + 1) % n = tail ↔ q.length + 1 = n := by
  have ht := h.tail_lt
  have hq := h.room
  have hn : (head + 1) % n = (tail + (q.length + 1)) % n := by
    rw [h.head_eq, Nat.mod_add_mod]
    congr 1
  rw [hn, wrap ht (by omega)]
  split <;> omega

theorem store (h : Holds n buf tail head q) (x : α) :
    Holds n (Function.update buf head x) tail head q where
  tail_lt := h.tail_lt
  room := h.room
  head_eq := h.head_eq
  cell := by
    intro i hi
    have hne : (tail + i) % n ≠ head := by
      intro heq
      have hroom := h.room
      rw [h.head_eq] at heq
      have := offset_inj h.tail_lt (by omega) h.room heq
      omega
    rw [Function.update_of_ne hne, h.cell i hi]

theorem publish (h : Holds n buf tail head q) (hroom : q.length + 1 < n) :
    Holds n buf tail ((head + 1) % n) (q ++ [buf head]) where
  tail_lt := h.tail_lt
  room := by rw [List.length_append]; simpa using hroom
  head_eq := by
    rw [h.head_eq, Nat.mod_add_mod, List.length_append]
    rfl
  cell := by
    intro i hi
    rw [List.getElem_append]
    split
    · next hlt => exact h.cell i hlt
    · next hge =>
        have : i = q.length := by
          rw [List.length_append, List.length_singleton] at hi
          omega
        rw [List.getElem_singleton, this, ← h.head_eq]

theorem front {x : α} (h : Holds n buf tail head (x :: q)) : buf tail = x := by
  have := h.cell 0 (by simp)
  rwa [Nat.add_zero, Nat.mod_eq_of_lt h.tail_lt] at this

theorem release {x : α} (h : Holds n buf tail head (x :: q)) :
    Holds n buf ((tail + 1) % n) head q where
  tail_lt := Nat.mod_lt _ (by have := h.tail_lt; omega)
  room := by
    have := h.room
    rw [List.length_cons] at this
    omega
  head_eq := by rw [succ_offset, h.head_eq, List.length_cons]
  cell := by
    intro i hi
    rw [succ_offset, h.cell (i + 1) (by simpa using hi), List.getElem_cons_succ]

end Holds

end Ch552e.Lib.Ring
