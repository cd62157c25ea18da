import Ch552e.Lib.Bytes
import Mathlib.Logic.Function.Basic

/-!
# Arrays in a flat memory

A memory is a function on addresses. An array at `base` is the memory seen
through an index (`loadArray`); it has no end, as an array of C has none for
the machine, and a store through an index that is too large lands in whatever
follows (`storeArray_update`).

A `Region` is what an object is meant to have. `Confined r m m'` says that the
step from `m` to `m'` wrote in `r` only, and a step that keeps within a region
changes nothing in one apart from it (`Confined.apart`).
-/

namespace Ch552e.Lib

universe u

variable {β : Type u} {mem m m' m'' : Nat → β} {base a i n : Nat}

def loadArray (mem : Nat → β) (base : Nat) : Nat → β := fun i => mem (base + i)

def storeArray (mem : Nat → β) (base : Nat) (cells : Nat → β) : Nat → β :=
  fun a => if base ≤ a then cells (a - base) else mem a

theorem storeArray_of_lt {cells : Nat → β} (h : a < base) :
    storeArray mem base cells a = mem a := if_neg (by omega)

theorem storeArray_add {cells : Nat → β} (i : Nat) :
    storeArray mem base cells (base + i) = cells i := by
  rw [storeArray, if_pos (Nat.le_add_right _ _), Nat.add_sub_cancel_left]

@[simp] theorem storeArray_loadArray (mem : Nat → β) (base : Nat) :
    storeArray mem base (loadArray mem base) = mem := by
  funext a
  rcases Nat.lt_or_ge a base with h | h
  · exact storeArray_of_lt h
  · obtain ⟨i, rfl⟩ := Nat.exists_eq_add_of_le h
    exact storeArray_add i

/-- A store through an index is a store to the address. -/
theorem storeArray_update (mem : Nat → β) (base i : Nat) (v : β) :
    storeArray mem base (Function.update (loadArray mem base) i v) =
      Function.update mem (base + i) v := by
  funext a
  rcases Nat.lt_or_ge a base with h | h
  · rw [storeArray_of_lt h, Function.update_of_ne (by omega)]
  · obtain ⟨j, rfl⟩ := Nat.exists_eq_add_of_le h
    rw [storeArray_add]
    by_cases hij : j = i
    · subst hij
      rw [Function.update_self, Function.update_self]
    · rw [Function.update_of_ne hij, Function.update_of_ne (by omega)]
      rfl

/-! ## Regions -/

structure Region where
  base : Nat
  size : Nat

namespace Region

variable {r q : Region}

def Has (r : Region) (a : Nat) : Prop := r.base ≤ a ∧ a < r.base + r.size

def Apart (r q : Region) : Prop :=
  r.base + r.size ≤ q.base ∨ q.base + q.size ≤ r.base

theorem has_base (h : 0 < r.size) : r.Has r.base :=
  ⟨Nat.le_refl _, Nat.lt_add_of_pos_right h⟩

theorem Apart.not_has (h : r.Apart q) (ha : q.Has a) : ¬ r.Has a := by
  rintro ⟨hle, hlt⟩
  obtain ⟨hle', hlt'⟩ := ha
  rcases h with h | h
  · omega
  · omega

end Region

variable {r q : Region}

def Confined (r : Region) (m m' : Nat → β) : Prop :=
  ∀ a, ¬ r.Has a → m' a = m a

theorem Confined.refl (r : Region) (m : Nat → β) : Confined r m m := fun _ _ => rfl

theorem Confined.trans (h : Confined r m m') (h' : Confined r m' m'') :
    Confined r m m'' := fun a ha => (h' a ha).trans (h a ha)

theorem Confined.apart (h : Confined r m m') (hrq : r.Apart q) (ha : q.Has a) :
    m' a = m a := h a (hrq.not_has ha)

theorem confined_update (ha : r.Has a) (v : β) :
    Confined r m (Function.update m a v) := by
  intro a' ha'
  refine Function.update_of_ne ?_ _ _
  rintro rfl
  exact ha' ha

theorem confined_blit {d : Nat} (src : Nat → β) (hbase : r.base ≤ d)
    (hend : d + n ≤ r.base + r.size) : Confined r m (blit m d n src) := by
  intro a ha
  rcases Nat.lt_or_ge a d with h | h
  · exact blit_of_lt h
  · refine blit_of_ge (Nat.le_of_not_lt fun hlt => ha ⟨?_, ?_⟩)
    · omega
    · omega

/-! ## Below a bound -/

/-- The first `n` cells of an array are what an owner that keeps its indices
below `n` sees of it. -/
def AgreeBelow (n : Nat) (f g : Nat → β) : Prop := ∀ i, i < n → f i = g i

theorem AgreeBelow.refl (n : Nat) (f : Nat → β) : AgreeBelow n f f :=
  fun _ _ => rfl

theorem AgreeBelow.trans {f g h : Nat → β} (hfg : AgreeBelow n f g)
    (hgh : AgreeBelow n g h) : AgreeBelow n f h :=
  fun i hi => (hfg i hi).trans (hgh i hi)

theorem AgreeBelow.update {f g : Nat → β} (h : AgreeBelow n f g) (i : Nat) (v : β) :
    AgreeBelow n (Function.update f i v) (Function.update g i v) := by
  intro j hj
  by_cases hji : j = i
  · subst hji
    rw [Function.update_self, Function.update_self]
  · rw [Function.update_of_ne hji, Function.update_of_ne hji]
    exact h j hj

/-- What is written elsewhere leaves an array as it is. -/
theorem Confined.agreeBelow (h : Confined r m m')
    (hr : r.Apart ⟨base, n⟩) :
    AgreeBelow n (loadArray m' base) (loadArray m base) :=
  fun _ hi => h.apart hr ⟨Nat.le_add_right _ _, Nat.add_lt_add_left hi _⟩

end Ch552e.Lib
