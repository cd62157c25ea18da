import Mathlib.Algebra.Order.Ring.Nat
import Mathlib.Data.List.Basic

/-!
# Words and memory

The two things every byte-level model needs: a 16-bit word as two bytes, low
byte first, and a memory as a function from addresses with the list view of a
range (`slice`) and the copy into a range (`blit`).

A memory is total. What keeps an access inside an array is a theorem about the
program that makes it, not a type.
-/

namespace Ch552e.Lib

universe u

/-! ## Words -/

/-- The word whose low byte is `l` and whose high byte is `h`. -/
def u16le (l h : UInt8) : UInt16 := l.toUInt16 ||| (h.toUInt16 <<< 8)

def lowByte (x : UInt16) : UInt8 := x.toUInt8

def highByte (x : UInt16) : UInt8 := (x >>> 8).toUInt8

theorem toNat_u16le (l h : UInt8) :
    (u16le l h).toNat = l.toNat + 256 * h.toNat := by
  have hl := l.toNat_lt
  have hh := h.toNat_lt
  have hor : h.toNat <<< 8 ||| l.toNat = h.toNat <<< 8 + l.toNat :=
    (Nat.shiftLeft_add_eq_or_of_lt (by omega) h.toNat).symm
  have hshift : h.toNat <<< 8 = h.toNat * 256 := Nat.shiftLeft_eq _ _
  simp only [u16le, UInt16.toNat_or, UInt16.toNat_shiftLeft,
    UInt8.toNat_toUInt16]
  rw [show (8 : UInt16).toNat % 16 = 8 from rfl,
    Nat.mod_eq_of_lt (by omega), Nat.or_comm, hor]
  omega

theorem u16le_low_high (x : UInt16) : u16le (lowByte x) (highByte x) = x := by
  have hx := x.toNat_lt
  apply UInt16.toNat_inj.mp
  rw [toNat_u16le, lowByte, highByte, UInt16.toNat_toUInt8,
    UInt16.toNat_toUInt8, UInt16.toNat_shiftRight,
    show (8 : UInt16).toNat % 16 = 8 from rfl, Nat.shiftRight_eq_div_pow]
  omega

theorem byte_pos {x : UInt8} (h : x ≠ 0) : 0 < x.toNat :=
  UInt8.lt_iff_toNat_lt.mp (UInt8.pos_iff_ne_zero.mpr h)

theorem word_pos {x : UInt16} (h : x ≠ 0) : 0 < x.toNat :=
  UInt16.lt_iff_toNat_lt.mp (UInt16.pos_iff_ne_zero.mpr h)

theorem lowByte_u16le (l h : UInt8) : lowByte (u16le l h) = l := by
  have hl := l.toNat_lt
  have hh := h.toNat_lt
  apply UInt8.toNat_inj.mp
  rw [lowByte, UInt16.toNat_toUInt8, toNat_u16le]
  omega

theorem highByte_u16le (l h : UInt8) : highByte (u16le l h) = h := by
  have hl := l.toNat_lt
  have hh := h.toNat_lt
  apply UInt8.toNat_inj.mp
  rw [highByte, UInt16.toNat_toUInt8, UInt16.toNat_shiftRight, toNat_u16le,
    show (8 : UInt16).toNat % 16 = 8 from rfl, Nat.shiftRight_eq_div_pow]
  omega

/-- What holds of the 256 bit vectors holds of every byte. -/
theorem forall_byte {P : UInt8 → Prop} (h : ∀ b : BitVec 8, P ⟨b⟩) (x : UInt8) :
    P x := h x.toBitVec

/-! ## Ranges -/

variable {β : Type u}

/-- The `n` cells from address `a` on. -/
def slice (mem : Nat → β) (a n : Nat) : List β :=
  (List.range n).map fun i => mem (a + i)

/-- The memory after `n` cells of `src` are copied to address `d`. -/
def blit (mem : Nat → β) (d n : Nat) (src : Nat → β) : Nat → β :=
  fun a => if d ≤ a ∧ a < d + n then src (a - d) else mem a

@[simp] theorem length_slice (mem : Nat → β) (a n : Nat) :
    (slice mem a n).length = n := by simp [slice]

theorem getElem_slice (mem : Nat → β) (a n i : Nat)
    (h : i < (slice mem a n).length) : (slice mem a n)[i] = mem (a + i) := by
  simp [slice]

@[simp] theorem slice_zero (mem : Nat → β) (a : Nat) : slice mem a 0 = [] := rfl

theorem slice_congr {m₁ m₂ : Nat → β} {a n : Nat}
    (h : ∀ i, i < n → m₁ (a + i) = m₂ (a + i)) : slice m₁ a n = slice m₂ a n :=
  List.map_congr_left fun i hi => h i (List.mem_range.mp hi)

theorem eq_of_slice_eq {m₁ m₂ : Nat → β} {a n : Nat}
    (h : slice m₁ a n = slice m₂ a n) {i : Nat} (hi : i < n) :
    m₁ (a + i) = m₂ (a + i) := by
  rw [← getElem_slice m₁ a n i (by simpa using hi),
    ← getElem_slice m₂ a n i (by simpa using hi)]
  simp only [h]

theorem slice_append (mem : Nat → β) (a n k : Nat) :
    slice mem a (n + k) = slice mem a n ++ slice mem (a + n) k := by
  simp only [slice, List.range_add, List.map_append, List.map_map]
  congr 1
  exact List.map_congr_left fun i _ => by simp [Nat.add_assoc]

theorem take_slice (mem : Nat → β) (a n k : Nat) :
    (slice mem a n).take k = slice mem a (min k n) := by
  simp [slice, ← List.map_take, List.take_range]

theorem drop_slice (mem : Nat → β) (a n k : Nat) :
    (slice mem a n).drop k = slice mem (a + k) (n - k) := by
  apply List.ext_getElem
  · simp
  · intro i h₁ h₂
    simp [slice, Nat.add_assoc]

theorem blit_of_lt {mem src : Nat → β} {d n a : Nat} (h : a < d) :
    blit mem d n src a = mem a := if_neg fun hc => by omega

theorem blit_of_ge {mem src : Nat → β} {d n a : Nat} (h : d + n ≤ a) :
    blit mem d n src a = mem a := if_neg fun hc => by omega

theorem blit_inside {mem src : Nat → β} {d n i : Nat} (h : i < n) :
    blit mem d n src (d + i) = src i := by
  rw [blit, if_pos (by omega), Nat.add_sub_cancel_left]

@[simp] theorem blit_zero (mem src : Nat → β) (d : Nat) :
    blit mem d 0 src = mem := by
  funext a
  exact if_neg fun hc => by omega

theorem blit_self (mem : Nat → β) (d n : Nat) :
    blit mem d n (fun i => mem (d + i)) = mem := by
  funext a
  rcases Nat.lt_or_ge a d with hlt | hge
  · exact blit_of_lt hlt
  · obtain ⟨i, rfl⟩ := Nat.exists_eq_add_of_le hge
    rcases Nat.lt_or_ge i n with hin | hout
    · exact blit_inside hin
    · exact blit_of_ge (Nat.add_le_add_left hout _)

theorem slice_blit_congr {m₁ m₂ : Nat → β} {a n : Nat}
    (h : slice m₁ a n = slice m₂ a n) (d k : Nat) (src : Nat → β) :
    slice (blit m₁ d k src) a n = slice (blit m₂ d k src) a n := by
  apply slice_congr
  intro i hi
  unfold blit
  split
  · rfl
  · exact eq_of_slice_eq h hi

theorem slice_blit (mem src : Nat → β) (d n : Nat) :
    slice (blit mem d n src) d n = slice src 0 n := by
  apply List.map_congr_left
  intro i hi
  rw [blit_inside (List.mem_range.mp hi), Nat.zero_add]

end Ch552e.Lib
