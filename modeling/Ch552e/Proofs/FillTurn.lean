import Ch552e.Ref.Prepare

/-!
# One turn of the fill loop

What a turn can do, said once: `Turn` lists its five ways to end, and
`fillTurn_turn` says these are all. The arithmetic of the copy is here too.
The source computes it in 8 and 16 bits with wrapping subtraction; under the
loop condition none of it wraps, whatever the hooks answered, and
`toNat_copySize` and its neighbours are the statements in `Nat` that everything
after this file uses.
-/

namespace Ch552e.Proofs

open Ch552e.Lib Ch552e.Ref

/-! ## The copy length -/

theorem toNat_cMin_byte (x y : UInt8) : (cMin x y).toNat = min x.toNat y.toNat := by
  unfold cMin
  split
  · next h => have := UInt8.lt_iff_toNat_lt.mp h; omega
  · next h =>
      have hle : ¬ y.toNat < x.toNat :=
        fun hlt => h (UInt8.lt_iff_toNat_lt.mpr hlt)
      omega

theorem toNat_cMin_word (x y : UInt16) :
    (cMin x y).toNat = min x.toNat y.toNat := by
  unfold cMin
  split
  · next h => have := UInt16.lt_iff_toNat_lt.mp h; omega
  · next h =>
      have hle : ¬ y.toNat < x.toNat :=
        fun hlt => h (UInt16.lt_iff_toNat_lt.mpr hlt)
      omega

/-- A minimum with a byte is a byte: storing it back loses nothing. -/
theorem toNat_cMin_trunc (x : UInt8) (y : UInt16) :
    (cMin x.toUInt16 y).toUInt8.toNat = min x.toNat y.toNat := by
  have hx := x.toNat_lt
  rw [UInt16.toNat_toUInt8, toNat_cMin_word, UInt8.toNat_toUInt16]
  omega

theorem toNat_copySize (a : Ep0Arms) {filledBytes : UInt8}
    (h : filledBytes.toNat ≤ usbEp0BufferSize) :
    (copySize a filledBytes).toNat =
      min (min (min a.remaining.toNat (usbEp0BufferSize - filledBytes.toNat))
        a.requestRemaining.toNat) a.totalRemaining.toNat := by
  have hle : filledBytes ≤ UInt8.ofNat usbEp0BufferSize :=
    UInt8.le_iff_toNat_le.mpr h
  simp only [copySize, toNat_cMin_trunc, toNat_cMin_byte,
    UInt8.toNat_sub_of_le _ _ hle]
  rfl

section Bounds

variable {a : Ep0Arms} {filledBytes : UInt8}

theorem copySize_le_remaining (h : filledBytes.toNat ≤ usbEp0BufferSize) :
    (copySize a filledBytes).toNat ≤ a.remaining.toNat := by
  rw [toNat_copySize a h]
  omega

theorem copySize_le_request (h : filledBytes.toNat ≤ usbEp0BufferSize) :
    (copySize a filledBytes).toNat ≤ a.requestRemaining.toNat := by
  rw [toNat_copySize a h]
  omega

theorem copySize_le_total (h : filledBytes.toNat ≤ usbEp0BufferSize) :
    (copySize a filledBytes).toNat ≤ a.totalRemaining.toNat := by
  rw [toNat_copySize a h]
  omega

/-- The fill level stays within the buffer, so its 8-bit sum is exact. -/
theorem toNat_filled_add (h : filledBytes.toNat ≤ usbEp0BufferSize) :
    (filledBytes + copySize a filledBytes).toNat =
        filledBytes.toNat + (copySize a filledBytes).toNat ∧
      filledBytes.toNat + (copySize a filledBytes).toNat ≤
        usbEp0BufferSize := by
  have hsize : usbEp0BufferSize = 64 := rfl
  have hle : filledBytes.toNat + (copySize a filledBytes).toNat ≤
      usbEp0BufferSize := by
    rw [toNat_copySize a h]
    omega
  refine ⟨?_, hle⟩
  rw [UInt8.toNat_add, Nat.mod_eq_of_lt (by omega)]

end Bounds

/-! ## The stream after a copy -/

section Advance

variable {a : Ep0Arms} {n : UInt8}

theorem toNat_advance_remaining (h : n.toNat ≤ a.remaining.toNat) :
    (a.advance n).remaining.toNat = a.remaining.toNat - n.toNat := by
  simp only [Ep0Arms.advance, Ep0Arms.remaining_setTotalRemaining,
    Ep0Arms.remaining_setRequestRemaining, Ep0Arms.remaining_setRemaining,
    Ep0Arms.remaining_setCursor]
  exact UInt8.toNat_sub_of_le _ _ (UInt8.le_iff_toNat_le.mpr h)

theorem toNat_advance_request (h : n.toNat ≤ a.requestRemaining.toNat) :
    (a.advance n).requestRemaining.toNat =
      a.requestRemaining.toNat - n.toNat := by
  simp only [Ep0Arms.advance, Ep0Arms.requestRemaining_setTotalRemaining,
    Ep0Arms.requestRemaining_setRequestRemaining,
    Ep0Arms.requestRemaining_setRemaining, Ep0Arms.requestRemaining_setCursor]
  rw [UInt16.toNat_sub_of_le _ _ (UInt16.le_iff_toNat_le.mpr (by simpa using h)),
    UInt8.toNat_toUInt16]

theorem toNat_advance_total (h : n.toNat ≤ a.totalRemaining.toNat) :
    (a.advance n).totalRemaining.toNat = a.totalRemaining.toNat - n.toNat := by
  simp only [Ep0Arms.advance, Ep0Arms.totalRemaining_setTotalRemaining,
    Ep0Arms.totalRemaining_setRequestRemaining,
    Ep0Arms.totalRemaining_setRemaining, Ep0Arms.totalRemaining_setCursor]
  rw [UInt16.toNat_sub_of_le _ _ (UInt16.le_iff_toNat_le.mpr (by simpa using h)),
    UInt8.toNat_toUInt16]

@[simp] theorem advance_cursor :
    (a.advance n).cursor = a.cursor + n.toUInt16 := by simp [Ep0Arms.advance]

@[simp] theorem advance_interface : (a.advance n).interface = a.interface := rfl

@[simp] theorem advance_child : (a.advance n).child = a.child := rfl

end Advance

/-! ## The move, branch by branch -/

section Move

variable {fw : Firmware} {a b : Ep0Arms}

/-- Below their largest values the two indices count without wrapping. -/
theorem toNat_child_succ (h : a.child ≠ 31) :
    (a.child + 1).toNat = a.child.toNat + 1 := by
  have hlt := a.child.isLt
  have hne : a.child.toNat ≠ 31 := fun heq => h (BitVec.eq_of_toNat_eq heq)
  rw [BitVec.toNat_add]
  exact Nat.mod_eq_of_lt (by change a.child.toNat + 1 < 32; omega)

theorem toNat_interface_succ (h : a.interface ≠ 7) :
    (a.interface + 1).toNat = a.interface.toNat + 1 := by
  have hlt := a.interface.isLt
  have hne : a.interface.toNat ≠ 7 := fun heq => h (BitVec.eq_of_toNat_eq heq)
  rw [BitVec.toNat_add]
  exact Nat.mod_eq_of_lt (by change a.interface.toNat + 1 < 8; omega)

theorem moveToNextDescriptor_mark (hmark : a.child = 31) :
    moveToNextDescriptor fw a = moveToInterfaceDescriptor fw a := if_pos hmark

theorem moveToNextDescriptor_child (hmark : a.child ≠ 31)
    (h : moveToInterfaceChildDescriptor fw a = (true, b)) :
    moveToNextDescriptor fw a = (true, b) := by
  rw [moveToNextDescriptor, if_neg hmark, h]

theorem moveToNextDescriptor_last (hmark : a.child ≠ 31)
    (h : moveToInterfaceChildDescriptor fw a = (false, b))
    (hlast : b.interface = 7) : moveToNextDescriptor fw a = (false, b) := by
  rw [moveToNextDescriptor, if_neg hmark, h]
  exact if_pos hlast

theorem moveToNextDescriptor_interface (hmark : a.child ≠ 31)
    (h : moveToInterfaceChildDescriptor fw a = (false, b))
    (hlast : b.interface ≠ 7) :
    moveToNextDescriptor fw a =
      moveToInterfaceDescriptor fw (b.setInterface (b.interface + 1)) := by
  rw [moveToNextDescriptor, if_neg hmark, h]
  exact if_neg hlast

theorem moveToInterfaceDescriptor_counters (fw : Firmware) (a : Ep0Arms) :
    (moveToInterfaceDescriptor fw a).2.requestRemaining = a.requestRemaining ∧
      (moveToInterfaceDescriptor fw a).2.totalRemaining = a.totalRemaining := by
  unfold moveToInterfaceDescriptor
  dsimp only
  split <;> exact ⟨rfl, rfl⟩

theorem moveToInterfaceChildDescriptor_counters (fw : Firmware) (a : Ep0Arms) :
    (moveToInterfaceChildDescriptor fw a).2.requestRemaining =
        a.requestRemaining ∧
      (moveToInterfaceChildDescriptor fw a).2.totalRemaining =
        a.totalRemaining := by
  unfold moveToInterfaceChildDescriptor
  dsimp only
  split <;> exact ⟨rfl, rfl⟩

/-- A move leaves the two counters alone, whether it finds a descriptor or
not. -/
theorem moveToNextDescriptor_counters (fw : Firmware) (a : Ep0Arms) :
    (moveToNextDescriptor fw a).2.requestRemaining = a.requestRemaining ∧
      (moveToNextDescriptor fw a).2.totalRemaining = a.totalRemaining := by
  by_cases hmark : a.child = 31
  · rw [moveToNextDescriptor_mark hmark]
    exact moveToInterfaceDescriptor_counters fw a
  · have hchild := moveToInterfaceChildDescriptor_counters fw a
    match h : moveToInterfaceChildDescriptor fw a with
    | (true, b) =>
        rw [moveToNextDescriptor_child hmark h]
        rwa [h] at hchild
    | (false, b) =>
        rw [h] at hchild
        by_cases hlast : b.interface = 7
        · rwa [moveToNextDescriptor_last hmark h hlast]
        · rw [moveToNextDescriptor_interface hmark h hlast]
          have hnext := moveToInterfaceDescriptor_counters fw
            (b.setInterface (b.interface + 1))
          exact ⟨hnext.1.trans hchild.1, hnext.2.trans hchild.2⟩

end Move

/-! ## The turn -/

/-- The ways a turn of the loop ends. -/
inductive Turn (fw : Firmware) (f : Filling) : Bool × Filling → Prop where
  | stop (hcont : f.continues = false) : Turn fw f (false, f)
  | drained (hcont : f.continues = true)
      (hzero : (f.copy fw).arms.requestRemaining = 0 ∨
        (f.copy fw).arms.totalRemaining = 0) :
      Turn fw f (false, f.copy fw)
  | again (hcont : f.continues = true)
      (hreq : (f.copy fw).arms.requestRemaining ≠ 0)
      (htotal : (f.copy fw).arms.totalRemaining ≠ 0)
      (hrem : (f.copy fw).arms.remaining ≠ 0) :
      Turn fw f (true, f.copy fw)
  | moved (hcont : f.continues = true)
      (hreq : (f.copy fw).arms.requestRemaining ≠ 0)
      (htotal : (f.copy fw).arms.totalRemaining ≠ 0)
      (hrem : (f.copy fw).arms.remaining = 0) (a : Ep0Arms)
      (hmove : moveToNextDescriptor fw (f.copy fw).arms = (true, a)) :
      Turn fw f (true, { f.copy fw with
        arms := a
        trace := .move (f.copy fw).arms (some a) :: (f.copy fw).trace })
  | ended (hcont : f.continues = true)
      (hreq : (f.copy fw).arms.requestRemaining ≠ 0)
      (htotal : (f.copy fw).arms.totalRemaining ≠ 0)
      (hrem : (f.copy fw).arms.remaining = 0) (a : Ep0Arms)
      (hmove : moveToNextDescriptor fw (f.copy fw).arms = (false, a)) :
      Turn fw f (false, { f.copy fw with
        arms := a.setCursor 0
        trace := .move (f.copy fw).arms none :: (f.copy fw).trace })

theorem fillTurn_turn (fw : Firmware) (f : Filling) :
    Turn fw f (fillTurn fw f) := by
  unfold fillTurn
  split
  · next hcont =>
      dsimp only
      split
      · next hzero => exact .drained hcont hzero
      · next hzero =>
          rw [not_or] at hzero
          split
          · next hrem => exact .again hcont hzero.1 hzero.2 hrem
          · next hrem =>
              have hrem := not_not.mp hrem
              unfold Filling.next
              match hmove : moveToNextDescriptor fw (f.copy fw).arms with
              | (true, a) => exact .moved hcont hzero.1 hzero.2 hrem a hmove
              | (false, a) => exact .ended hcont hzero.1 hzero.2 hrem a hmove
  · next hcont => exact .stop (by simpa using hcont)

theorem continues_iff {f : Filling} :
    f.continues = true ↔
      f.arms.cursor ≠ 0 ∧ f.arms.requestRemaining ≠ 0 ∧
        f.arms.totalRemaining ≠ 0 ∧ f.filledBytes.toNat < usbEp0BufferSize := by
  simp [Filling.continues, and_assoc]

theorem copy_xram (fw : Firmware) (f : Filling) :
    (f.copy fw).xram =
      blit f.xram (usbEp0BufferAddress + f.filledBytes.toNat)
        (copySize f.arms f.filledBytes).toNat (fw.bytesAt f.arms.cursor) :=
  memcpyCodeToXdata_eq fw _ _ _ _

theorem slice_copy (fw : Firmware) {f : Filling}
    (h : f.filledBytes.toNat ≤ usbEp0BufferSize) :
    slice (f.copy fw).xram usbEp0BufferAddress (f.copy fw).filledBytes.toNat =
      slice f.xram usbEp0BufferAddress f.filledBytes.toNat ++
        slice (fw.bytesAt f.arms.cursor) 0
          (copySize f.arms f.filledBytes).toNat := by
  have hsize : (f.copy fw).filledBytes.toNat =
      f.filledBytes.toNat + (copySize f.arms f.filledBytes).toNat :=
    (toNat_filled_add (a := f.arms) h).1
  rw [hsize, slice_append, copy_xram, slice_blit]
  congr 1
  exact slice_congr fun i hi => blit_of_lt (by omega)

/-- A turn fills the buffer by its copy, if it makes one, and by nothing
else. -/
theorem fillTurn_buffer (fw : Firmware) (f : Filling) :
    (fillTurn fw f).2.xram = (if f.continues then f.copy fw else f).xram ∧
      (fillTurn fw f).2.filledBytes =
        (if f.continues then f.copy fw else f).filledBytes := by
  have hturn := fillTurn_turn fw f
  generalize fillTurn fw f = r at hturn
  cases hturn with
  | stop hcont => simp [hcont]
  | drained hcont _ | again hcont _ _ _ | moved hcont _ _ _ _ _
  | ended hcont _ _ _ _ _ => simp [hcont]

end Ch552e.Proofs
