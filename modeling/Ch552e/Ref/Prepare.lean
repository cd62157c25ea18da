import Ch552e.Lib.Loop
import Ch552e.Ref.Ep0
import Mathlib.Data.Fintype.Prod

/-!
# Filling the IN buffer from the descriptor tree

`ep0/prepare.c`. The walk over the descriptors (`moveToNextDescriptor`) reads
and writes nothing but the stream's storage, so it is a function on `Ep0Arms`;
the fill loop adds the buffer and the fill level.

The loop has no bound of its own: whether it ends depends on what the hooks
answer. `fillFuel` is the number of values its control state has, so running
out of it is divergence and nothing else (`fillLoop_exact`).
-/

namespace Ch552e.Ref

open Ch552e.Lib

/-! ## The walk -/

def moveToInterfaceDescriptor (fw : Firmware) (a : Ep0Arms) : Bool × Ep0Arms :=
  let interfaceDescriptor :=
    fw.usbGetInterfaceDescriptor (UInt8.ofNat a.interface.toNat)
  if interfaceDescriptor = 0 then
    (false, a)
  else
    let bLength := fw.code interfaceDescriptor
    (true, ((a.setCursor interfaceDescriptor).setRemaining bLength).setChild 0)

/-- `move_to_interface_child_descriptor`. The hook may write behind its
`length` pointer, which is `remaining`, whatever it returns. -/
def moveToInterfaceChildDescriptor (fw : Firmware) (a : Ep0Arms) :
    Bool × Ep0Arms :=
  let (childDescriptor, length) := fw.usbGetInterfaceChildDescriptor
    (UInt8.ofNat a.interface.toNat) (UInt8.ofNat a.child.toNat) a.remaining
  let a := a.setRemaining length
  if childDescriptor = 0 then
    (false, a)
  else
    (true, (a.setCursor childDescriptor).setChild (a.child + 1))

def moveToNextDescriptor (fw : Firmware) (a : Ep0Arms) : Bool × Ep0Arms :=
  -- child index 31 stands for the configuration descriptor being sent
  if a.child = 0b00011111 then
    moveToInterfaceDescriptor fw a
  else
    match moveToInterfaceChildDescriptor fw a with
    | (true, a) => (true, a)
    | (false, a) =>
        -- the 3-bit interface index can represent 0 to 7
        if a.interface = 0b00000111 then
          (false, a)
        else
          moveToInterfaceDescriptor fw (a.setInterface (a.interface + 1))

/-! ## The fill loop -/

/-- The `min` macro of `ep0/internal.h`. -/
def cMin {α : Type} [LT α] [DecidableLT α] (lhs rhs : α) : α :=
  if lhs > rhs then rhs else lhs

/-- The copy length of one turn, with its three assignments to a `uint8_t`;
the last two compare it with a `uint16_t`. -/
def copySize (a : Ep0Arms) (filledBytes : UInt8) : UInt8 :=
  let bufferRemaining : UInt8 := UInt8.ofNat usbEp0BufferSize - filledBytes
  let copySize : UInt8 := cMin a.remaining bufferRemaining
  let copySize : UInt8 := (cMin copySize.toUInt16 a.requestRemaining).toUInt8
  (cMin copySize.toUInt16 a.totalRemaining).toUInt8

/-- The stream after `n` bytes of the current descriptor are sent. -/
def Ep0Arms.advance (a : Ep0Arms) (n : UInt8) : Ep0Arms :=
  let a := a.setCursor (a.cursor + n.toUInt16)
  let a := a.setRemaining (a.remaining - n)
  let a := a.setRequestRemaining (a.requestRemaining - n.toUInt16)
  a.setTotalRemaining (a.totalRemaining - n.toUInt16)

/-- What the loop works on: the stream, the memory it fills, its local
`filled_bytes`, and the ghost trace. -/
structure Filling where
  arms : Ep0Arms
  xram : Nat → UInt8
  filledBytes : UInt8
  trace : List StreamEvent

def Filling.continues (f : Filling) : Bool :=
  f.arms.cursor ≠ 0 && f.arms.requestRemaining ≠ 0 &&
    f.arms.totalRemaining ≠ 0 && f.filledBytes.toNat < usbEp0BufferSize

def Filling.copy (fw : Firmware) (f : Filling) : Filling :=
  let n := copySize f.arms f.filledBytes
  let dest := usbEp0BufferAddress + f.filledBytes.toNat
  { arms := f.arms.advance n
    xram := memcpyCodeToXdata fw.code f.xram dest f.arms.cursor n.toNat
    filledBytes := f.filledBytes + n
    trace := .copy f.arms f.filledBytes n :: f.trace }

/-- The move to the next descriptor at the end of a turn, and whether the loop
goes on. -/
def Filling.next (fw : Firmware) (f : Filling) : Bool × Filling :=
  match moveToNextDescriptor fw f.arms with
  | (true, a) =>
      (true, { f with
        arms := a
        trace := .move f.arms (some a) :: f.trace })
  | (false, a) =>
      (false, { f with
        arms := a.setCursor 0
        trace := .move f.arms none :: f.trace })

/-- One turn of the `while` loop: whether another one follows, and the state
after it. -/
def fillTurn (fw : Firmware) (f : Filling) : Bool × Filling :=
  if f.continues then
    let f := f.copy fw
    if f.arms.requestRemaining = 0 ∨ f.arms.totalRemaining = 0 then
      (false, f)
    else if f.arms.remaining ≠ 0 then
      (true, f)
    else
      f.next fw
  else
    (false, f)

/-- The number of values of the loop's control state, rounded up: the storage
of the stream and `filled_bytes`. -/
def fillFuel : Nat := 2 ^ 74

/-- The `while` loop; `none` where it never ends. -/
def fillLoop (fw : Firmware) (f : Filling) : Option Filling :=
  loop (fillTurn fw) fillFuel f

/-- `usb_ep0_prepare_descriptor`: the returned length and the state after, or
`none` where the loop never ends. -/
def usbEp0PrepareDescriptor (fw : Firmware) (s : Ep0) : Option (UInt8 × Ep0) :=
  if s.state ≠ .sendConfigurationDescriptor then
    some (0, s)
  else if s.arms.cursor = 0 then
    some (0, s)
  else
    (fillLoop fw ⟨s.arms, s.xram, 0, s.trace⟩).map fun f =>
      (f.filledBytes,
        { s with arms := f.arms, xram := f.xram, trace := f.trace })

/-! ## The fuel is exact -/

/-- A turn's choices, and its effect on the stream and the fill level, depend
on the stream and the fill level alone. -/
theorem fillTurn_control (fw : Firmware) {f g : Filling}
    (harms : f.arms = g.arms) (hfilled : f.filledBytes = g.filledBytes) :
    (fillTurn fw f).1 = (fillTurn fw g).1 ∧
      (fillTurn fw f).2.arms = (fillTurn fw g).2.arms ∧
      (fillTurn fw f).2.filledBytes = (fillTurn fw g).2.filledBytes := by
  have hcont : f.continues = g.continues := by
    rw [Filling.continues, Filling.continues, harms, hfilled]
  have hcopy : (f.copy fw).arms = (g.copy fw).arms := by
    simp only [Filling.copy, harms, hfilled]
  have hlevel : (f.copy fw).filledBytes = (g.copy fw).filledBytes := by
    simp only [Filling.copy, harms, hfilled]
  simp only [fillTurn, hcont, hcopy]
  split
  · split
    · exact ⟨rfl, hcopy, hlevel⟩
    · split
      · exact ⟨rfl, hcopy, hlevel⟩
      · simp only [Filling.next, hcopy]
        split <;> exact ⟨rfl, rfl, hlevel⟩
  · exact ⟨rfl, harms, hfilled⟩

def byteKey (x : UInt8) : Fin (2 ^ 8) := ⟨x.toNat, x.toNat_lt⟩
def wordKey (x : UInt16) : Fin (2 ^ 16) := ⟨x.toNat, x.toNat_lt⟩

def Filling.key (f : Filling) :
    (Fin (2 ^ 8) × Fin (2 ^ 8) × Fin (2 ^ 8) × Fin (2 ^ 16) × Fin (2 ^ 16)) ×
      (Fin (2 ^ 3) × Fin (2 ^ 5) × Fin 3 × Fin (2 ^ 8)) :=
  ((byteKey f.arms.byte0, byteKey f.arms.byte1, byteKey f.arms.remaining,
      wordKey f.arms.requestRemaining, wordKey f.arms.totalRemaining),
    (f.arms.interface.toFin, f.arms.child.toFin,
      match f.arms.lastArm with
      | .addressPending => 0
      | .configurationPending => 1
      | .configStream => 2,
      byteKey f.filledBytes))

theorem Filling.key_inj {f g : Filling} (h : f.key = g.key) :
    f.arms = g.arms ∧ f.filledBytes = g.filledBytes := by
  obtain ⟨⟨b0, b1, r, q, t, i, c, l⟩, _, _, _⟩ := f
  obtain ⟨⟨b0', b1', r', q', t', i', c', l'⟩, _, _, _⟩ := g
  simp only [Filling.key, byteKey, wordKey, Prod.mk.injEq, Fin.mk.injEq,
    UInt8.toNat_inj, UInt16.toNat_inj, BitVec.toFin_inj] at h
  obtain ⟨⟨rfl, rfl, rfl, rfl, rfl⟩, rfl, rfl, hl, rfl⟩ := h
  have : l = l' := by cases l <;> cases l' <;> first | rfl | simp at hl
  exact ⟨by rw [this], rfl⟩

/-- Out of fuel means divergence: no number of turns ends the loop. -/
theorem fillLoop_exact {fw : Firmware} {f : Filling} (h : fillLoop fw f = none)
    (n : Nat) : loop (fillTurn fw) n f = none := by
  refine loop_exact Filling.key (fun f g hkey => ?_) ?_ h n
  · obtain ⟨harms, hfilled⟩ := Filling.key_inj hkey
    obtain ⟨hflag, ha, hl⟩ := fillTurn_control fw harms hfilled
    exact ⟨hflag, by simp only [Filling.key, ha, hl]⟩
  · simp only [Fintype.card_prod, Fintype.card_fin, fillFuel]
    decide

/-- Any number of turns that ends the loop gives its answer. -/
theorem fillLoop_of_loop {fw : Firmware} {f r : Filling} {n : Nat}
    (h : loop (fillTurn fw) n f = some r) : fillLoop fw f = some r := by
  match hf : fillLoop fw f with
  | none =>
      rw [fillLoop_exact hf n] at h
      exact absurd h (by simp)
  | some q =>
      have hq := loop_mono hf (Nat.le_max_left fillFuel n)
      rw [loop_mono h (Nat.le_max_right fillFuel n)] at hq
      exact hq.symm

end Ch552e.Ref
