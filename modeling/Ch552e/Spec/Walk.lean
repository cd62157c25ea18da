import Ch552e.Lib.Sweep
import Ch552e.Spec.Tree
import Mathlib.Data.Prod.Lex

/-!
# The order of the descriptors

Where a descriptor stands in the tree (`Place`), the order in which a host is
to get them, and which of them exist: hooks number their descriptors from 0
and answer `NULL` past the last one, so a descriptor exists if its index fits
the stream's bit-field and no index up to it is answered with `NULL`.

`selections` reads off the stream's trace which descriptors the walk selected.
It is the yardstick for any hooks, whether they describe a tree that the
bit-fields can count or not.
-/

namespace Ch552e.Spec

open Ch552e.Lib Ch552e.Ref

/-- A place in the tree: the configuration descriptor, an interface, or a child
of an interface. -/
inductive Place where
  | config
  | interface (i : Nat)
  | child (i j : Nat)
deriving DecidableEq, Repr

namespace Place

/-- The configuration descriptor first, then interface by interface, each with
its children after it. -/
def rank : Place → ℕ ×ₗ ℕ
  | config => toLex (0, 0)
  | interface i => toLex (i + 1, 0)
  | child i j => toLex (i + 1, j + 1)

theorem rank_injective : Function.Injective rank := by
  intro p q h
  cases p <;> cases q <;>
    simp only [rank, toLex_inj, Prod.mk.injEq] at h <;> grind

instance : LinearOrder Place := LinearOrder.lift' rank rank_injective

theorem lt_iff {p q : Place} : p < q ↔ p.rank < q.rank := Iff.rfl

theorem le_iff {p q : Place} : p ≤ q ↔ p.rank ≤ q.rank := Iff.rfl

/-- What the hooks answer for a place. The child hook is asked when nothing is
left of the descriptor before, so the length behind its pointer is 0. -/
def pointer (fw : Firmware) : Place → UInt16
  | config => fw.usbGetConfigurationDescriptor
  | interface i => fw.usbGetInterfaceDescriptor (UInt8.ofNat i)
  | child i j =>
      (fw.usbGetInterfaceChildDescriptor (UInt8.ofNat i) (UInt8.ofNat j) 0).1

/-- The place is one of a descriptor that exists, within what a 3-bit and a
5-bit index can count. -/
def Exists (fw : Firmware) : Place → Prop
  | config => True
  | interface i => i < 8 ∧ ∀ k ≤ i, (interface k).pointer fw ≠ 0
  | child i j =>
      (i < 8 ∧ ∀ k ≤ i, (interface k).pointer fw ≠ 0) ∧
        j < 32 ∧ ∀ k ≤ j, (child i k).pointer fw ≠ 0

end Place

/-- The place of a descriptor just selected by a move: the child index counts
the children selected of the interface. -/
def placeOf (a : Ep0Arms) : Place :=
  if a.child = 0 then .interface a.interface.toNat
  else .child a.interface.toNat (a.child.toNat - 1)

theorem rank_placeOf (a : Ep0Arms) :
    (placeOf a).rank = toLex (a.interface.toNat + 1, a.child.toNat) := by
  unfold placeOf
  split
  · next h => rw [h]; rfl
  · next h =>
      have hpos : a.child.toNat ≠ 0 := fun hz => h (BitVec.eq_of_toNat_eq hz)
      rw [Place.rank, Nat.sub_add_cancel (Nat.pos_of_ne_zero hpos)]

/-- The descriptor an event selected, and where it stands. -/
def selects : StreamEvent → Option (Place × Descriptor)
  | .start a => some (.config, ⟨a.cursor, a.remaining⟩)
  | .copy _ _ _ => none
  | .move _ none => none
  | .move _ (some a) => some (placeOf a, ⟨a.cursor, a.remaining⟩)

/-- The descriptors selected so far, newest first. -/
def selections (trace : List StreamEvent) : List (Place × Descriptor) :=
  trace.filterMap selects

def visited (trace : List StreamEvent) : List Place :=
  (selections trace).map Prod.fst

end Ch552e.Spec
