import Ch552e.Proofs.FillTurn
import Ch552e.Spec.Tree

/-!
# The walk on hooks that describe a tree

`OnTree` says that the stream's two indices are a position in the tree, and
`upcoming` is what comes after that position. On hooks that describe a tree,
`moveToNextDescriptor_serves` is all there is to a move: it takes the first
descriptor off `upcoming`, or finds none because there is none.
-/

namespace Ch552e.Proofs

open Ch552e.Lib Ch552e.Ref Ch552e.Spec

variable {fw : Firmware} {tree : Tree}

/-! ## The walk -/

/-- The stream's indices are a position in the tree: the configuration
descriptor, or an interface and how many of its children are done. -/
def OnTree (tree : Tree) (a : Ep0Arms) : Prop :=
  (a.child = 31 ∧ a.interface = 0) ∨
    ∃ h : a.interface.toNat < tree.interfaces.length, a.child ≠ 31 ∧
      a.child.toNat ≤ tree.interfaces[a.interface.toNat].children.length

def upcoming (tree : Tree) (a : Ep0Arms) : List Descriptor :=
  tree.upcoming a.interface.toNat a.child.toNat

/-- What a move does, if it finds the descriptor `d`. -/
structure MovedTo (tree : Tree) (a a' : Ep0Arms) (d : Descriptor) : Prop where
  valid : d.Valid
  cursor : a'.cursor = d.ptr
  remaining : a'.remaining = d.len
  request : a'.requestRemaining = a.requestRemaining
  total : a'.totalRemaining = a.totalRemaining
  onTree : OnTree tree a'

theorem toNat_child_ne {c : BitVec 5} (h : c ≠ 31) : c.toNat < 31 := by
  have hlt := c.isLt
  have hne : c.toNat ≠ 31 := fun heq => h (BitVec.eq_of_toNat_eq heq)
  omega

theorem interface_mem_descriptors {i : Nat} (hi : i < tree.interfaces.length) :
    tree.interfaces[i].desc ∈ tree.descriptors := by
  refine List.mem_cons_of_mem _ (List.mem_flatMap.mpr ?_)
  exact ⟨tree.interfaces[i], List.getElem_mem hi, List.mem_cons_self⟩

theorem child_mem_descriptors {i j : Nat} (hi : i < tree.interfaces.length)
    (hj : j < tree.interfaces[i].children.length) :
    tree.interfaces[i].children[j] ∈ tree.descriptors := by
  refine List.mem_cons_of_mem _ (List.mem_flatMap.mpr ?_)
  exact ⟨tree.interfaces[i], List.getElem_mem hi,
    List.mem_cons_of_mem _ (List.getElem_mem hj)⟩

theorem moveToInterfaceDescriptor_serves (hs : Serves fw tree) {a : Ep0Arms}
    (hi : a.interface.toNat < tree.interfaces.length) :
    ∃ a', moveToInterfaceDescriptor fw a = (true, a') ∧
      MovedTo tree a a' tree.interfaces[a.interface.toNat].desc ∧
      upcoming tree a' = tree.upcoming a.interface.toNat 0 := by
  have hvalid := hs.valid _ (interface_mem_descriptors hi)
  have hlen := hs.interface_len _ (List.getElem_mem hi)
  simp only [moveToInterfaceDescriptor, hs.interface_ptr _ hi, hlen]
  rw [if_neg hvalid.1]
  refine ⟨_, rfl, ⟨hvalid, ?_, rfl, rfl, rfl, ?_⟩, rfl⟩
  · simp
  · refine Or.inr ⟨hi, ?_, Nat.zero_le _⟩
    simp only [Ep0Arms.child_setChild]
    decide

theorem moveToInterfaceDescriptor_end (hs : Serves fw tree) {a : Ep0Arms}
    (hi : a.interface.toNat = tree.interfaces.length) :
    moveToInterfaceDescriptor fw a = (false, a) := by
  have hlt : tree.interfaces.length < 8 := by
    have := a.interface.isLt
    omega
  simp only [moveToInterfaceDescriptor, hi, hs.interface_end hlt, if_true]

theorem moveToInterfaceChildDescriptor_serves (hs : Serves fw tree)
    {a : Ep0Arms} (hi : a.interface.toNat < tree.interfaces.length)
    (hc : a.child.toNat < tree.interfaces[a.interface.toNat].children.length) :
    ∃ a', moveToInterfaceChildDescriptor fw a = (true, a') ∧
      MovedTo tree a a'
        tree.interfaces[a.interface.toNat].children[a.child.toNat] ∧
      upcoming tree a' =
        tree.upcoming a.interface.toNat (a.child.toNat + 1) := by
  have hvalid := hs.valid _ (child_mem_descriptors hi hc)
  have hle := hs.children_le _ (List.getElem_mem hi)
  have hmark : a.child ≠ 31 := by
    intro h
    rw [h] at hc
    change 31 < _ at hc
    omega
  have hsucc := toNat_child_succ hmark
  simp only [moveToInterfaceChildDescriptor, hs.child _ hi _ hc]
  rw [if_neg hvalid.1, Ep0Arms.child_setRemaining]
  refine ⟨_, rfl, ⟨hvalid, ?_, rfl, rfl, rfl, ?_⟩, ?_⟩
  · simp
  · refine Or.inr ⟨hi, ?_, ?_⟩
    · intro hlast
      have h31 := congrArg BitVec.toNat hlast
      rw [Ep0Arms.child_setChild, hsucc] at h31
      change a.child.toNat + 1 = 31 at h31
      omega
    · rw [Ep0Arms.child_setChild, hsucc]
      exact hc
  · rw [upcoming, Ep0Arms.child_setChild, hsucc]
    rfl

/-- Past the last child the hook has none, and all it can have done is to
write behind its length pointer. -/
theorem moveToInterfaceChildDescriptor_end (hs : Serves fw tree) {a : Ep0Arms}
    (hi : a.interface.toNat < tree.interfaces.length)
    (hc : a.child.toNat =
      tree.interfaces[a.interface.toNat].children.length) :
    ∃ length, moveToInterfaceChildDescriptor fw a =
      (false, a.setRemaining length) := by
  have hend := hs.child_end _ hi a.remaining
  rw [← hc] at hend
  simp only [moveToInterfaceChildDescriptor, hend, if_true]
  exact ⟨_, rfl⟩

theorem moveToNextDescriptor_start (hs : Serves fw tree) {a : Ep0Arms}
    (hmark : a.child = 31) (hzero : a.interface = 0) :
    (∃ d a', moveToNextDescriptor fw a = (true, a') ∧ MovedTo tree a a' d ∧
        upcoming tree a = d :: upcoming tree a') ∨
      (∃ a', moveToNextDescriptor fw a = (false, a')) ∧ upcoming tree a = [] := by
  have hz : a.interface.toNat = 0 := by rw [hzero]; rfl
  have hup : upcoming tree a =
      tree.interfaces.flatMap Interface.descriptors := by
    rw [upcoming, hmark]
    exact upcoming_mark tree _
  rw [moveToNextDescriptor_mark hmark]
  by_cases hempty : tree.interfaces = []
  · right
    refine ⟨⟨a, moveToInterfaceDescriptor_end hs ?_⟩, ?_⟩
    · rw [hz, hempty, List.length_nil]
    · rw [hup, hempty, List.flatMap_nil]
  · left
    have hlt : a.interface.toNat < tree.interfaces.length := by
      rw [hz]
      exact List.length_pos_iff.mpr hempty
    obtain ⟨a', hmove, hto, hnext⟩ := moveToInterfaceDescriptor_serves hs hlt
    refine ⟨_, a', hmove, hto, ?_⟩
    obtain ⟨f, rest, hcons⟩ := List.exists_cons_of_ne_nil hempty
    rw [hup, hnext]
    simp [hz, hcons, Tree.upcoming, Interface.descriptors]

theorem moveToNextDescriptor_past (hs : Serves fw tree) {a : Ep0Arms}
    (hi : a.interface.toNat < tree.interfaces.length) (hmark : a.child ≠ 31)
    (hc : a.child.toNat =
      tree.interfaces[a.interface.toNat].children.length) :
    (∃ d a', moveToNextDescriptor fw a = (true, a') ∧ MovedTo tree a a' d ∧
        upcoming tree a = d :: upcoming tree a') ∨
      (∃ a', moveToNextDescriptor fw a = (false, a')) ∧ upcoming tree a = [] := by
  have hne : tree.interfaces[a.interface.toNat].children.length ≠ 31 := by
    have := toNat_child_ne hmark
    omega
  have h8 := hs.interfaces_le
  obtain ⟨length, hchild⟩ := moveToInterfaceChildDescriptor_end hs hi hc
  by_cases hseven : a.interface = 7
  · right
    have h7 : a.interface.toNat = 7 := by rw [hseven]; rfl
    refine ⟨⟨_, moveToNextDescriptor_last hmark hchild hseven⟩, ?_⟩
    rw [upcoming, hc, upcoming_end hi (by omega) hne]
  · have hsucc := toNat_interface_succ hseven
    rw [moveToNextDescriptor_interface hmark hchild hseven]
    rcases Nat.lt_or_ge (a.interface.toNat + 1) tree.interfaces.length
      with hlt | hge
    · left
      have hb : ((a.setRemaining length).setInterface
          (a.interface + 1)).interface.toNat = a.interface.toNat + 1 := hsucc
      obtain ⟨a', hmove, hto, hnext⟩ :=
        moveToInterfaceDescriptor_serves hs (hb.symm ▸ hlt)
      refine ⟨_, a', hmove,
        ⟨hto.valid, hto.cursor, hto.remaining, hto.request, hto.total,
          hto.onTree⟩, ?_⟩
      simp only [hnext, hb]
      rw [upcoming, hc, upcoming_interface hlt hne]
    · right
      refine ⟨⟨_, moveToInterfaceDescriptor_end hs ?_⟩, ?_⟩
      · simp only [Ep0Arms.interface_setInterface, Ep0Arms.interface_setRemaining]
        omega
      · rw [upcoming, hc, upcoming_end hi (by omega) hne]

/-- One move of the walk: it takes the first descriptor off `upcoming`, and
finds none exactly when there is none. -/
theorem moveToNextDescriptor_serves (hs : Serves fw tree) {a : Ep0Arms}
    (ha : OnTree tree a) :
    (∃ d a', moveToNextDescriptor fw a = (true, a') ∧ MovedTo tree a a' d ∧
        upcoming tree a = d :: upcoming tree a') ∨
      (∃ a', moveToNextDescriptor fw a = (false, a')) ∧ upcoming tree a = [] := by
  rcases ha with ⟨hmark, hzero⟩ | ⟨hi, hmark, hc⟩
  · exact moveToNextDescriptor_start hs hmark hzero
  · rcases Nat.lt_or_ge a.child.toNat
      tree.interfaces[a.interface.toNat].children.length with hlt | hge
    · left
      have hle := hs.children_le _ (List.getElem_mem hi)
      obtain ⟨a', hmove, hto, hnext⟩ :=
        moveToInterfaceChildDescriptor_serves hs hi hlt
      refine ⟨_, a', moveToNextDescriptor_child hmark hmove, hto, ?_⟩
      rw [hnext, upcoming, upcoming_child hi hlt (by omega)]
    · exact moveToNextDescriptor_past hs hi hmark (Nat.le_antisymm hc hge)

end Ch552e.Proofs
