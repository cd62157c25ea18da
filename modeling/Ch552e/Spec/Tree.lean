import Ch552e.Ref.Main

/-!
# Descriptor trees

What the configuration hooks describe: a configuration descriptor and a list
of interfaces, each with its child descriptors. A descriptor is the place of
its bytes in program memory and their number.

`Serves fw tree` says that the hooks of `fw` describe `tree`: they answer the
descriptors at the indices that exist and `NULL` at the first index that does
not. The bounds, eight interfaces and thirty children each, are what the
stream's two bit-fields can count, thirty-one being taken as the mark of the
configuration descriptor. Any tree within them has a program (`serves_firmware`).

`upcoming` is the tree as seen from a position of the walk: the descriptors
still to come after the current one.
-/

namespace Ch552e.Spec

open Ch552e.Lib Ch552e.Ref

/-- A descriptor: where it is, and its length as reported. -/
structure Descriptor where
  ptr : UInt16
  len : UInt8
deriving DecidableEq

structure Interface where
  desc : Descriptor
  children : List Descriptor

structure Tree where
  config : Descriptor
  interfaces : List Interface

def Descriptor.bytes (fw : Firmware) (d : Descriptor) : List UInt8 :=
  slice (fw.bytesAt d.ptr) 0 d.len.toNat

/-- An object of program memory: not at the null address, and with an address
one past its end, which the stream's cursor takes. -/
def Descriptor.Valid (d : Descriptor) : Prop :=
  d.ptr ≠ 0 ∧ d.ptr.toNat + d.len.toNat < 2 ^ 16

instance (d : Descriptor) : Decidable d.Valid :=
  inferInstanceAs (Decidable (_ ∧ _))

def Interface.descriptors (f : Interface) : List Descriptor :=
  f.desc :: f.children

/-- The descriptors in the order a host reads them. -/
def Tree.descriptors (tree : Tree) : List Descriptor :=
  tree.config :: tree.interfaces.flatMap Interface.descriptors

def Tree.bytes (fw : Firmware) (tree : Tree) : List UInt8 :=
  tree.descriptors.flatMap (Descriptor.bytes fw)

/-- The hooks of `fw` describe `tree`. -/
structure Serves (fw : Firmware) (tree : Tree) : Prop where
  valid : ∀ d ∈ tree.descriptors, d.Valid
  config_ptr : fw.usbGetConfigurationDescriptor = tree.config.ptr
  config_len : fw.code tree.config.ptr = tree.config.len
  interfaces_le : tree.interfaces.length ≤ 8
  interface_ptr : ∀ i (h : i < tree.interfaces.length),
    fw.usbGetInterfaceDescriptor (UInt8.ofNat i) = tree.interfaces[i].desc.ptr
  interface_len : ∀ f ∈ tree.interfaces, fw.code f.desc.ptr = f.desc.len
  interface_end : tree.interfaces.length < 8 →
    fw.usbGetInterfaceDescriptor (UInt8.ofNat tree.interfaces.length) = 0
  children_le : ∀ f ∈ tree.interfaces, f.children.length ≤ 30
  child : ∀ i (h : i < tree.interfaces.length) j
    (hj : j < tree.interfaces[i].children.length) old,
    fw.usbGetInterfaceChildDescriptor (UInt8.ofNat i) (UInt8.ofNat j) old =
      (tree.interfaces[i].children[j].ptr, tree.interfaces[i].children[j].len)
  child_end : ∀ i (h : i < tree.interfaces.length) old,
    (fw.usbGetInterfaceChildDescriptor (UInt8.ofNat i)
      (UInt8.ofNat tree.interfaces[i].children.length) old).1 = 0

/-- The descriptors after the current one, from the walk's two indices: with
the mark 31 the current one is the configuration descriptor, otherwise `child`
children of interface `interface` are done. -/
def Tree.upcoming (tree : Tree) (interface child : Nat) : List Descriptor :=
  if child = 31 then
    tree.interfaces.flatMap Interface.descriptors
  else
    ((tree.interfaces[interface]?).elim [] fun f => f.children.drop child) ++
      (tree.interfaces.drop (interface + 1)).flatMap Interface.descriptors

theorem upcoming_mark (tree : Tree) (interface : Nat) :
    tree.upcoming interface 31 =
      tree.interfaces.flatMap Interface.descriptors := if_pos rfl

theorem upcoming_child {tree : Tree} {i c : Nat} (hi : i < tree.interfaces.length)
    (hc : c < tree.interfaces[i].children.length) (hmark : c + 1 < 31) :
    tree.upcoming i c =
      tree.interfaces[i].children[c] :: tree.upcoming i (c + 1) := by
  rw [Tree.upcoming, Tree.upcoming, if_neg (by omega), if_neg (by omega),
    List.getElem?_eq_getElem hi]
  simp only [Option.elim_some]
  rw [List.drop_eq_getElem_cons hc, List.cons_append]

theorem upcoming_interface {tree : Tree} {i : Nat}
    (hi : i + 1 < tree.interfaces.length)
    (hmark : tree.interfaces[i].children.length ≠ 31) :
    tree.upcoming i tree.interfaces[i].children.length =
      tree.interfaces[i + 1].desc :: tree.upcoming (i + 1) 0 := by
  rw [Tree.upcoming, Tree.upcoming, if_neg hmark, if_neg (by omega),
    List.getElem?_eq_getElem (show i < tree.interfaces.length by omega),
    List.getElem?_eq_getElem hi, List.drop_eq_getElem_cons hi]
  simp only [Option.elim_some, List.drop_length, List.nil_append,
    List.drop_zero, List.flatMap_cons, Interface.descriptors, List.cons_append]

theorem upcoming_end {tree : Tree} {i : Nat} (hi : i < tree.interfaces.length)
    (hlast : i + 1 = tree.interfaces.length)
    (hmark : tree.interfaces[i].children.length ≠ 31) :
    tree.upcoming i tree.interfaces[i].children.length = [] := by
  rw [Tree.upcoming, if_neg hmark, List.getElem?_eq_getElem hi, hlast]
  simp

/-! ## A program for every tree -/

/-- Hooks that look the descriptors up in the tree. -/
def Tree.firmware (tree : Tree) (code : UInt16 → UInt8) (device : UInt16) :
    Firmware where
  code := code
  usbGetDeviceDescriptor := device
  usbGetConfigurationDescriptor := tree.config.ptr
  usbGetInterfaceDescriptor index :=
    (tree.interfaces[index.toNat]?).elim 0 fun f => f.desc.ptr
  usbGetInterfaceChildDescriptor ifIndex index length :=
    ((tree.interfaces[ifIndex.toNat]?).bind fun f =>
      f.children[index.toNat]?).elim (0, length) fun d => (d.ptr, d.len)
  usbSetupFifoSize := 8

section Lookup

variable {tree : Tree} {code : UInt16 → UInt8} {device : UInt16} {i j : Nat}

theorem interface_firmware (hi : i < 256) :
    (tree.firmware code device).usbGetInterfaceDescriptor (UInt8.ofNat i) =
      (tree.interfaces[i]?).elim 0 fun f => f.desc.ptr := by
  simp only [Tree.firmware, UInt8.toNat_ofNat_of_lt' hi]

theorem child_firmware (hi : i < 256) (hj : j < 256) (old : UInt8) :
    (tree.firmware code device).usbGetInterfaceChildDescriptor (UInt8.ofNat i)
        (UInt8.ofNat j) old =
      ((tree.interfaces[i]?).bind fun f => f.children[j]?).elim (0, old) fun d =>
        (d.ptr, d.len) := by
  simp only [Tree.firmware, UInt8.toNat_ofNat_of_lt' hi, UInt8.toNat_ofNat_of_lt' hj]

/-- Every tree within the bounds is described by the hooks of some program. -/
theorem serves_firmware (device : UInt16) (hvalid : ∀ d ∈ tree.descriptors, d.Valid)
    (hconfig : code tree.config.ptr = tree.config.len)
    (hinterfaces : tree.interfaces.length ≤ 8)
    (hlen : ∀ f ∈ tree.interfaces, code f.desc.ptr = f.desc.len)
    (hchildren : ∀ f ∈ tree.interfaces, f.children.length ≤ 30) :
    Serves (tree.firmware code device) tree where
  valid := hvalid
  config_ptr := rfl
  config_len := hconfig
  interfaces_le := hinterfaces
  interface_ptr i h := by
    rw [interface_firmware (by omega), List.getElem?_eq_getElem h, Option.elim_some]
  interface_len := hlen
  interface_end hlt := by
    rw [interface_firmware (by omega), List.getElem?_eq_none (Nat.le_refl _),
      Option.elim_none]
  children_le := hchildren
  child i h j hj old := by
    have hle := hchildren _ (List.getElem_mem h)
    rw [child_firmware (by omega) (by omega), List.getElem?_eq_getElem h,
      Option.bind_some, List.getElem?_eq_getElem hj, Option.elim_some]
  child_end i h old := by
    have hle := hchildren _ (List.getElem_mem h)
    rw [child_firmware (by omega) (by omega), List.getElem?_eq_getElem h,
      Option.bind_some, List.getElem?_eq_none (Nat.le_refl _), Option.elim_none]

end Lookup

/-! ## The demo program -/

def demoTree : Tree where
  config := ⟨configurationDescriptorAddress, 9⟩
  interfaces := [⟨⟨interfaceDescriptorAddress, 9⟩, []⟩]

theorem demo_serves : Serves demo demoTree where
  valid := by decide
  config_ptr := rfl
  config_len := rfl
  interfaces_le := by decide
  interface_ptr := by
    intro i h
    obtain rfl : i = 0 := by simpa [demoTree] using h
    rfl
  interface_len := by
    intro f hf
    obtain rfl := List.mem_singleton.mp hf
    rfl
  interface_end := fun _ => rfl
  children_le := by
    intro f hf
    obtain rfl := List.mem_singleton.mp hf
    decide
  child := by
    intro i h j hj _
    obtain rfl : i = 0 := by simpa [demoTree] using h
    exact absurd hj (by simp [demoTree])
  child_end := fun _ _ _ => rfl

/-! ## A program with children

A serial adapter: the interface with the modem's control descriptors and an
endpoint, and the one with the two data endpoints. The first packet of its 67
bytes breaks off in the last endpoint descriptor. -/

def serialAddress : UInt16 := 0x0200

def serialDescriptors : List UInt8 :=
  [0x09, usbDescriptorTypeConfiguration, 67, 0x00, 0x02, 0x01, 0x00, 0x80, 50,
    -- the two interfaces
    0x09, usbDescriptorTypeInterface, 0x00, 0x00, 0x01, 0x02, 0x02, 0x01, 0x00,
    0x09, usbDescriptorTypeInterface, 0x01, 0x00, 0x02, 0x0A, 0x00, 0x00, 0x00,
    -- the control descriptors
    0x05, 0x24, 0x00, 0x10, 0x01,
    0x05, 0x24, 0x01, 0x00, 0x01,
    0x04, 0x24, 0x02, 0x02,
    0x05, 0x24, 0x06, 0x00, 0x01,
    -- the three endpoints
    0x07, 0x05, 0x81, 0x03, 0x08, 0x00, 0x10,
    0x07, 0x05, 0x02, 0x02, 0x40, 0x00, 0x00,
    0x07, 0x05, 0x82, 0x02, 0x40, 0x00, 0x00]

def serialCode (p : UInt16) : UInt8 :=
  if p < serialAddress then demoCode p
  else serialDescriptors.getD (p - serialAddress).toNat 0

def serialTree : Tree where
  config := ⟨serialAddress, 9⟩
  interfaces :=
    [⟨⟨serialAddress + 9, 9⟩,
      [⟨serialAddress + 27, 5⟩, ⟨serialAddress + 32, 5⟩,
        ⟨serialAddress + 37, 4⟩, ⟨serialAddress + 41, 5⟩,
        ⟨serialAddress + 46, 7⟩]⟩,
    ⟨⟨serialAddress + 18, 9⟩,
      [⟨serialAddress + 53, 7⟩, ⟨serialAddress + 60, 7⟩]⟩]

def serial : Firmware := serialTree.firmware serialCode deviceDescriptorAddress

theorem serial_serves : Serves serial serialTree :=
  serves_firmware _ (by decide) (by decide) (by decide) (by decide) (by decide)

end Ch552e.Spec
