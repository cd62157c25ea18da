import Ch552e.Proofs.StreamRun
import Ch552e.Spec.Walk

/-!
# The walk goes through the descriptors in order

The child index of the stream counts the children selected of an interface,
and its largest value, 31, is the mark of the configuration descriptor. So an
interface with thirty-one children has its last one taken for the
configuration descriptor, and the walk selects the same interface once more.

`walk_inOrder_iff` says that this is the only way to go wrong. On any hooks,
at any point of a data stage, the walk has been in order exactly if it has not
been given a thirty-first child.
-/

namespace Ch552e.Proofs

open Ch552e.Lib Ch552e.Ref Ch552e.Spec

variable {fw : Firmware} {s₀ : Ep0} {p : UsbSetupPacket} {a b : Ep0Arms}
  {f : Filling} {trace : List StreamEvent}

/-! ## What a move does -/

def childHook (fw : Firmware) (a : Ep0Arms) : UInt16 × UInt8 :=
  fw.usbGetInterfaceChildDescriptor (UInt8.ofNat a.interface.toNat)
    (UInt8.ofNat a.child.toNat) a.remaining

/-- The moves that find a descriptor. -/
inductive MoveStep (fw : Firmware) (a b : Ep0Arms) : Prop where
  | first (hmark : a.child = 31) (hinterface : b.interface = a.interface)
      (hchild : b.child = 0)
      (hptr : b.cursor =
        fw.usbGetInterfaceDescriptor (UInt8.ofNat b.interface.toNat))
  | child (hmark : a.child ≠ 31) (hfound : (childHook fw a).1 ≠ 0)
      (hinterface : b.interface = a.interface) (hchild : b.child = a.child + 1)
      (hptr : b.cursor = (childHook fw a).1)
  | interface (hmark : a.child ≠ 31) (hend : (childHook fw a).1 = 0)
      (hlast : a.interface ≠ 7) (hinterface : b.interface = a.interface + 1)
      (hchild : b.child = 0)
      (hptr : b.cursor =
        fw.usbGetInterfaceDescriptor (UInt8.ofNat b.interface.toNat))

theorem moveToInterfaceDescriptor_found
    (h : moveToInterfaceDescriptor fw a = (true, b)) :
    b.interface = a.interface ∧ b.child = 0 ∧ b.cursor =
      fw.usbGetInterfaceDescriptor (UInt8.ofNat b.interface.toNat) := by
  unfold moveToInterfaceDescriptor at h
  dsimp only at h
  split at h
  · simp at h
  · obtain ⟨_, rfl⟩ := Prod.mk.injEq .. ▸ h
    simp

theorem moveToInterfaceDescriptor_none
    (h : moveToInterfaceDescriptor fw a = (false, b)) : b = a := by
  unfold moveToInterfaceDescriptor at h
  dsimp only at h
  split at h
  · exact (Prod.mk.injEq .. ▸ h).2.symm
  · simp at h

theorem moveToInterfaceChildDescriptor_eq (fw : Firmware) (a : Ep0Arms) :
    moveToInterfaceChildDescriptor fw a =
      if (childHook fw a).1 = 0 then (false, a.setRemaining (childHook fw a).2)
      else (true, ((a.setRemaining (childHook fw a).2).setCursor
        (childHook fw a).1).setChild (a.child + 1)) := rfl

theorem moveToNextDescriptor_step (h : moveToNextDescriptor fw a = (true, b)) :
    MoveStep fw a b := by
  by_cases hmark : a.child = 31
  · rw [moveToNextDescriptor_mark hmark] at h
    obtain ⟨hi, hc, hptr⟩ := moveToInterfaceDescriptor_found h
    exact .first hmark hi hc hptr
  · have heq := moveToInterfaceChildDescriptor_eq fw a
    by_cases hend : (childHook fw a).1 = 0
    · rw [if_pos hend] at heq
      by_cases hlast : a.interface = 7
      · rw [moveToNextDescriptor_last hmark heq hlast] at h
        simp at h
      · rw [moveToNextDescriptor_interface hmark heq hlast] at h
        obtain ⟨hi, hc, hptr⟩ := moveToInterfaceDescriptor_found h
        exact .interface hmark hend hlast hi hc hptr
    · rw [if_neg hend] at heq
      rw [moveToNextDescriptor_child hmark heq] at h
      obtain ⟨_, rfl⟩ := Prod.mk.injEq .. ▸ h
      exact .child hmark hend rfl rfl (by simp)

theorem moveToNextDescriptor_none (h : moveToNextDescriptor fw a = (false, b)) :
    b.child = a.child := by
  by_cases hmark : a.child = 31
  · rw [moveToNextDescriptor_mark hmark] at h
    rw [moveToInterfaceDescriptor_none h]
  · have heq := moveToInterfaceChildDescriptor_eq fw a
    by_cases hend : (childHook fw a).1 = 0
    · rw [if_pos hend] at heq
      by_cases hlast : a.interface = 7
      · rw [moveToNextDescriptor_last hmark heq hlast] at h
        obtain ⟨_, rfl⟩ := Prod.mk.injEq .. ▸ h
        rfl
      · rw [moveToNextDescriptor_interface hmark heq hlast] at h
        rw [moveToInterfaceDescriptor_none h]
        rfl
    · rw [if_neg hend] at heq
      rw [moveToNextDescriptor_child hmark heq] at h
      simp at h

/-! ## The invariant -/

/-- The walk so far was in order: it swept the descriptors that exist, selected
each where the hooks have it, and the child index was the mark for no
descriptor but the configuration descriptor. -/
structure InOrder (fw : Firmware) (f : Filling) : Prop where
  sweep : Sweep (Place.Exists fw) (visited f.trace)
  hooks : ∀ d ∈ selections f.trace, d.2.ptr = d.1.pointer fw
  mark : f.arms.child = 31 → (visited f.trace).head? = some .config
  unmarked : ∀ a b, .move a (some b) ∈ f.trace → b.child ≠ 31

/-- No interface gave the walk a thirty-first child: wherever it asked for
one, there was none. -/
def BelowMark (fw : Firmware) (trace : List StreamEvent) : Prop :=
  ∀ a r, .move a r ∈ trace → a.child = 30 → (childHook fw a).1 = 0

/-- The moves of the trace are moves the walk made, each from a descriptor that
was through. -/
def Genuine (fw : Firmware) (trace : List StreamEvent) : Prop :=
  ∀ a r, .move a r ∈ trace → a.remaining = 0 ∧
    ∃ found b, moveToNextDescriptor fw a = (found, b) ∧
      r = if found then some b else none

/-- The two indices stand at the descriptor selected last. -/
def Stands (a : Ep0Arms) (trace : List StreamEvent) : Prop :=
  a.child = 31 ∧ a.interface = 0 ∧ visited trace = [.config] ∨
    a.child ≠ 31 ∧ ∃ before, visited trace = placeOf a :: before

structure Walks (fw : Firmware) (f : Filling) : Prop where
  genuine : Genuine fw f.trace
  inOrder : BelowMark fw f.trace → InOrder fw f
  stands : BelowMark fw f.trace → f.arms.cursor ≠ 0 → Stands f.arms f.trace

theorem placeOf_lt_iff {d : Place} : placeOf a < d ↔
    a.interface.toNat + 1 < (ofLex d.rank).1 ∨
      a.interface.toNat + 1 = (ofLex d.rank).1 ∧
        a.child.toNat < (ofLex d.rank).2 := by
  rw [Place.lt_iff, rank_placeOf]
  exact Prod.Lex.lt_iff

theorem placeOf_le_iff {d : Place} : placeOf a ≤ d ↔
    a.interface.toNat + 1 < (ofLex d.rank).1 ∨
      a.interface.toNat + 1 = (ofLex d.rank).1 ∧
        a.child.toNat ≤ (ofLex d.rank).2 := by
  rw [Place.le_iff, rank_placeOf]
  exact Prod.Lex.le_iff

theorem pointer_interface (h : b.child = 0) :
    (placeOf b).pointer fw =
      fw.usbGetInterfaceDescriptor (UInt8.ofNat b.interface.toNat) := by
  rw [placeOf, if_pos h, Place.pointer]

theorem pointer_child (hrem : a.remaining = 0) (hmark : a.child ≠ 31)
    (hinterface : b.interface = a.interface) (hchild : b.child = a.child + 1) :
    (placeOf b).pointer fw = (childHook fw a).1 := by
  have hsucc := toNat_child_succ hmark
  have hne : b.child ≠ 0 := by
    intro hz
    rw [← hchild, hz] at hsucc
    exact absurd hsucc (by simp)
  rw [placeOf, if_neg hne, Place.pointer, childHook, hrem, hinterface, hchild,
    hsucc, Nat.add_sub_cancel]

/-- The place a move selects comes after the current one, and nothing that
exists comes between. -/
theorem MoveStep.next (h : MoveStep fw a b) (hrem : a.remaining = 0)
    (hmark : a.child ≠ 31) : placeOf a < placeOf b ∧
      ∀ d : Place, d.Exists fw → placeOf a < d → placeOf b ≤ d := by
  simp only [placeOf_lt_iff, placeOf_le_iff, rank_placeOf, ofLex_toLex]
  cases h with
  | first h31 => exact absurd h31 hmark
  | child _ _ hi hc _ =>
      have hsucc := toNat_child_succ hmark
      rw [hi, hc, hsucc]
      exact ⟨by omega, fun d _ hd => by omega⟩
  | interface _ hend hlast hi hc _ =>
      have hsucc := toNat_interface_succ hlast
      have hzero : b.child.toNat = 0 := by rw [hc]; rfl
      rw [hi, hsucc, hzero]
      refine ⟨by omega, ?_⟩
      intro d hd hlt
      cases d with
      | config => simp [Place.rank] at hlt
      | interface i =>
          simp only [Place.rank, ofLex_toLex] at hlt ⊢
          omega
      | child i j =>
          simp only [Place.rank, ofLex_toLex] at hlt ⊢
          -- a child of the same interface: the hook ended the list before it
          by_contra hge
          obtain ⟨rfl, hle⟩ :
              i = a.interface.toNat ∧ a.child.toNat ≤ j := by omega
          refine hd.2.2 a.child.toNat hle ?_
          rw [Place.pointer, ← hrem]
          exact hend

theorem MoveStep.first_of_mark (h : MoveStep fw a b) (hmark : a.child = 31) :
    b.interface = a.interface ∧ b.child = 0 := by
  cases h with
  | first _ hi hc _ => exact ⟨hi, hc⟩
  | child hne | interface hne => exact absurd hmark hne

theorem MoveStep.pointer (h : MoveStep fw a b) (hrem : a.remaining = 0) :
    b.cursor = (placeOf b).pointer fw := by
  cases h with
  | first _ _ hc hptr => rw [hptr, pointer_interface hc]
  | child hmark _ hi hc hptr => rw [hptr, pointer_child hrem hmark hi hc]
  | interface _ _ _ _ hc hptr => rw [hptr, pointer_interface hc]

/-- Short of a thirty-first child, a move does not produce the mark. -/
theorem MoveStep.unmarked (h : MoveStep fw a b)
    (hbelow : a.child = 30 → (childHook fw a).1 = 0) : b.child ≠ 31 := by
  cases h with
  | first _ _ hc _ | interface _ _ _ _ hc _ => rw [hc]; decide
  | child hmark hfound _ hc _ =>
      intro h31
      have hsucc := toNat_child_succ hmark
      rw [← hc, h31] at hsucc
      refine hfound (hbelow (BitVec.eq_of_toNat_eq ?_))
      change 31 = _ at hsucc
      change _ = 30
      omega

/-! ## A turn keeps it -/

theorem belowMark_cons {e : StreamEvent} (h : BelowMark fw (e :: trace)) :
    BelowMark fw trace := by
  intro a r hmem
  exact h a r (List.mem_cons_of_mem _ hmem)

/-- A copy does, and there the indices stand at the last selection whatever
becomes of the cursor. -/
theorem Walks.copy (h : Walks fw f) (hcont : f.continues = true) :
    Walks fw (f.copy fw) ∧ (BelowMark fw (f.copy fw).trace →
      Stands (f.copy fw).arms (f.copy fw).trace) := by
  have hcursor := (continues_iff.mp hcont).1
  have hold : ∀ a r, StreamEvent.move a r ∈ (f.copy fw).trace →
      .move a r ∈ f.trace := by
    intro a r hmem
    simpa [Filling.copy] using hmem
  have hbelow : BelowMark fw (f.copy fw).trace → BelowMark fw f.trace :=
    belowMark_cons
  have hstands : BelowMark fw (f.copy fw).trace →
      Stands (f.copy fw).arms (f.copy fw).trace := by
    intro below
    exact h.stands (hbelow below) hcursor
  refine ⟨⟨?_, ?_, fun below _ => hstands below⟩, hstands⟩
  · intro a r hmem
    exact h.genuine a r (hold a r hmem)
  · intro below
    have hin := h.inOrder (hbelow below)
    exact ⟨hin.sweep, hin.hooks, hin.mark,
      fun a b hmem => hin.unmarked a b (hold a _ hmem)⟩

theorem genuine_move {r : Option Ep0Arms} (h : Genuine fw trace)
    (hrem : a.remaining = 0)
    (hmove : ∃ found b, moveToNextDescriptor fw a = (found, b) ∧
      r = if found then some b else none) :
    Genuine fw (.move a r :: trace) := by
  intro c q hmem
  rcases List.mem_cons.mp hmem with heq | hmem
  · injection heq with hc hq
    subst hc hq
    exact ⟨hrem, hmove⟩
  · exact h c q hmem

/-- The sweep goes on with what a move selects. -/
theorem Stands.sweep (h : Stands a trace) (hstep : MoveStep fw a b)
    (hrem : a.remaining = 0)
    (hsweep : Sweep (Place.Exists fw) (visited trace)) :
    Sweep (Place.Exists fw) (placeOf b :: visited trace) := by
  rcases h with ⟨hmark, hzero, honly⟩ | ⟨hmark, before, hbefore⟩
  · -- from the configuration descriptor to interface 0
    obtain ⟨hi, hc⟩ := hstep.first_of_mark hmark
    have hplace : placeOf b = .interface 0 := by
      rw [placeOf, if_pos hc, hi, hzero]
      rfl
    rw [honly] at hsweep ⊢
    rw [hplace]
    refine hsweep.cons (by decide) ?_
    intro d _ hd
    cases d with
    | config => exact absurd hd (lt_irrefl _)
    | interface | child =>
        rw [Place.le_iff, Prod.Lex.le_iff]
        simp [Place.rank]
        omega
  · rw [hbefore] at hsweep ⊢
    obtain ⟨hlt, hgap⟩ := hstep.next hrem hmark
    exact hsweep.cons hlt hgap

theorem Walks.moved (h : Walks fw f)
    (hstands : BelowMark fw f.trace → Stands f.arms f.trace)
    (hrem : f.arms.remaining = 0)
    (hmove : moveToNextDescriptor fw f.arms = (true, b)) :
    Walks fw { f with
      arms := b
      trace := .move f.arms (some b) :: f.trace } := by
  have hstep := moveToNextDescriptor_step hmove
  have hmark : BelowMark fw (.move f.arms (some b) :: f.trace) →
      b.child ≠ 31 := by
    intro below
    exact hstep.unmarked (below f.arms (some b) List.mem_cons_self)
  refine ⟨genuine_move h.genuine hrem ⟨true, b, hmove, rfl⟩, ?_, ?_⟩
  · intro below
    have hin := h.inOrder (belowMark_cons below)
    refine ⟨?_, ?_, ?_, ?_⟩
    · exact (hstands (belowMark_cons below)).sweep hstep hrem hin.sweep
    · intro d hd
      rcases List.mem_cons.mp hd with rfl | hd
      · exact hstep.pointer hrem
      · exact hin.hooks d hd
    · intro h31
      exact absurd h31 (hmark below)
    · intro c q hmem
      rcases List.mem_cons.mp hmem with heq | hmem
      · injection heq with _ hq
        injection hq with hq
        exact hq ▸ hmark below
      · exact hin.unmarked c q hmem
  · intro below _
    exact .inr ⟨hmark below, visited f.trace, rfl⟩

theorem Walks.ended (h : Walks fw f) (hrem : f.arms.remaining = 0)
    (hmove : moveToNextDescriptor fw f.arms = (false, b)) :
    Walks fw { f with
      arms := b.setCursor 0
      trace := .move f.arms none :: f.trace } := by
  refine ⟨genuine_move h.genuine hrem ⟨false, b, hmove, rfl⟩, ?_, ?_⟩
  · intro below
    have hin := h.inOrder (belowMark_cons below)
    refine ⟨hin.sweep, hin.hooks, ?_, ?_⟩
    · intro h31
      apply hin.mark
      rw [← moveToNextDescriptor_none hmove]
      exact h31
    · intro c q hmem
      rcases List.mem_cons.mp hmem with heq | hmem
      · injection heq with _ hq
        exact absurd hq (by simp)
      · exact hin.unmarked c q hmem
  · intro _ hcursor
    exact absurd (Ep0Arms.cursor_setCursor b 0) hcursor

theorem Walks.turn (h : Walks fw f) : Walks fw (fillTurn fw f).2 := by
  have hturn := fillTurn_turn fw f
  generalize fillTurn fw f = r at hturn
  cases hturn with
  | stop _ => exact h
  | drained hcont _ | again hcont _ _ _ => exact (h.copy hcont).1
  | moved hcont _ _ hrem a hmove =>
      exact (h.copy hcont).1.moved (h.copy hcont).2 hrem hmove
  | ended hcont _ _ hrem a hmove => exact (h.copy hcont).1.ended hrem hmove

theorem walks_start (fw : Firmware) (s₀ : Ep0) (p : UsbSetupPacket) :
    Walks fw (filling (streamStart fw s₀ p)) where
  genuine a r hmem := by
    simp [filling, streamStart, startConfigStream] at hmem
  inOrder _ :=
    { sweep := by
        apply Sweep.single
        intro d _
        rw [Place.le_iff, Prod.Lex.le_iff]
        cases d <;> simp [Place.rank]
      hooks := by
        intro d hd
        obtain rfl := List.mem_singleton.mp hd
        simp [Place.pointer]
      mark := fun _ => rfl
      unmarked := by
        intro a b hmem
        simp [filling, streamStart, startConfigStream] at hmem }
  stands _ _ := .inl ⟨rfl, rfl, rfl⟩

theorem Walks.restart (h : Walks fw f) :
    Walks fw { f with filledBytes := 0 } := by
  refine ⟨h.genuine, ?_, h.stands⟩
  intro below
  have hin := h.inOrder below
  exact ⟨hin.sweep, hin.hooks, hin.mark, hin.unmarked⟩

/-- Hooks that look up a tree with at most thirty children to an interface. -/
theorem belowMark_firmware {tree : Tree} {code : UInt16 → UInt8} {device : UInt16}
    (hchildren : ∀ f ∈ tree.interfaces, f.children.length ≤ 30)
    (trace : List StreamEvent) : BelowMark (tree.firmware code device) trace := by
  intro a r _ h30
  have hc : a.child.toNat = 30 := by
    rw [h30]
    rfl
  have hi : a.interface.toNat < 256 := by omega
  rw [childHook, child_firmware hi (by omega), hc]
  cases hf : tree.interfaces[a.interface.toNat]? with
  | none => rfl
  | some f =>
      rw [Option.bind_some,
        List.getElem?_eq_none (hchildren f (List.mem_of_getElem? hf)),
        Option.elim_none]

/-! ## Thirty children and thirty-one -/

def vendorDescriptorAddress : UInt16 := 0x0160

/-- Two interfaces of nine bytes each, the first one with thirty-one children of
two bytes: 89 bytes with the configuration descriptor. -/
def crowded : Firmware where
  code p :=
    if p = configurationDescriptorAddress + 2 then 89
    else if p = configurationDescriptorAddress + 4 then 2
    else if p = vendorDescriptorAddress then 2
    else if p = vendorDescriptorAddress + 1 then 0xFF
    else demoCode p
  usbGetDeviceDescriptor := deviceDescriptorAddress
  usbGetConfigurationDescriptor := configurationDescriptorAddress
  usbGetInterfaceDescriptor index :=
    if index > 1 then 0 else interfaceDescriptorAddress
  usbGetInterfaceChildDescriptor ifIndex index length :=
    if ifIndex = 0 ∧ index < 31 then (vendorDescriptorAddress, 2)
    else (0, length)
  usbSetupFifoSize := 8

/-- One child fewer. -/
def filledTree : Tree where
  config := ⟨configurationDescriptorAddress, 9⟩
  interfaces :=
    [⟨⟨interfaceDescriptorAddress, 9⟩,
      List.replicate 30 ⟨vendorDescriptorAddress, 2⟩⟩,
    ⟨⟨interfaceDescriptorAddress, 9⟩, []⟩]

def filled : Firmware := filledTree.firmware crowded.code deviceDescriptorAddress

/-- At any point of a data stage: the walk has been in order exactly if no
interface has given it a thirty-first child. -/
theorem walk_inOrder_iff (hp : isGetConfigurationDescriptor p = true)
    (h : StreamAt fw s₀ p f) : InOrder fw f ↔ BelowMark fw f.trace := by
  have hwalks : Walks fw f :=
    h.inv hp (walks_start fw s₀ p) (fun _ hf => hf.restart) fun _ hf => hf.turn
  refine ⟨?_, hwalks.inOrder⟩
  intro hin a r hmem h30
  by_contra hfound
  have hmark : a.child ≠ 31 := by rw [h30]; decide
  have heq := moveToInterfaceChildDescriptor_eq fw a
  rw [if_neg hfound] at heq
  obtain ⟨_, found, b, hmove, hr⟩ := hwalks.genuine a r hmem
  rw [moveToNextDescriptor_child hmark heq] at hmove
  obtain ⟨rfl, rfl⟩ := Prod.mk.injEq .. ▸ hmove
  subst hr
  refine hin.unmarked _ _ hmem ?_
  rw [Ep0Arms.child_setChild, h30]
  decide

theorem walk_inOrder_iff_filled :
    ∃ f, StreamAt filled (usbEp0Init powerOn) (readConfiguration 255) f ∧
      (visited f.trace).head? = some (.interface 1) ∧
      Place.child 0 29 ∈ visited f.trace ∧ InOrder filled f ∧
      (InOrder filled f ↔ BelowMark filled f.trace) := by
  have hrun : (runs (ep0Step filled) (usbEp0Init powerOn)
      (dataStageEvents (readConfiguration 255) 0)).map (fun s => (s.state,
        (visited (orbit (fillTurn filled) 10 (filling s)).trace).head?,
        decide (Place.child 0 29 ∈
          visited (orbit (fillTurn filled) 10 (filling s)).trace))) =
      some (.sendConfigurationDescriptor, some (.interface 1), true) := by
    decide +kernel
  obtain ⟨s, hs, hlast⟩ := Option.map_eq_some_iff.mp hrun
  simp only [Prod.mk.injEq] at hlast
  obtain ⟨hstate, hhead, hchild⟩ := hlast
  have hat := StreamAt.tokenIn hs hstate 10
  have hiff := walk_inOrder_iff (by decide) hat
  exact ⟨_, hat, hhead, of_decide_eq_true hchild,
    hiff.mpr (belowMark_firmware (by decide) _), hiff⟩

/-- In the packet after the first 64 bytes interface 0 comes a second time,
where interface 1 should. -/
theorem crowded_revisits :
    ∃ f, StreamAt crowded (usbEp0Init powerOn) (readConfiguration 255) f ∧
      ¬ InOrder crowded f := by
  have hrun : (runs (ep0Step crowded) (usbEp0Init powerOn)
      (dataStageEvents (readConfiguration 255) 0)).map (fun s => (s.state,
        decide (visited (orbit (fillTurn crowded) 10 (filling s)).trace).Nodup)) =
      some (.sendConfigurationDescriptor, false) := by
    decide +kernel
  obtain ⟨s, hs, hlast⟩ := Option.map_eq_some_iff.mp hrun
  obtain ⟨hstate, htwice⟩ := Prod.mk.injEq .. ▸ hlast
  exact ⟨_, .tokenIn hs hstate 10,
    fun hin => of_decide_eq_false htwice hin.sweep.nodup⟩

end Ch552e.Proofs
