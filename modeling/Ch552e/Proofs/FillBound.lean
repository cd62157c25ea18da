import Ch552e.Proofs.StreamRun
import Ch552e.Ref.Main

/-!
# The fill loop always ends

An interface descriptor has at least its own length byte, and that is all that
has to be assumed of the hooks. A turn either fills the buffer further, or
copies nothing because the current descriptor is empty; then the next one is an
interface descriptor, which is not empty, or a further child. The child index
counts these: after thirty-one children at most it is the mark of the
configuration descriptor, and the walk turns to an interface.

So the level of the buffer comes first and the child index second in the
measure, and the mark, which sends the walk round in a circle on an interface
with too many children, is what ends a run of empty children.
-/

namespace Ch552e.Proofs

open Ch552e.Lib Ch552e.Ref

variable {fw : Firmware} {a b : Ep0Arms}

/-- No interface descriptor reports a length of 0. -/
def InterfacesNonempty (fw : Firmware) : Prop :=
  ∀ i, fw.usbGetInterfaceDescriptor i ≠ 0 →
    fw.code (fw.usbGetInterfaceDescriptor i) ≠ 0

/-! ## The move -/

theorem moveToInterfaceDescriptor_nonempty (hlen : InterfacesNonempty fw)
    (h : moveToInterfaceDescriptor fw a = (true, b)) : b.remaining ≠ 0 := by
  unfold moveToInterfaceDescriptor at h
  dsimp only at h
  split at h
  · simp at h
  · next hfound =>
      obtain ⟨_, rfl⟩ := Prod.mk.injEq .. ▸ h
      simp only [Ep0Arms.remaining_setChild, Ep0Arms.remaining_setRemaining]
      exact hlen _ hfound

theorem moveToInterfaceChildDescriptor_child
    (h : moveToInterfaceChildDescriptor fw a = (true, b)) :
    b.child = a.child + 1 := by
  unfold moveToInterfaceChildDescriptor at h
  dsimp only at h
  split at h
  · simp at h
  · obtain ⟨_, rfl⟩ := Prod.mk.injEq .. ▸ h
    rfl

/-- A move finds a descriptor with something in it, or the next child. -/
theorem moveToNextDescriptor_progress (hlen : InterfacesNonempty fw)
    (h : moveToNextDescriptor fw a = (true, b)) :
    b.remaining ≠ 0 ∨ a.child ≠ 31 ∧ b.child = a.child + 1 := by
  by_cases hmark : a.child = 31
  · rw [moveToNextDescriptor_mark hmark] at h
    exact .inl (moveToInterfaceDescriptor_nonempty hlen h)
  · match hchild : moveToInterfaceChildDescriptor fw a with
    | (true, c) =>
        rw [moveToNextDescriptor_child hmark hchild] at h
        obtain ⟨_, rfl⟩ := Prod.mk.injEq .. ▸ h
        exact .inr ⟨hmark, moveToInterfaceChildDescriptor_child hchild⟩
    | (false, c) =>
        by_cases hlast : c.interface = 7
        · rw [moveToNextDescriptor_last hmark hchild hlast] at h
          simp at h
        · rw [moveToNextDescriptor_interface hmark hchild hlast] at h
          exact .inl (moveToInterfaceDescriptor_nonempty hlen h)

/-! ## The measure -/

/-- How many empty descriptors can follow, the current one included. -/
def empties (a : Ep0Arms) : Nat :=
  if a.remaining = 0 then 32 - a.child.toNat else 0

/-- The turns a call has left at most. -/
def turnsLeft (f : Filling) : Nat :=
  (usbEp0BufferSize - f.filledBytes.toNat) * 33 + empties f.arms

/-- The turns of any call at most. -/
def maxTurns : Nat := usbEp0BufferSize * 33 + 33

theorem empties_le (a : Ep0Arms) : empties a ≤ 32 := by
  unfold empties
  split <;> omega

theorem turnsLeft_lt (f : Filling) : turnsLeft f < maxTurns := by
  have hle := empties_le f.arms
  unfold turnsLeft maxTurns
  omega

/-- A turn that copies something pays for all empty descriptors after it. -/
theorem turnsLeft_copied {f g : Filling}
    (hlevel : f.filledBytes.toNat < usbEp0BufferSize)
    (hmore : f.filledBytes.toNat < g.filledBytes.toNat) :
    turnsLeft g < turnsLeft f := by
  have hle := empties_le g.arms
  unfold turnsLeft
  omega

theorem empties_child (hempty : a.remaining = 0) (hmark : a.child ≠ 31)
    (hchild : b.child = a.child + 1) : empties b < empties a := by
  have hsucc := toNat_child_succ hmark
  have hlt := a.child.isLt
  have hne : a.child.toNat ≠ 31 := fun heq => hmark (BitVec.eq_of_toNat_eq heq)
  unfold empties
  rw [if_pos hempty]
  split
  · rw [hchild, hsucc]
    omega
  · omega

theorem empties_filled (hempty : a.remaining = 0) (hfilled : b.remaining ≠ 0) :
    empties b < empties a := by
  have hlt := a.child.isLt
  unfold empties
  rw [if_pos hempty, if_neg hfilled]
  omega

/-! ## The turn -/

theorem copy_grows (fw : Firmware) {f : Filling} (hcont : f.continues = true)
    (hrem : f.arms.remaining ≠ 0) :
    f.filledBytes.toNat < (f.copy fw).filledBytes.toNat := by
  obtain ⟨_, hreq, htotal, hlevel⟩ := continues_iff.mp hcont
  have hr := byte_pos hrem
  have hq := word_pos hreq
  have ht := word_pos htotal
  have hsize : (f.copy fw).filledBytes.toNat =
      f.filledBytes.toNat + (copySize f.arms f.filledBytes).toNat :=
    (toNat_filled_add (a := f.arms) (Nat.le_of_lt hlevel)).1
  rw [hsize, toNat_copySize f.arms (Nat.le_of_lt hlevel)]
  omega

theorem copy_empty (fw : Firmware) {f : Filling} (hcont : f.continues = true)
    (hempty : f.arms.remaining = 0) :
    (f.copy fw).arms.remaining = 0 ∧ (f.copy fw).filledBytes = f.filledBytes := by
  have hlevel := Nat.le_of_lt (continues_iff.mp hcont).2.2.2
  have hle := copySize_le_remaining (a := f.arms) hlevel
  rw [hempty, UInt8.toNat_zero] at hle
  have hnone : copySize f.arms f.filledBytes = 0 :=
    UInt8.toNat_inj.mp (Nat.le_zero.mp hle)
  constructor
  · simp [Filling.copy, hnone, Ep0Arms.advance, hempty]
  · simp [Filling.copy, hnone]

/-- Every turn that is followed by another one takes one off the count. -/
theorem turnsLeft_turn (hlen : InterfacesNonempty fw) {f g : Filling}
    (h : fillTurn fw f = (true, g)) : turnsLeft g < turnsLeft f := by
  have hturn := fillTurn_turn fw f
  rw [h] at hturn
  by_cases hempty : f.arms.remaining = 0
  · cases hturn with
    | again hcont _ _ hrem => exact absurd (copy_empty fw hcont hempty).1 hrem
    | moved hcont _ _ hrem a hmove =>
        have hsame := (copy_empty fw hcont hempty).2
        have hfewer : empties a < empties f.arms := by
          rcases moveToNextDescriptor_progress hlen hmove with
            hfilled | ⟨hmark, hchild⟩
          · exact empties_filled hempty hfilled
          · exact empties_child hempty hmark hchild
        simp only [turnsLeft, hsame]
        omega
  · cases hturn with
    | again hcont _ _ _ | moved hcont _ _ _ _ _ =>
        have hlevel := (continues_iff.mp hcont).2.2.2
        exact turnsLeft_copied hlevel (copy_grows fw hcont hempty)

theorem fillTurn_bound (hlen : InterfacesNonempty fw) (f : Filling) :
    ∃ r, loop (fillTurn fw) maxTurns f = some r := by
  have hbound : ∃ r, loop (fillTurn fw) maxTurns f = some r ∧ True :=
    loop_bound (I := fun k f => turnsLeft f = k)
      (fun _ f g hk hturn => ⟨turnsLeft g, hk ▸ turnsLeft_turn hlen hturn, rfl⟩)
      (fun _ _ _ _ _ => trivial) rfl (turnsLeft_lt f)
  obtain ⟨r, hr, _⟩ := hbound
  exact ⟨r, hr⟩

/-! ## The handlers -/

theorem prepare_returns (hlen : InterfacesNonempty fw) (s : Ep0) :
    ∃ length r, usbEp0PrepareDescriptor fw s = some (length, r) := by
  unfold usbEp0PrepareDescriptor
  split
  · exact ⟨_, _, rfl⟩
  · split
    · exact ⟨_, _, rfl⟩
    · obtain ⟨r, hr⟩ := fillTurn_bound hlen ⟨s.arms, s.xram, 0, s.trace⟩
      rw [fillLoop_of_loop hr]
      exact ⟨_, _, rfl⟩

theorem handleIn_returns (hlen : InterfacesNonempty fw) (s : Ep0) :
    ∃ s', usbEp0HandleIn fw s = some s' := by
  match hs : s.state with
  | .sendConfigurationDescriptor =>
      by_cases hreq : s.arms.requestRemaining = 0
      · exact ⟨_, handleIn_complete hs hreq⟩
      · obtain ⟨length, r, hprep⟩ := prepare_returns hlen s
        exact ⟨_, handleIn_prepare hs hreq hprep⟩
  | .init | .waitDeviceAddress | .waitSetConfiguration | .sendDeviceDescriptor
  | .sendConfigurationZlp | .waitStatusOut | .idle =>
      simp [usbEp0HandleIn, hs]

theorem handleSetup_returns (hlen : InterfacesNonempty fw) (p : UsbSetupPacket)
    (s : Ep0) : ∃ r, usbEp0HandleSetup fw p s = some r := by
  rcases accepts_cases p with ha | hd | hc | hset | hno
  · exact ⟨_, handleSetup_address fw s ha⟩
  · exact ⟨_, handleSetup_device fw s hd⟩
  · by_cases hzero : p.wLength = 0
    · exact ⟨_, handleSetup_zero fw s hc hzero⟩
    · obtain ⟨length, r, hprep⟩ := prepare_returns hlen (startConfigStream fw p s)
      rw [handleSetup_stream fw s hc hzero, hprep]
      exact ⟨_, rfl⟩
  · exact ⟨_, handleSetup_configuration fw s hset⟩
  · exact ⟨_, handleSetup_rejected fw s hno⟩

/-- No event hangs the device. -/
theorem ep0Step_returns (hlen : InterfacesNonempty fw) (s : Ep0)
    (e : Ep0Event) : ∃ s', ep0Step fw s e = some s' := by
  cases e using ep0Event_cases with
  | setup data =>
      obtain ⟨r, hr⟩ :=
        handleSetup_returns hlen (.ofData data) (received fw data s)
      rw [ep0Step_setup, hr]
      exact ⟨_, rfl⟩
  | malformed rxLen data h => exact ⟨_, ep0Step_setup_length fw data s h⟩
  | tokenIn rxLen data => exact handleIn_returns hlen s
  | tokenOut rxLen data => exact ⟨_, ep0Step_out fw rxLen data s⟩
  | other token rxLen data hsetup hin hout =>
      exact ⟨_, ep0Step_other fw rxLen data s hsetup hin hout⟩
  | busReset => exact ⟨_, rfl⟩

/-- The loop of the request and the loop of every IN after it end, within a
number of turns that depends on nothing; so the data stage can go on for any
number of INs. -/
theorem fill_terminates (hlen : InterfacesNonempty fw) (s₀ : Ep0)
    (p : UsbSetupPacket) :
    (∃ r, loop (fillTurn fw) maxTurns (filling (streamStart fw s₀ p)) = some r) ∧
      ∀ k, ∃ s, runs (ep0Step fw) s₀ (dataStageEvents p k) = some s ∧
        ∃ r, loop (fillTurn fw) maxTurns (filling s) = some r := by
  refine ⟨fillTurn_bound hlen _, ?_⟩
  intro k
  obtain ⟨s, hs⟩ := runs_total (ep0Step_returns hlen) s₀ (dataStageEvents p k)
  exact ⟨s, hs, fillTurn_bound hlen _⟩

theorem demo_interfacesNonempty : InterfacesNonempty demo := by
  intro i hi
  have hone : demo.usbGetInterfaceDescriptor i = interfaceDescriptorAddress := by
    simp only [demo] at hi ⊢
    split at hi
    · exact absurd rfl hi
    · next h => exact if_neg h
  rw [hone]
  decide

theorem fill_terminates_demo :
    (∃ r, loop (fillTurn demo) maxTurns
        (filling (streamStart demo powerOn (readConfiguration 255))) = some r) ∧
      ∀ k, ∃ s, runs (ep0Step demo) powerOn
          (dataStageEvents (readConfiguration 255) k) = some s ∧
        ∃ r, loop (fillTurn demo) maxTurns (filling s) = some r :=
  fill_terminates demo_interfacesNonempty powerOn (readConfiguration 255)

end Ch552e.Proofs
