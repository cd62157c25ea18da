import Ch552e.Proofs.FillTurn
import Ch552e.Proofs.SetupLog
import Ch552e.Proofs.Xram

/-!
# Endpoint 0 on the board

The board knows endpoint 0 as two operations, a write of at most 64 bytes to
`ep0_buffer` and a push of a SETUP packet. `ep0Step_on_board` says that there is
no more to it: whatever an event does to memory in the model of the device, the
board does with these two, as long as the device descriptor fits the buffer.
-/

namespace Ch552e.Proofs

open Ch552e.Lib Ch552e.Ref

variable {fw : Firmware} {s s' : Ep0} {f : Filling} {mem : Nat → UInt8}

/-! ## What an event writes -/

def ep0Region : Region := ⟨usbEp0BufferAddress, usbEp0BufferSize⟩

/-- The fill level is in the buffer, and only the buffer was written. -/
structure InBuffer (mem : Nat → UInt8) (f : Filling) : Prop where
  level : f.filledBytes.toNat ≤ usbEp0BufferSize
  writes : Confined ep0Region mem f.xram

theorem InBuffer.turn (h : InBuffer mem f) : InBuffer mem (fillTurn fw f).2 := by
  obtain ⟨hxram, hfilled⟩ := fillTurn_buffer fw f
  by_cases hcont : f.continues = true
  · rw [if_pos hcont] at hxram hfilled
    obtain ⟨hsum, hle⟩ := toNat_filled_add (a := f.arms) h.level
    refine ⟨?_, ?_⟩
    · rw [hfilled]
      exact hsum ▸ hle
    · rw [hxram, copy_xram]
      refine h.writes.trans (confined_blit _ (Nat.le_add_right _ _) ?_)
      rw [Nat.add_assoc]
      exact Nat.add_le_add_left hle _
  · rw [if_neg hcont] at hxram hfilled
    exact ⟨hfilled ▸ h.level, hxram ▸ h.writes⟩

theorem prepare_confined {length : UInt8}
    (h : usbEp0PrepareDescriptor fw s = some (length, s')) :
    Confined ep0Region s.xram s'.xram := by
  cases usbEp0PrepareDescriptor_step h with
  | nothing _ => exact .refl _ _
  | filled _ _ f hloop =>
      have hend : InBuffer s.xram f :=
        loop_keeps (fun _ h => h.turn) ⟨Nat.zero_le _, .refl _ _⟩ hloop
      exact hend.writes

theorem receive_confined (token rxLen : UInt8) (data : Nat → UInt8) (s : Ep0) :
    Confined ep0Region s.xram (receive token rxLen data s).xram := by
  unfold receive
  split
  · refine confined_blit _ (Nat.le_refl _) ?_
    exact Nat.add_le_add_left (Nat.min_le_right _ _) _
  · exact .refl _ _

theorem setup_confined {p : UsbSetupPacket}
    (hdev : (fw.code fw.usbGetDeviceDescriptor).toNat ≤ usbEp0BufferSize)
    (h : SetupStep fw p s s') : Confined ep0Region s.xram s'.xram := by
  cases h with
  | device _ =>
      exact confined_blit _ (Nat.le_refl _) (Nat.add_le_add_left hdev _)
  | stream _ _ length r hprep =>
      have hr : Confined ep0Region s.xram r.xram :=
        prepare_confined (s := startConfigStream fw p s) hprep
      exact hr
  | address _ | zero _ _ | configuration _ | rejected _ => exact .refl _ _

theorem in_confined (h : InStep fw s s') : Confined ep0Region s.xram s'.xram := by
  cases h with
  | short _ _ r hprep _ | zlp _ _ r hprep _ | next _ _ _ r hprep _ =>
      have hr : Confined ep0Region s.xram r.xram := prepare_confined hprep
      exact hr
  | address _ | configuration _ | finished _ | ignored _ => exact .refl _ _

theorem ep0Step_confined {e : Ep0Event}
    (hdev : (fw.code fw.usbGetDeviceDescriptor).toNat ≤ usbEp0BufferSize)
    (h : ep0Step fw s e = some s') : Confined ep0Region s.xram s'.xram := by
  cases ep0Step_event h with
  | setup data _ h =>
      have hset : Confined ep0Region (received fw data s).xram s'.xram :=
        setup_confined hdev h
      exact (receive_confined uisTokenSetup 8 data s).trans hset
  | malformed rxLen data _ => exact receive_confined uisTokenSetup rxLen data s
  | tokenIn _ _ _ h => exact in_confined h
  | tokenOut rxLen data _ h =>
      refine (receive_confined uisTokenOut rxLen data s).trans ?_
      cases h with
      | stalled _ _ | finished _ _ | ignored _ => exact .refl _ _
  | other | busReset => exact .refl _ _

/-! ## On the board -/

theorem view_toBytes (x : UsbSetupFifoItem) :
    UsbSetupFifoItem.view ⟨fun k => x.toBytes k⟩ = x := by
  have hword : ∀ w, u16le (lowByte w) (highByte w) = w := u16le_low_high
  obtain ⟨t, r, v, i, l⟩ := x
  simp only [UsbSetupFifoItem.mk.injEq, UsbSetupFifoItem.view]
  exact ⟨rfl, rfl, hword v, hword i, hword l⟩

/-- What is stored is what is loaded. -/
theorem loadFifo_storeFifo (xram : Nat → UInt8) (fifo : UsbSetupFifo) :
    loadFifo (storeFifo xram fifo) = fifo := by
  obtain ⟨head, tail, entries⟩ := fifo
  have hentries : (loadFifo (storeFifo xram ⟨head, tail, entries⟩)).entries =
      entries := by
    funext i
    rw [← view_toBytes (entries i), loadFifo]
    dsimp only
    congr 2
    funext k
    rw [Nat.add_assoc]
    exact storeFifo_entry xram ⟨head, tail, entries⟩ i k.isLt
  have hparts : ∀ m, loadFifo m =
      ⟨m usbSetupFifoAddress, m (usbSetupFifoAddress + 1), (loadFifo m).entries⟩ :=
    fun _ => rfl
  rw [hparts, hentries, storeFifo_head, storeFifo_tail]

/-- The queue begins behind `ep0_buffer`. -/
theorem loadFifo_congr {m m' : Nat → UInt8} (h : Confined ep0Region m m') :
    loadFifo m' = loadFifo m := by
  have hsame : ∀ a, usbSetupFifoAddress ≤ a → m' a = m a := by
    intro a ha
    refine h a fun hin => ?_
    have hlt : a < usbSetupFifoAddress := hin.2
    omega
  have hentry : ∀ i k, m' (entriesAddress + usbSetupFifoItemSize * i + k) =
      m (entriesAddress + usbSetupFifoItemSize * i + k) := by
    intro i k
    have hentries : entriesAddress = usbSetupFifoAddress + 2 := rfl
    exact hsame _ (by omega)
  simp only [loadFifo, hentry, hsame _ (Nat.le_refl _), hsame _ (Nat.le_succ _)]

/-- The memory of the device as the board has it. -/
structure OnBoard (s : Ep0) (b : Board) : Prop where
  buffer : ∀ a, ep0Region.Has a → b.xram a = s.xram a
  fifo : loadFifo b.xram = s.fifo

/-- The operations of an event on endpoint 0. -/
def operations (s' : Ep0) (e : Ep0Event) : List BoardEvent :=
  .ep0Write usbEp0BufferSize (loadArray s'.xram usbEp0BufferAddress) ::
    match e.logged with
    | some p => [.push (UsbSetupFifoItem.view p)]
    | none => []

/-- An event writes behind the buffer nowhere, and what it does to the buffer and
to the queue the board does with its own operations. -/
theorem ep0Step_on_board {c : Build} {b : Board} {e : Ep0Event}
    (hdev : (c.fw.code c.fw.usbGetDeviceDescriptor).toNat ≤ usbEp0BufferSize)
    (hb : OnBoard s b) (h : ep0Step c.fw s e = some s') :
    Confined ep0Region s.xram s'.xram ∧
      ∃ b', runs (boardStep c) b (operations s' e) = some b' ∧
        OnBoard s' b' := by
  refine ⟨ep0Step_confined hdev h, ?_⟩
  have hfifo := ep0Step_fifo h
  have hbuffer : ∀ a, ep0Region.Has a →
      blit b.xram usbEp0BufferAddress usbEp0BufferSize
        (loadArray s'.xram usbEp0BufferAddress) a = s'.xram a := by
    intro a ha
    obtain ⟨i, rfl⟩ := Nat.exists_eq_add_of_le ha.1
    exact blit_inside (Nat.lt_of_add_lt_add_left ha.2)
  have hloaded : loadFifo (blit b.xram usbEp0BufferAddress usbEp0BufferSize
      (loadArray s'.xram usbEp0BufferAddress)) = s.fifo := by
    have hwrite : Confined ep0Region b.xram (blit b.xram usbEp0BufferAddress
        usbEp0BufferSize (loadArray s'.xram usbEp0BufferAddress)) :=
      confined_blit _ (Nat.le_refl _) (Nat.le_refl _)
    rw [loadFifo_congr hwrite, hb.fifo]
  rw [operations, runs_cons, boardStep, if_pos (Nat.le_refl _),
    Option.bind_some]
  cases hlogged : e.logged with
  | none =>
      rw [hlogged] at hfifo
      exact ⟨_, rfl, hbuffer, hloaded.trans hfifo.symm⟩
  | some p =>
      rw [hlogged] at hfifo
      refine ⟨_, rfl, fun a ha => ?_, ?_⟩
      · exact (storeFifo_before _ _ ha.2).trans (hbuffer a ha)
      · exact (loadFifo_storeFifo _ _).trans (by rw [hloaded, hfifo])

end Ch552e.Proofs
