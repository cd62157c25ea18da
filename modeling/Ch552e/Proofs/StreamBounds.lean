import Ch552e.Proofs.StreamRun
import Ch552e.Spec.Walk

/-!
# What the stream reads, writes and sends, on any hooks

The hooks may answer anything here: lengths that do not fit together, a
`wTotalLength` that is not the total, a walk that never ends. What holds all
the same is that no copy leaves the buffer or the descriptor it reads, that no
counter goes below zero and no 8-bit value is cut off, and that a data stage
never sends more than was asked for or than `wTotalLength` says.
-/

namespace Ch552e.Proofs

open Ch552e.Lib Ch552e.Ref Ch552e.Spec

variable {fw : Firmware} {s₀ : Ep0} {p : UsbSetupPacket} {a b : Ep0Arms}
  {f : Filling} {trace : List StreamEvent} {mem : Nat → UInt8}

/-! ## A copy -/

/-- The three values assigned to `copy_size` in a turn, in numbers without a
width. -/
def copySizes (a : Ep0Arms) (filledBytes : UInt8) : List Nat :=
  let first := min a.remaining.toNat (usbEp0BufferSize - filledBytes.toNat)
  let second := min first a.requestRemaining.toNat
  [first, second, min second a.totalRemaining.toNat]

/-- The cursor is in the descriptor selected last, and `remaining` bytes of it
are left. -/
def Within (a : Ep0Arms) (trace : List StreamEvent) : Prop :=
  ∃ d offset, (selections trace).head? = some d ∧
    a.cursor = d.2.ptr + UInt16.ofNat offset ∧
    offset + a.remaining.toNat = d.2.len.toNat

/-- A copy of `n` bytes to behind the first `filledBytes`, with what the stream
did before it. -/
structure CopySafe (earlier : List StreamEvent) (a : Ep0Arms)
    (filledBytes n : UInt8) : Prop where
  cursor : a.cursor ≠ 0
  reads : ∃ d offset, (selections earlier).head? = some d ∧
    a.cursor = d.2.ptr + UInt16.ofNat offset ∧
    offset + n.toNat ≤ d.2.len.toNat
  writes : filledBytes.toNat + n.toNat ≤ usbEp0BufferSize
  remaining : n.toNat ≤ a.remaining.toNat
  request : n.toNat ≤ a.requestRemaining.toNat
  total : n.toNat ≤ a.totalRemaining.toNat
  size : (copySizes a filledBytes).getLast? = some n.toNat
  sizes : ∀ v ∈ copySizes a filledBytes, v < 2 ^ 8
  filled : (filledBytes + n).toNat = filledBytes.toNat + n.toNat

theorem copySafe_copy (hcont : f.continues = true)
    (hwithin : Within f.arms trace) :
    CopySafe trace f.arms f.filledBytes (copySize f.arms f.filledBytes) := by
  obtain ⟨hcursor, _, _, hlt⟩ := continues_iff.mp hcont
  have hlevel := Nat.le_of_lt hlt
  have hrem := copySize_le_remaining (a := f.arms) hlevel
  obtain ⟨hfilled, hroom⟩ := toNat_filled_add (a := f.arms) hlevel
  obtain ⟨d, offset, hd, hptr, hleft⟩ := hwithin
  refine ⟨hcursor, ⟨d, offset, hd, hptr, by omega⟩, hroom, hrem,
    copySize_le_request hlevel, copySize_le_total hlevel, ?_, ?_, hfilled⟩
  · rw [toNat_copySize f.arms hlevel]
    rfl
  · have hbyte := f.arms.remaining.toNat_lt
    intro v hv
    simp only [copySizes, List.mem_cons, List.not_mem_nil, or_false] at hv
    omega

/-! ## The invariant -/

/-- The loop invariant, over the memory the data stage began with. -/
structure Bounded (mem : Nat → UInt8) (f : Filling) : Prop where
  level : f.filledBytes.toNat ≤ usbEp0BufferSize
  within : f.arms.cursor ≠ 0 → Within f.arms f.trace
  copies : ∀ a filledBytes n earlier,
    .copy a filledBytes n :: earlier <:+ f.trace →
      CopySafe earlier a filledBytes n
  frame : ∀ addr, usbEp0BufferAddress + usbEp0BufferSize ≤ addr →
    f.xram addr = mem addr

theorem Bounded.copy (h : Bounded mem f) (hcont : f.continues = true) :
    Bounded mem (f.copy fw) := by
  have hwithin := h.within (continues_iff.mp hcont).1
  have hsafe := copySafe_copy hcont hwithin
  refine ⟨?_, ?_, ?_, ?_⟩
  · have hroom := hsafe.writes
    rw [← hsafe.filled] at hroom
    exact hroom
  · intro _
    obtain ⟨d, offset, hd, hptr, hleft⟩ := hwithin
    generalize hn : copySize f.arms f.filledBytes = n at hsafe
    have harms : (f.copy fw).arms = f.arms.advance n := by rw [← hn]; rfl
    have hrem := hsafe.remaining
    refine ⟨d, offset + n.toNat, hd, ?_, ?_⟩
    · rw [harms, advance_cursor, hptr, UInt16.ofNat_add,
        UInt16.ofNat_uInt8ToNat, UInt16.add_assoc]
    · rw [harms, toNat_advance_remaining hrem]
      omega
  · intro a filledBytes n earlier hsuffix
    rcases List.suffix_cons_iff.mp hsuffix with heq | hold
    · injection heq with he hearlier
      injection he with ha hf hn
      subst ha hf hn hearlier
      exact hsafe
    · exact h.copies a filledBytes n earlier hold
  · intro addr haddr
    have hwrites := hsafe.writes
    rw [copy_xram, blit_of_ge (by omega)]
    exact h.frame addr haddr

theorem copies_move {r : Option Ep0Arms}
    (h : ∀ a filledBytes n earlier, .copy a filledBytes n :: earlier <:+ trace →
      CopySafe earlier a filledBytes n) :
    ∀ c filledBytes n earlier,
      .copy c filledBytes n :: earlier <:+ .move a r :: trace →
        CopySafe earlier c filledBytes n := by
  intro c filledBytes n earlier hsuffix
  rcases List.suffix_cons_iff.mp hsuffix with heq | hold
  · injection heq with he _
    exact absurd he (by simp)
  · exact h c filledBytes n earlier hold

theorem Bounded.turn (h : Bounded mem f) : Bounded mem (fillTurn fw f).2 := by
  have hturn := fillTurn_turn fw f
  generalize fillTurn fw f = r at hturn
  cases hturn with
  | stop _ => exact h
  | drained hcont _ | again hcont _ _ _ => exact h.copy hcont
  | moved hcont _ _ _ b _ =>
      have hcopy : Bounded mem (f.copy fw) := h.copy hcont
      refine ⟨hcopy.level, ?_, copies_move hcopy.copies, hcopy.frame⟩
      intro _
      exact ⟨_, 0, rfl, (UInt16.add_zero b.cursor).symm, Nat.zero_add _⟩
  | ended hcont _ _ _ b _ =>
      have hcopy : Bounded mem (f.copy fw) := h.copy hcont
      exact ⟨hcopy.level,
        fun hcursor => absurd (Ep0Arms.cursor_setCursor b 0) hcursor,
        copies_move hcopy.copies, hcopy.frame⟩

def budget (s : Ep0) : Nat :=
  if s.state = .sendConfigurationDescriptor then
    min s.arms.requestRemaining.toNat s.arms.totalRemaining.toNat
  else 0

/-- What a call put into the buffer is what it took from the counters. -/
structure Spends (a : Ep0Arms) (f : Filling) : Prop where
  level : f.filledBytes.toNat ≤ usbEp0BufferSize
  request : f.filledBytes.toNat + f.arms.requestRemaining.toNat =
    a.requestRemaining.toNat
  total : f.filledBytes.toNat + f.arms.totalRemaining.toNat =
    a.totalRemaining.toNat

theorem Spends.copy (h : Spends a f) (hcont : f.continues = true) :
    Spends a (f.copy fw) := by
  have hlevel := Nat.le_of_lt (continues_iff.mp hcont).2.2.2
  have hr := copySize_le_request (a := f.arms) hlevel
  have ht := copySize_le_total (a := f.arms) hlevel
  obtain ⟨hfilled, hroom⟩ := toNat_filled_add (a := f.arms) hlevel
  have hreq := h.request
  have htotal := h.total
  have hsize : (f.copy fw).filledBytes.toNat =
      f.filledBytes.toNat + (copySize f.arms f.filledBytes).toNat := hfilled
  have hr' : (f.copy fw).arms.requestRemaining.toNat = _ :=
    toNat_advance_request hr
  have ht' : (f.copy fw).arms.totalRemaining.toNat = _ :=
    toNat_advance_total ht
  exact ⟨hsize ▸ hroom, by omega, by omega⟩

theorem Spends.turn (h : Spends a f) : Spends a (fillTurn fw f).2 := by
  have hturn := fillTurn_turn fw f
  generalize fillTurn fw f = r at hturn
  cases hturn with
  | stop _ => exact h
  | drained hcont _ | again hcont _ _ _ => exact h.copy hcont
  | moved hcont _ _ _ b hmove | ended hcont _ _ _ b hmove =>
      have hcopy : Spends a (f.copy fw) := h.copy hcont
      obtain ⟨hreq, htotal⟩ := moveToNextDescriptor_counters fw (f.copy fw).arms
      rw [hmove] at hreq htotal
      exact ⟨hcopy.level, hreq ▸ hcopy.request, htotal ▸ hcopy.total⟩

theorem usbEp0PrepareDescriptor_spends {s r : Ep0} {length : UInt8}
    (h : usbEp0PrepareDescriptor fw s = some (length, r)) :
    length.toNat ≤ usbEp0BufferSize ∧ length.toNat + budget r = budget s := by
  cases usbEp0PrepareDescriptor_step h with
  | nothing _ => exact ⟨Nat.zero_le _, Nat.zero_add _⟩
  | filled hs _ f hloop =>
      have hend : Spends s.arms f :=
        loop_keeps (fun _ h => h.turn)
          ⟨Nat.zero_le _, Nat.zero_add _, Nat.zero_add _⟩ hloop
      have hreq := hend.request
      have htotal := hend.total
      refine ⟨hend.level, ?_⟩
      rw [budget, budget, if_pos hs, if_pos hs]
      dsimp only
      omega

end Ch552e.Proofs
