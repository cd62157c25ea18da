import Ch552e.Proofs.TreeWalk
import Ch552e.Spec.Host

/-!
# The stream is a suffix of the flattened tree

The stream's storage stands for the bytes it still has to deliver: what is left
of the current descriptor, then the descriptors still to come, cut off where
the first of the two counters reaches zero. `due` is that list, and it is all
the rest of the development knows about the walk.

`Sent` is the loop invariant, that the buffer holds the first `filled_bytes`
bytes of what was due and the stream is due the rest. What comes of it is
`usbEp0PrepareDescriptor_serves`: a call delivers the next 64 bytes, or what
there is.
-/

namespace Ch552e.Proofs

open Ch552e.Lib Ch552e.Ref Ch552e.Spec

variable {fw : Firmware} {tree : Tree}

def ahead (fw : Firmware) (tree : Tree) (a : Ep0Arms) : List UInt8 :=
  slice (fw.bytesAt a.cursor) 0 a.remaining.toNat ++
    (upcoming tree a).flatMap (Descriptor.bytes fw)

/-- The bytes the stream has still to deliver. -/
def due (fw : Firmware) (tree : Tree) (a : Ep0Arms) : List UInt8 :=
  if a.cursor = 0 then []
  else (ahead fw tree a).take
    (min a.requestRemaining.toNat a.totalRemaining.toNat)

/-- A stream that ended, or one whose cursor is inside a descriptor of the
tree. -/
def Tracks (tree : Tree) (a : Ep0Arms) : Prop :=
  a.cursor = 0 ∨
    (OnTree tree a ∧ a.cursor.toNat + a.remaining.toNat < 2 ^ 16)

theorem due_of_counters {a : Ep0Arms}
    (h : a.requestRemaining = 0 ∨ a.totalRemaining = 0) :
    due fw tree a = [] := by
  unfold due
  split
  · rfl
  · rcases h with h | h <;> simp [h]

/-! ## A copy -/

theorem toNat_cursor_add {p : UInt16} {n : UInt8}
    (h : p.toNat + n.toNat < 2 ^ 16) :
    (p + n.toUInt16).toNat = p.toNat + n.toNat := by
  rw [UInt16.toNat_add, UInt8.toNat_toUInt16, Nat.mod_eq_of_lt h]

theorem ne_zero_of_toNat {p : UInt16} (h : 0 < p.toNat) : p ≠ 0 := by
  intro heq
  rw [heq] at h
  exact absurd h (by decide)

theorem bytesAt_add (p : UInt16) (n : UInt8) (i : Nat) :
    fw.bytesAt (p + n.toUInt16) i = fw.bytesAt p (n.toNat + i) := by
  rw [Firmware.bytesAt, Firmware.bytesAt, UInt16.ofNat_add,
    UInt16.ofNat_uInt8ToNat, UInt16.add_assoc]

theorem slice_bytesAt_add (p : UInt16) (n : UInt8) (k : Nat) :
    slice (fw.bytesAt (p + n.toUInt16)) 0 k = slice (fw.bytesAt p) n.toNat k := by
  apply List.ext_getElem
  · simp
  · intro i h₁ h₂
    rw [getElem_slice, getElem_slice, Nat.zero_add, bytesAt_add]

theorem ahead_advance {a : Ep0Arms} {n : UInt8}
    (h : n.toNat ≤ a.remaining.toNat) :
    ahead fw tree (a.advance n) = (ahead fw tree a).drop n.toNat := by
  have hup : upcoming tree (a.advance n) = upcoming tree a := rfl
  rw [ahead, ahead, hup, advance_cursor, toNat_advance_remaining h,
    slice_bytesAt_add, List.drop_append_of_le_length (by simpa using h),
    drop_slice, Nat.zero_add]

/-- The loop invariant: of what was due at the start, `filled_bytes` bytes are
in the buffer and the stream is due the rest. -/
structure Sent (fw : Firmware) (tree : Tree) (a : Ep0Arms) (f : Filling) :
    Prop where
  level : f.filledBytes.toNat ≤ usbEp0BufferSize
  le : f.filledBytes.toNat ≤ (due fw tree a).length
  bytes : slice f.xram usbEp0BufferAddress f.filledBytes.toNat =
    (due fw tree a).take f.filledBytes.toNat
  rest : due fw tree f.arms = (due fw tree a).drop f.filledBytes.toNat
  request : f.arms.requestRemaining.toNat =
    a.requestRemaining.toNat - f.filledBytes.toNat
  tracks : Tracks tree f.arms

theorem sent_start {a : Ep0Arms} {xram : Nat → UInt8} {trace : List StreamEvent}
    (ha : Tracks tree a) : Sent fw tree a ⟨a, xram, 0, trace⟩ where
  level := Nat.zero_le _
  le := Nat.zero_le _
  bytes := rfl
  rest := rfl
  request := rfl
  tracks := ha

theorem Sent.copy {a : Ep0Arms} {f : Filling} (h : Sent fw tree a f)
    (hcont : f.continues = true) : Sent fw tree a (f.copy fw) := by
  obtain ⟨hcursor, hreq, htotal, hlevel⟩ := continues_iff.mp hcont
  have hlevel := Nat.le_of_lt hlevel
  have hle := h.le
  obtain ⟨hon, hend⟩ := h.tracks.resolve_left hcursor
  -- the copy length against each bound it was taken from
  have hrem := copySize_le_remaining (a := f.arms) hlevel
  have hr := copySize_le_request (a := f.arms) hlevel
  have ht := copySize_le_total (a := f.arms) hlevel
  obtain ⟨hfilled, hroom⟩ := toNat_filled_add (a := f.arms) hlevel
  have hsize : (f.copy fw).filledBytes.toNat =
      f.filledBytes.toNat + (copySize f.arms f.filledBytes).toNat := hfilled
  generalize hn : copySize f.arms f.filledBytes = n at *
  have harms : (f.copy fw).arms = f.arms.advance n := by rw [← hn]; rfl
  have hcur : (f.arms.advance n).cursor.toNat = f.arms.cursor.toNat + n.toNat := by
    rw [advance_cursor]
    exact toNat_cursor_add (by omega)
  have hcur0 : (f.arms.advance n).cursor ≠ 0 := by
    have := word_pos hcursor
    exact ne_zero_of_toNat (by omega)
  -- what is due before and after the copy
  have hdue : due fw tree f.arms = (ahead fw tree f.arms).take
      (min f.arms.requestRemaining.toNat f.arms.totalRemaining.toNat) :=
    if_neg hcursor
  have hdrop : due fw tree (f.arms.advance n) =
      (due fw tree f.arms).drop n.toNat := by
    rw [hdue, due, if_neg hcur0, ahead_advance hrem, toNat_advance_request hr,
      toNat_advance_total ht, List.drop_take]
    congr 1
    omega
  have htake : (due fw tree f.arms).take n.toNat =
      slice (fw.bytesAt f.arms.cursor) 0 n.toNat := by
    rw [hdue, List.take_take, ahead, List.take_append_of_le_length (by simp; omega),
      take_slice]
    congr 1
    omega
  have hnle : n.toNat ≤ (due fw tree f.arms).length := by
    have := congrArg List.length htake
    rw [List.length_take, length_slice] at this
    omega
  have hlen := congrArg List.length h.rest
  rw [List.length_drop] at hlen
  refine ⟨hsize ▸ hroom, ?_, ?_, ?_, ?_, ?_⟩
  · rw [hsize]
    omega
  · rw [slice_copy fw hlevel, hn, hsize, h.bytes, ← htake, h.rest, List.take_add]
  · rw [harms, hdrop, h.rest, List.drop_drop, hsize]
  · rw [harms, toNat_advance_request hr, h.request, hsize]
    omega
  · rw [harms]
    refine Or.inr ⟨hon, ?_⟩
    rw [hcur, toNat_advance_remaining hrem]
    omega

/-! ## The end of a descriptor -/

theorem due_of_through {a : Ep0Arms} (hcursor : a.cursor ≠ 0)
    (hrem : a.remaining = 0) :
    due fw tree a = ((upcoming tree a).flatMap (Descriptor.bytes fw)).take
      (min a.requestRemaining.toNat a.totalRemaining.toNat) := by
  rw [due, if_neg hcursor, ahead, hrem]
  rfl

theorem due_moved {a a' : Ep0Arms} {d : Descriptor} (hcursor : a.cursor ≠ 0)
    (hrem : a.remaining = 0) (hto : MovedTo tree a a' d)
    (hup : upcoming tree a = d :: upcoming tree a') :
    due fw tree a' = due fw tree a := by
  have hcursor' : a'.cursor ≠ 0 := hto.cursor ▸ hto.valid.1
  rw [due_of_through hcursor hrem, due, if_neg hcursor', ahead, hup, hto.cursor,
    hto.remaining, hto.request, hto.total, List.flatMap_cons]
  rfl

/-- The invariant reads the buffer and the fill level, and the stream through
what is due of it. -/
theorem Sent.withArms {a b : Ep0Arms} {f : Filling} {trace : List StreamEvent}
    (h : Sent fw tree a f) (hdue : due fw tree b = due fw tree f.arms)
    (hreq : b.requestRemaining = f.arms.requestRemaining)
    (hb : Tracks tree b) : Sent fw tree a { f with arms := b, trace := trace } :=
  { level := h.level
    le := h.le
    bytes := h.bytes
    rest := hdue.trans h.rest
    request := (congrArg UInt16.toNat hreq).trans h.request
    tracks := hb }

/-- What the loop leaves: a full buffer, or a stream that is due nothing. -/
def Filled (fw : Firmware) (tree : Tree) (a : Ep0Arms) (f : Filling) : Prop :=
  Sent fw tree a f ∧
    (f.filledBytes.toNat = usbEp0BufferSize ∨ due fw tree f.arms = [])

/-- The turns left: every descriptor to come takes two at most, one that fills
the buffer and one that uses up the descriptor. -/
def turns (tree : Tree) (f : Filling) : Nat :=
  2 * (upcoming tree f.arms).length +
    if f.filledBytes.toNat < usbEp0BufferSize then 1 else 0

/-- A copy that leaves both counters and some of the descriptor has filled the
buffer. -/
theorem copy_fills {f : Filling} (hlevel : f.filledBytes.toNat ≤ usbEp0BufferSize)
    (hreq : (f.copy fw).arms.requestRemaining ≠ 0)
    (htotal : (f.copy fw).arms.totalRemaining ≠ 0)
    (hrem : (f.copy fw).arms.remaining ≠ 0) :
    (f.copy fw).filledBytes.toNat = usbEp0BufferSize := by
  have hsize := (toNat_filled_add (a := f.arms) hlevel).1
  have hr := toNat_advance_request (copySize_le_request (a := f.arms) hlevel)
  have ht := toNat_advance_total (copySize_le_total (a := f.arms) hlevel)
  have hm := toNat_advance_remaining (copySize_le_remaining (a := f.arms) hlevel)
  have hmin := toNat_copySize f.arms hlevel
  have hr0 := word_pos hreq
  have ht0 := word_pos htotal
  have hm0 := byte_pos hrem
  rw [show (f.copy fw).arms = f.arms.advance (copySize f.arms f.filledBytes)
    from rfl] at hr0 ht0 hm0
  rw [show (f.copy fw).filledBytes = f.filledBytes + copySize f.arms f.filledBytes
    from rfl, hsize]
  omega

theorem Sent.copy_cursor {a : Ep0Arms} {f : Filling} (h : Sent fw tree a f)
    (hcont : f.continues = true) :
    (f.copy fw).arms.cursor ≠ 0 ∧ OnTree tree (f.copy fw).arms := by
  obtain ⟨hcursor, _, _, hlevel⟩ := continues_iff.mp hcont
  obtain ⟨hon, hend⟩ := h.tracks.resolve_left hcursor
  have hrem := copySize_le_remaining (a := f.arms) (Nat.le_of_lt hlevel)
  have hpos := word_pos hcursor
  refine ⟨ne_zero_of_toNat ?_, hon⟩
  rw [show (f.copy fw).arms = f.arms.advance (copySize f.arms f.filledBytes)
    from rfl, advance_cursor, toNat_cursor_add (by omega)]
  omega

theorem fillTurn_again (hs : Serves fw tree) {a : Ep0Arms} {f g : Filling}
    (h : Sent fw tree a f) (hturn : fillTurn fw f = (true, g)) :
    Sent fw tree a g ∧ turns tree g < turns tree f := by
  have hcase := fillTurn_turn fw f
  rw [hturn] at hcase
  cases hcase with
  | again hcont hreq htotal hrem =>
      have hlevel := (continues_iff.mp hcont).2.2.2
      have hfull := copy_fills (Nat.le_of_lt hlevel) hreq htotal hrem
      refine ⟨h.copy hcont, ?_⟩
      rw [turns, turns, hfull, if_pos hlevel, if_neg (Nat.lt_irrefl _)]
      exact Nat.lt_succ_self _
  | moved hcont hreq htotal hrem b hmove =>
      obtain ⟨hcursor, hon⟩ := h.copy_cursor hcont
      have hlevel := (continues_iff.mp hcont).2.2.2
      rcases moveToNextDescriptor_serves hs hon with
        ⟨d, a', hmove', hto, hup⟩ | ⟨⟨a', hmove'⟩, _⟩
      · obtain rfl : a' = b := by
          rw [hmove] at hmove'
          exact (Prod.mk.injEq .. ▸ hmove').2.symm
        refine ⟨(h.copy hcont).withArms (due_moved hcursor hrem hto hup)
          hto.request (Or.inr ⟨hto.onTree, ?_⟩), ?_⟩
        · rw [hto.cursor, hto.remaining]
          exact hto.valid.2
        · have hlen := congrArg List.length hup
          rw [List.length_cons] at hlen
          have hsame : upcoming tree (f.copy fw).arms = upcoming tree f.arms := rfl
          rw [hsame] at hlen
          simp only [turns]
          rw [if_pos hlevel]
          split <;> omega
      · rw [hmove] at hmove'
        exact absurd hmove' (by simp)

theorem fillTurn_exit (hs : Serves fw tree) {a : Ep0Arms} {f g : Filling}
    (h : Sent fw tree a f) (hturn : fillTurn fw f = (false, g)) :
    Filled fw tree a g := by
  have hcase := fillTurn_turn fw f
  rw [hturn] at hcase
  cases hcase with
  | stop hcont =>
      refine ⟨h, ?_⟩
      have hlevel := h.level
      by_cases hcursor : f.arms.cursor = 0
      · exact .inr (if_pos hcursor)
      · by_cases hzero : f.arms.requestRemaining = 0 ∨ f.arms.totalRemaining = 0
        · exact .inr (due_of_counters hzero)
        · rw [not_or] at hzero
          refine .inl (Nat.le_antisymm hlevel (Nat.le_of_not_lt fun hlt => ?_))
          rw [continues_iff.mpr ⟨hcursor, hzero.1, hzero.2, hlt⟩] at hcont
          exact absurd hcont (by simp)
  | drained hcont hzero => exact ⟨h.copy hcont, .inr (due_of_counters hzero)⟩
  | ended hcont hreq htotal hrem b hmove =>
      obtain ⟨hcursor, hon⟩ := h.copy_cursor hcont
      have hkeep := (moveToNextDescriptor_counters fw (f.copy fw).arms).1
      rcases moveToNextDescriptor_serves hs hon with
        ⟨d, a', hmove', _⟩ | ⟨_, hup⟩
      · rw [hmove] at hmove'
        exact absurd hmove' (by simp)
      · have hnull : (b.setCursor 0).cursor = 0 := Ep0Arms.cursor_setCursor b 0
        have hnone : due fw tree (b.setCursor 0) = [] := if_pos hnull
        rw [hmove] at hkeep
        refine ⟨(h.copy hcont).withArms ?_ hkeep (.inl hnull), .inr hnone⟩
        rw [hnone, due_of_through hcursor hrem, hup, List.flatMap_nil,
          List.take_nil]

theorem fillLoop_serves (hs : Serves fw tree) {a : Ep0Arms}
    (ha : Tracks tree a) (xram : Nat → UInt8) (trace : List StreamEvent) :
    ∃ f, fillLoop fw ⟨a, xram, 0, trace⟩ = some f ∧ Filled fw tree a f := by
  obtain ⟨f, hloop, hf⟩ := loop_bound
    (I := fun k f => Sent fw tree a f ∧ turns tree f = k)
    (Q := Filled fw tree a)
    (fun k f g hf hturn => by
      obtain ⟨hg, hlt⟩ := fillTurn_again hs hf.1 hturn
      exact ⟨turns tree g, hf.2 ▸ hlt, hg, rfl⟩)
    (fun k f g hf hturn => fillTurn_exit hs hf.1 hturn)
    ⟨sent_start ha, rfl⟩ (Nat.lt_succ_self _)
  exact ⟨f, fillLoop_of_loop hloop, hf⟩

/-! ## A call -/

/-- What a call of the fill function does: the first 64 bytes that were due,
or all of them, are at the head of the buffer, and the rest is due. -/
structure Delivered (fw : Firmware) (tree : Tree) (s : Ep0) (length : UInt8)
    (s' : Ep0) : Prop where
  frame : s' = { s with arms := s'.arms, xram := s'.xram, trace := s'.trace }
  bytes : slice s'.xram usbEp0BufferAddress length.toNat =
    (due fw tree s.arms).take usbEp0BufferSize
  rest : due fw tree s'.arms = (due fw tree s.arms).drop usbEp0BufferSize
  request : s'.arms.requestRemaining.toNat =
    s.arms.requestRemaining.toNat - length.toNat
  tracks : Tracks tree s'.arms

theorem usbEp0PrepareDescriptor_serves (hs : Serves fw tree) {s : Ep0}
    (hstate : s.state = .sendConfigurationDescriptor)
    (htracks : Tracks tree s.arms) :
    ∃ length s', usbEp0PrepareDescriptor fw s = some (length, s') ∧
      Delivered fw tree s length s' := by
  rw [usbEp0PrepareDescriptor, if_neg (not_not.mpr hstate)]
  by_cases hcursor : s.arms.cursor = 0
  · have hnone : due fw tree s.arms = [] := if_pos hcursor
    rw [if_pos hcursor]
    exact ⟨0, s, rfl, rfl, by rw [hnone]; rfl, by rw [hnone]; rfl, rfl, htracks⟩
  · rw [if_neg hcursor]
    obtain ⟨f, hloop, hsent, hend⟩ := fillLoop_serves hs htracks s.xram s.trace
    rw [hloop]
    refine ⟨_, _, rfl, rfl, ?_, ?_, hsent.request, hsent.tracks⟩
    · rcases hend with hfull | hnone
      · rw [hsent.bytes, hfull]
      · have hlen := congrArg List.length (hsent.rest.symm.trans hnone)
        rw [List.length_drop, List.length_nil] at hlen
        have hle := hsent.le
        have hlevel := hsent.level
        rw [hsent.bytes, List.take_of_length_le (by omega),
          List.take_of_length_le (by omega)]
    · rcases hend with hfull | hnone
      · rw [← hfull]
        exact hsent.rest
      · have hlen := congrArg List.length (hsent.rest.symm.trans hnone)
        rw [List.length_drop, List.length_nil] at hlen
        have hlevel := hsent.level
        rw [hnone, List.drop_eq_nil_of_le (by omega)]

/-- The stream a configuration request starts is due the answer, from its
first byte on. -/
theorem startConfigStream_serves (hs : Serves fw tree) (p : UsbSetupPacket)
    (s : Ep0) :
    due fw tree (startConfigStream fw p s).arms = answer fw tree p ∧
      Tracks tree (startConfigStream fw p s).arms := by
  have hconfig : tree.config ∈ tree.descriptors := List.mem_cons_self
  have hvalid := hs.valid _ hconfig
  have hcursor : (startConfigStream fw p s).arms.cursor = tree.config.ptr := by
    simp [startConfigStream, hs.config_ptr]
  have hrem : (startConfigStream fw p s).arms.remaining = tree.config.len := by
    rw [← hs.config_len, ← hs.config_ptr]
    rfl
  have hup : upcoming tree (startConfigStream fw p s).arms =
      tree.interfaces.flatMap Interface.descriptors := upcoming_mark tree _
  constructor
  · rw [due, if_neg (hcursor ▸ hvalid.1), ahead, hcursor, hrem, hup]
    rfl
  · refine .inr ⟨.inl ⟨rfl, rfl⟩, ?_⟩
    rw [hcursor, hrem]
    exact hvalid.2

end Ch552e.Proofs
