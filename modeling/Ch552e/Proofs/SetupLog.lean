import Ch552e.Proofs.RingSteps
import Ch552e.Proofs.Steps
import Ch552e.Ref.Main
import Mathlib.Data.List.Forall2

/-!
# The SETUP log delivers what it accepted

The queue has one producer, the interrupt, and one consumer, the main loop, and
each moves one index only. `Logs` says that the ring holds the accepted entries
not popped yet. The entry being copied is the front of that queue from the
comparison with the head until the store of the tail: a push cannot touch it,
because the cell at the head is never the cell at the tail of a ring that holds
something.
-/

namespace Ch552e.Proofs

open Ch552e.Lib Ch552e.Lib.Ring Ch552e.Ref

/-- The first `n` members of `dst` are those of `src`. -/
structure Copied (src dst : UsbSetupFifoItem) (n : Nat) : Prop where
  bmRequestType : 0 < n → dst.bmRequestType = src.bmRequestType
  bRequest : 1 < n → dst.bRequest = src.bRequest
  wValue : 2 < n → dst.wValue = src.wValue
  wIndex : 3 < n → dst.wIndex = src.wIndex
  wLength : 4 < n → dst.wLength = src.wLength

theorem copied_zero (src dst : UsbSetupFifoItem) : Copied src dst 0 := by
  constructor <;> exact fun h => absurd h (by omega)

theorem Copied.step {src dst : UsbSetupFifoItem} {k : Fin 5}
    (h : Copied src dst k.val) :
    Copied src (UsbSetupFifoItem.copyField src dst k) (k.val + 1) := by
  obtain ⟨h0, h1, h2, h3, h4⟩ := h
  match k with
  | 0 | 1 | 2 | 3 | 4 =>
      constructor <;> simp_all [UsbSetupFifoItem.copyField]

theorem Copied.eq {src dst : UsbSetupFifoItem} (h : Copied src dst 5) :
    dst = src := by
  obtain ⟨h0, h1, h2, h3, h4⟩ := h
  cases src
  cases dst
  simp only at h0 h1 h2 h3 h4
  rw [h0 (by omega), h1 (by omega), h2 (by omega), h3 (by omega), h4 (by omega)]

/-! ## The interrupt's side -/

variable {fw : Firmware}

theorem prepare_fifo {s s' : Ep0} {length : UInt8}
    (h : usbEp0PrepareDescriptor fw s = some (length, s')) :
    s'.fifo = s.fifo := by rw [usbEp0PrepareDescriptor_frame h]

theorem setupStep_fifo {p : UsbSetupPacket} {s s' : Ep0}
    (h : SetupStep fw p s s') : s'.fifo = s.fifo := by
  cases h with
  | stream _ _ length r hprep =>
      have hkeep := prepare_fifo hprep
      exact hkeep
  | address _ | device _ | zero _ _ | configuration _ | rejected _ => rfl

theorem inStep_fifo {s s' : Ep0} (h : InStep fw s s') : s'.fifo = s.fifo := by
  cases h with
  | short _ _ r hprep _ | zlp _ _ r hprep _ | next _ _ _ r hprep _ =>
      have hkeep := prepare_fifo hprep
      exact hkeep
  | address _ | configuration _ | finished _ | ignored _ => rfl

theorem outStep_fifo {s s' : Ep0} {length : UInt8} (h : OutStep s length s') :
    s'.fifo = s.fifo := by
  cases h with
  | stalled _ _ | finished _ _ | ignored _ => rfl

theorem receive_fifo (token rxLen : UInt8) (data : Nat → UInt8) (s : Ep0) :
    (receive token rxLen data s).fifo = s.fifo := by
  unfold receive
  split <;> rfl

/-- What an event does to the queue: it pushes the packet it logs. -/
theorem ep0Step_fifo {s s' : Ep0} {e : Ep0Event}
    (h : ep0Step fw s e = some s') :
    s'.fifo = match e.logged with
      | some p => (usbSetupFifoPushIsr fw.usbSetupFifoSize s.fifo
          (UsbSetupFifoItem.view p)).2
      | none => s.fifo := by
  cases ep0Step_event h with
  | setup data _ h => exact setupStep_fifo h
  | malformed rxLen data hlen =>
      simp only [Ep0Event.logged, hlen, and_false, if_false]
      exact receive_fifo _ _ _ _
  | tokenIn rxLen data _ h => exact inStep_fifo h
  | tokenOut rxLen data _ h => exact (outStep_fifo h).trans (receive_fifo _ _ _ _)
  | other token rxLen data hsetup _ _ =>
      simp only [Ep0Event.logged, hsetup, false_and, if_false]
  | busReset => rfl

/-! ## The queue -/

variable {n : Nat} {k : Nat} {s s' : SetupLog} {q : List UsbSetupFifoItem}

def PopAt (s : SetupLog) (q : List UsbSetupFifoItem) : Prop :=
  match s.pc with
  | .outside | .readTail => True
  | .readHead tail => tail = s.dev.fifo.tail
  | .copy tail field => tail = s.dev.fifo.tail ∧
      ∃ x, q.head? = some x ∧ Copied x s.item field.val
  | .storeTail tail => tail = s.dev.fifo.tail ∧ q.head? = some s.item

/-- The invariant, with the queue the ring holds. -/
structure Logs (n : Nat) (s : SetupLog) (q : List UsbSetupFifoItem) : Prop where
  ring : Holds n s.dev.fifo.entries s.dev.fifo.tail.toNat s.dev.fifo.head.toNat q
  order : s.accepted.map UsbSetupFifoItem.view = s.popped ++ q
  here : PopAt s q

theorem push_refused_iff {n : Nat} {fifo : UsbSetupFifo} (x : UsbSetupFifoItem) :
    (usbSetupFifoPushIsr n fifo x).1 = false ↔
      ringNext n fifo.head = fifo.tail := by
  unfold usbSetupFifoPushIsr
  dsimp only
  split
  · next hfull => exact iff_of_true rfl hfull
  · next hroom => exact iff_of_false (by simp) hroom

/-- An event of the interrupt keeps the invariant: a push only adds behind
what the pop is at. -/
theorem PopAt.push {q' : List UsbSetupFifoItem} (h : PopAt s q)
    (hpc : s'.pc = s.pc) (hitem : s'.item = s.item)
    (htail : s'.dev.fifo.tail = s.dev.fifo.tail)
    (hq : ∀ x, q.head? = some x → q'.head? = some x) : PopAt s' q' := by
  match hs : s.pc with
  | .outside | .readTail => simp only [PopAt, hpc, hs]
  | .readHead _ =>
      simp only [PopAt, hpc, hs, htail] at h ⊢
      exact h
  | .copy _ _ =>
      simp only [PopAt, hpc, hs, htail, hitem] at h ⊢
      obtain ⟨ht, x, hx, hc⟩ := h
      exact ⟨ht, x, hq x hx, hc⟩
  | .storeTail _ =>
      simp only [PopAt, hpc, hs, htail, hitem] at h ⊢
      exact ⟨h.1, hq _ h.2⟩

theorem logs_isr {e : Ep0Event} {dev : Ep0} (hk : k ≤ 8)
    (hsize : fw.usbSetupFifoSize = 2 ^ k) (h : Logs (2 ^ k) s q)
    (hstep : ep0Step fw s.dev e = some dev) :
    ∃ q', Logs (2 ^ k) { s with dev := dev, accepted := s.accept fw e } q' := by
  have hfifo := ep0Step_fifo hstep
  cases he : e.logged with
  | none =>
      simp only [he] at hfifo
      refine ⟨q, ?_, ?_, ?_⟩
      · simp only [hfifo]
        exact h.ring
      · simp only [SetupLog.accept, he]
        exact h.order
      · exact h.here.push rfl rfl (congrArg UsbSetupFifo.tail hfifo)
          fun _ hx => hx
  | some p =>
      simp only [he, hsize] at hfifo
      by_cases hfull : ringNext (2 ^ k) s.dev.fifo.head = s.dev.fifo.tail
      · have hpush : usbSetupFifoPushIsr (2 ^ k) s.dev.fifo
            (UsbSetupFifoItem.view p) = (false, s.dev.fifo) := if_pos hfull
        rw [hpush] at hfifo
        refine ⟨q, ?_, ?_, ?_⟩
        · simp only [hfifo]
          exact h.ring
        · simp only [SetupLog.accept, he, hsize, hpush]
          exact h.order
        · exact h.here.push rfl rfl (congrArg UsbSetupFifo.tail hfifo)
            fun _ hx => hx
      · have hpush : usbSetupFifoPushIsr (2 ^ k) s.dev.fifo
            (UsbSetupFifoItem.view p) = (true, _) := if_neg hfull
        rw [hpush] at hfifo
        refine ⟨q ++ [UsbSetupFifoItem.view p], ?_, ?_, ?_⟩
        · simp only [hfifo]
          exact ring_push hk _ h.ring hfull
        · simp only [SetupLog.accept, he, hsize, hpush, if_true, List.map_append,
            h.order, List.append_assoc]
          rfl
        · have htail : dev.fifo.tail = s.dev.fifo.tail := by rw [hfifo]
          refine h.here.push rfl rfl htail fun x hx => ?_
          rw [List.head?_append, hx]
          rfl

/-! ## The main loop's side -/

theorem logs_main (hk : k ≤ 8) (hsize : fw.usbSetupFifoSize = 2 ^ k)
    (h : Logs (2 ^ k) s q) (hstep : PopStep fw s s') :
    ∃ q', Logs (2 ^ k) s' q' := by
  have hhere := h.here
  cases hstep with
  | readTail _ => exact ⟨q, h.ring, h.order, rfl⟩
  | empty _ _ => exact ⟨q, h.ring, h.order, trivial⟩
  | found hs hne =>
      simp only [PopAt, hs] at hhere
      have hq : q ≠ [] := by
        intro hnil
        exact hne (hhere.trans ((ring_empty_iff h.ring).mpr hnil).symm)
      obtain ⟨x, q', rfl⟩ := List.exists_cons_of_ne_nil hq
      exact ⟨x :: q', h.ring, h.order, hhere, x, rfl, copied_zero _ _⟩
  | @copy tail field hs =>
      simp only [PopAt, hs] at hhere
      obtain ⟨rfl, x, hx, hc⟩ := hhere
      obtain ⟨q', rfl⟩ := List.head?_eq_some_iff.mp hx
      have hfront := h.ring.front
      have hnext := hc.step
      refine ⟨x :: q', h.ring, h.order, ?_⟩
      by_cases hlast : field.val + 1 < 5
      · simp only [PopAt, hlast, dif_pos, hfront]
        exact ⟨trivial, x, rfl, hnext⟩
      · have hfive : field.val + 1 = 5 := by omega
        rw [hfive] at hnext
        simp only [PopAt, hlast, dif_neg, not_false_eq_true, hfront]
        exact ⟨trivial, congrArg some hnext.eq.symm⟩
  | storeTail hs =>
      simp only [PopAt, hs] at hhere
      obtain ⟨rfl, hx⟩ := hhere
      obtain ⟨q', rfl⟩ := List.head?_eq_some_iff.mp hx
      refine ⟨q', ?_, ?_, trivial⟩
      · simp only [hsize]
        exact ring_release hk h.ring
      · simp only [h.order, List.append_assoc]
        rfl

/-! ## Runs -/

theorem logs_step {e : SetupLogEvent} (hk : k ≤ 8)
    (hsize : fw.usbSetupFifoSize = 2 ^ k) (h : Logs (2 ^ k) s q)
    (hstep : setupLogStep fw s e = some s') : ∃ q', Logs (2 ^ k) s' q' := by
  cases setupLogStep_event hstep with
  | pop _ => exact ⟨q, h.ring, h.order, trivial⟩
  | main hpop => exact logs_main hk hsize h hpop
  | isr hdev => exact logs_isr hk hsize h hdev

theorem logs_init (dev : Ep0) (item : UsbSetupFifoItem) :
    Logs (2 ^ k) (setupLogInit dev item) [] where
  ring := Holds.empty (Nat.two_pow_pos k)
  order := rfl
  here := trivial

theorem logs_run {dev : Ep0} {item : UsbSetupFifoItem}
    {es : List SetupLogEvent} (hk : k ≤ 8) (hsize : fw.usbSetupFifoSize = 2 ^ k)
    (h : runs (setupLogStep fw) (setupLogInit dev item) es = some s) :
    ∃ q, Logs (2 ^ k) s q :=
  runs_inv (I := fun s => ∃ q, Logs (2 ^ k) s q)
    (fun _ _ _ ⟨_, hq⟩ hstep => logs_step hk hsize hq hstep)
    ⟨[], logs_init dev item⟩ h

/-- At every point of every run: the entries popped, then the entries from
tail to head, are the accepted packets in the order they came; each popped
entry decodes its packet; and a push is refused, with no effect, exactly when
all cells but one are taken by accepted entries that have not been released. -/
theorem setupLog_delivers {dev : Ep0} {item : UsbSetupFifoItem}
    {es : List SetupLogEvent} (hk : k ≤ 8) (hsize : fw.usbSetupFifoSize = 2 ^ k)
    (h : runs (setupLogStep fw) (setupLogInit dev item) es = some s) :
    s.accepted.map UsbSetupFifoItem.view = s.popped ++
        contents (2 ^ k) s.dev.fifo.entries s.dev.fifo.tail.toNat
          s.dev.fifo.head.toNat ∧
      List.Forall₂ Decodes s.popped (s.accepted.take s.popped.length) ∧
      ∀ x, ((usbSetupFifoPushIsr (2 ^ k) s.dev.fifo x).1 = false ↔
          s.accepted.length = s.popped.length + (2 ^ k - 1)) ∧
        ((usbSetupFifoPushIsr (2 ^ k) s.dev.fifo x).1 = false →
          (usbSetupFifoPushIsr (2 ^ k) s.dev.fifo x).2 = s.dev.fifo) := by
  obtain ⟨q, hq⟩ := logs_run hk hsize h
  have hlen := congrArg List.length hq.order
  rw [List.length_map, List.length_append] at hlen
  refine ⟨?_, ?_, ?_⟩
  · rw [← hq.ring.eq_contents]
    exact hq.order
  · have hpopped : s.popped =
        (s.accepted.take s.popped.length).map UsbSetupFifoItem.view := by
      rw [List.map_take, hq.order, List.take_left]
    have hviews : List.Forall₂ Decodes
        ((s.accepted.take s.popped.length).map UsbSetupFifoItem.view)
        (s.accepted.take s.popped.length) :=
      List.forall₂_map_left_iff.mpr (List.forall₂_same.mpr fun p _ => decodes_view p)
    rwa [← hpopped] at hviews
  · intro x
    have hroom := hq.ring.room
    refine ⟨?_, ?_⟩
    · rw [push_refused_iff, ring_full_iff hk hq.ring]
      omega
    · intro hrefused
      rw [usbSetupFifoPushIsr, if_pos ((push_refused_iff x).mp hrefused)]

/-- One SETUP logged, and popped while a second one comes in. -/
def twoSetups : List SetupLogEvent :=
  .isr (.setup (packetOf [0x80, 0x06, 0x00, 0x01, 0x00, 0x00, 0x40, 0x00])) ::
    .pop :: List.replicate 4 .main ++
    .isr (.setup (packetOf [0x00, 0x05, 0x07, 0x00, 0x00, 0x00, 0x00, 0x00])) ::
    List.replicate 4 .main

theorem setupLog_delivers_two :
    ∃ s, runs (setupLogStep demo) (setupLogInit powerOn ⟨0, 0, 0, 0, 0⟩)
        twoSetups = some s ∧
      s.accepted.map UsbSetupFifoItem.view = s.popped ++
        contents (2 ^ 3) s.dev.fifo.entries s.dev.fifo.tail.toNat
          s.dev.fifo.head.toNat ∧
      List.Forall₂ Decodes s.popped (s.accepted.take s.popped.length) ∧
      ∀ x, ((usbSetupFifoPushIsr (2 ^ 3) s.dev.fifo x).1 = false ↔
          s.accepted.length = s.popped.length + (2 ^ 3 - 1)) ∧
        ((usbSetupFifoPushIsr (2 ^ 3) s.dev.fifo x).1 = false →
          (usbSetupFifoPushIsr (2 ^ 3) s.dev.fifo x).2 = s.dev.fifo) := by
  have hsome : (runs (setupLogStep demo) (setupLogInit powerOn ⟨0, 0, 0, 0, 0⟩)
      twoSetups).isSome := rfl
  obtain ⟨s, hs⟩ := Option.isSome_iff_exists.mp hsome
  exact ⟨s, hs, setupLog_delivers (by decide) rfl hs⟩

end Ch552e.Proofs
