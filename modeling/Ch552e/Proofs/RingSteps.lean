import Ch552e.Lib.Ring
import Ch552e.Ref.SetupLog
import Ch552e.Ref.UartRx
import Ch552e.Ref.UartTx

/-!
# What an access to a ring does

The transmitter, the receiver and the SETUP log take one access of the main
program at a time. Each has the list of all that one step can do, with what it
has found out where it branches, and an invariant of a ring is a case analysis
over the list. What the interrupt does between two accesses is in it too.
-/

namespace Ch552e.Proofs

open Ch552e.Lib Ch552e.Lib.Ring Ch552e.Ref

/-! ## Indices of one byte

What the code compares are bytes; these are the ring's lemmas on them. -/

section Bytes

variable {α : Type} {k : Nat} {buf : Nat → α} {tail head : UInt8} {q : List α}

theorem ring_empty_iff {n : Nat} (h : Holds n buf tail.toNat head.toNat q) :
    head = tail ↔ q = [] := by
  rw [← UInt8.toNat_inj]
  exact h.empty_iff

theorem ring_full_iff (hk : k ≤ 8)
    (h : Holds (2 ^ k) buf tail.toNat head.toNat q) :
    ringNext (2 ^ k) head = tail ↔ q.length + 1 = 2 ^ k := by
  rw [← UInt8.toNat_inj, toNat_ringNext hk]
  exact h.full_iff

/-- The interrupt fills the cell at the head and moves it on at once. -/
theorem ring_push (hk : k ≤ 8) (x : α)
    (h : Holds (2 ^ k) buf tail.toNat head.toNat q)
    (hroom : ringNext (2 ^ k) head ≠ tail) :
    Holds (2 ^ k) (Function.update buf head.toNat x) tail.toNat
      (ringNext (2 ^ k) head).toNat (q ++ [x]) := by
  have hne : q.length + 1 ≠ 2 ^ k := mt (ring_full_iff hk h).mpr hroom
  have hlt : q.length < 2 ^ k := h.room
  have hpub := (h.store x).publish (by omega)
  rw [Function.update_self] at hpub
  rw [toNat_ringNext hk]
  exact hpub

theorem ring_release (hk : k ≤ 8) {x : α}
    (h : Holds (2 ^ k) buf tail.toNat head.toNat (x :: q)) :
    Holds (2 ^ k) buf (ringNext (2 ^ k) tail).toNat head.toNat q := by
  rw [toNat_ringNext hk]
  exact h.release

end Bytes

/-! ## The transmitter -/

/-- The accesses of `uart_write`. -/
inductive WriteStep (n : Nat) (s : UartTx) : UartTx → Prop where
  | outside {data : UInt8} {rest : List UInt8} (hs : s.pc = .outside)
      (hp : s.pending = data :: rest) :
      WriteStep n s { s with
        pc := .readHead data
        pending := rest
        written := s.written ++ [data] }
  | readHead {data : UInt8} (hs : s.pc = .readHead data) :
      WriteStep n s { s with pc := .waitRoom data (ringNext n s.txHead) }
  | full {data nextHead : UInt8} (hs : s.pc = .waitRoom data nextHead)
      (hfull : nextHead = s.txTail) : WriteStep n s s
  | room {data nextHead : UInt8} (hs : s.pc = .waitRoom data nextHead)
      (hroom : nextHead ≠ s.txTail) :
      WriteStep n s { s with pc := .readIndex data nextHead }
  | readIndex {data nextHead : UInt8} (hs : s.pc = .readIndex data nextHead) :
      WriteStep n s { s with pc := .storeByte data nextHead s.txHead }
  | storeByte {data nextHead index : UInt8}
      (hs : s.pc = .storeByte data nextHead index) :
      WriteStep n s { s with
        txBuffer := Function.update s.txBuffer index.toNat data
        pc := .storeHead nextHead }
  | storeHead {nextHead : UInt8} (hs : s.pc = .storeHead nextHead) :
      WriteStep n s { s with
        txHead := nextHead
        heads := s.heads + 1
        pc := .testBusy }
  | busy (hs : s.pc = .testBusy) (hbusy : s.txBusy = true) :
      WriteStep n s { s with pc := .outside }
  | idle (hs : s.pc = .testBusy) (hidle : s.txBusy = false) :
      WriteStep n s { s with pc := .setBusy }
  | setBusy (hs : s.pc = .setBusy) :
      WriteStep n s { s with txBusy := true, pc := .readTail }
  | readTail (hs : s.pc = .readTail) :
      WriteStep n s { s with pc := .readByte s.txTail }
  | readByte {tail : UInt8} (hs : s.pc = .readByte tail) :
      WriteStep n s { s with pc := .storeSbuf1 (s.txBuffer tail.toNat) }
  | storeSbuf1 {byte : UInt8} (hs : s.pc = .storeSbuf1 byte) :
      WriteStep n s { s with
        stored := s.stored ++ [byte]
        inFlight := true
        pc := .readTailAgain }
  | readTailAgain (hs : s.pc = .readTailAgain) :
      WriteStep n s { s with pc := .storeTail s.txTail }
  | storeTail {tail : UInt8} (hs : s.pc = .storeTail tail) :
      WriteStep n s { s with
        txTail := ringNext n tail
        tails := s.tails + 1
        pc := .outside }

theorem uartMain_step {n : Nat} {s s' : UartTx} (h : uartMain n s = some s') :
    WriteStep n s s' := by
  rw [uartMain] at h
  cases hs : s.pc with
  | outside =>
      cases hp : s.pending with
      | nil =>
          simp only [hs, hp] at h
          exact absurd h (by simp)
      | cons data rest =>
          simp only [hs, hp, Option.some.injEq] at h
          exact h ▸ .outside hs hp
  | readHead data =>
      simp only [hs, Option.some.injEq] at h
      exact h ▸ .readHead hs
  | waitRoom data nextHead =>
      simp only [hs] at h
      split at h
      · next hfull =>
          obtain rfl := Option.some.inj h
          exact .full hs hfull
      · next hroom =>
          obtain rfl := Option.some.inj h
          exact .room hs hroom
  | readIndex data nextHead =>
      simp only [hs, Option.some.injEq] at h
      exact h ▸ .readIndex hs
  | storeByte data nextHead index =>
      simp only [hs, Option.some.injEq] at h
      exact h ▸ .storeByte hs
  | storeHead nextHead =>
      simp only [hs, Option.some.injEq] at h
      exact h ▸ .storeHead hs
  | testBusy =>
      simp only [hs] at h
      split at h
      · next hbusy =>
          obtain rfl := Option.some.inj h
          exact .busy hs hbusy
      · next hidle =>
          obtain rfl := Option.some.inj h
          exact .idle hs (Bool.eq_false_iff.mpr hidle)
  | setBusy =>
      simp only [hs, Option.some.injEq] at h
      exact h ▸ .setBusy hs
  | readTail =>
      simp only [hs, Option.some.injEq] at h
      exact h ▸ .readTail hs
  | readByte tail =>
      simp only [hs, Option.some.injEq] at h
      exact h ▸ .readByte hs
  | storeSbuf1 byte =>
      simp only [hs, Option.some.injEq] at h
      exact h ▸ .storeSbuf1 hs
  | readTailAgain =>
      simp only [hs, Option.some.injEq] at h
      exact h ▸ .readTailAgain hs
  | storeTail tail =>
      simp only [hs, Option.some.injEq] at h
      exact h ▸ .storeTail hs

/-- All that an event can do to the transmitter: `drained` and `sendNext` are
the interrupt. -/
inductive TxStep (n : Nat) (s : UartTx) : UartTxEvent → UartTx → Prop where
  | call (c : UartCall) (hs : s.pc = .outside) (hp : s.pending = []) :
      TxStep n s (.call c) { s with pending := c.bytes }
  | main {s' : UartTx} (h : WriteStep n s s') : TxStep n s .main s'
  | sent (hflight : s.inFlight = true) :
      TxStep n s .sent { s with inFlight := false, u1ti := true }
  | drained (hti : s.u1ti = true) (hempty : s.txHead = s.txTail) :
      TxStep n s .isr { s with txBusy := false, u1ti := false }
  | sendNext (hti : s.u1ti = true) (hne : s.txHead ≠ s.txTail) :
      TxStep n s .isr { s with
        stored := s.stored ++ [s.txBuffer s.txTail.toNat]
        inFlight := true
        txTail := ringNext n s.txTail
        tails := s.tails + 1
        u1ti := false }

theorem uartTxStep_event {n : Nat} {s s' : UartTx} {e : UartTxEvent}
    (h : uartTxStep n s e = some s') : TxStep n s e s' := by
  cases e with
  | call c =>
      simp only [uartTxStep] at h
      split at h
      · next hout =>
          obtain rfl := Option.some.inj h
          exact .call c hout.1 hout.2
      · exact absurd h (by simp)
  | main => exact .main (uartMain_step h)
  | sent =>
      simp only [uartTxStep] at h
      split at h
      · next hflight =>
          obtain rfl := Option.some.inj h
          exact .sent hflight
      · exact absurd h (by simp)
  | isr =>
      simp only [uartTxStep] at h
      split at h
      · next hti =>
          obtain rfl := Option.some.inj h
          by_cases hempty : s.txHead = s.txTail
          · rw [uartIsrTransmit, if_neg (not_not.mpr hempty)]
            exact .drained hti hempty
          · rw [uartIsrTransmit, if_pos hempty]
            exact .sendNext hti hempty
      · exact absurd h (by simp)

/-! ## The receiver -/

/-- The accesses of `uart_read` and `uart_available`. -/
inductive ReadStep (n : Nat) (s : UartRx) : UartRx → Prop where
  | spinHead (hs : s.pc = .spinHead) :
      ReadStep n s { s with pc := .spinTail s.rxHead }
  | empty {head : UInt8} (hs : s.pc = .spinTail head)
      (hempty : head = s.rxTail) :
      ReadStep n s { s with pc := .spinHead, spins := s.spins + 1 }
  | found {head : UInt8} (hs : s.pc = .spinTail head) (hne : head ≠ s.rxTail) :
      ReadStep n s { s with pc := .readIndex }
  | readIndex (hs : s.pc = .readIndex) :
      ReadStep n s { s with pc := .readByte s.rxHead }
  | readByte {index : UInt8} (hs : s.pc = .readByte index) :
      ReadStep n s { s with pc := .readHeadAgain (s.rxBuffer index.toNat) }
  | readHeadAgain {data : UInt8} (hs : s.pc = .readHeadAgain data) :
      ReadStep n s { s with pc := .storeHead data s.rxHead }
  | storeHead {data head : UInt8} (hs : s.pc = .storeHead data head) :
      ReadStep n s { s with
        rxHead := ringNext n head
        pc := .outside
        returned := s.returned ++ [data]
        available := false
        spins := 0 }
  | availableHead (hs : s.pc = .availableHead) :
      ReadStep n s { s with pc := .availableTail s.rxHead }
  | availableTail {head : UInt8} (hs : s.pc = .availableTail head) :
      ReadStep n s { s with
        pc := .outside
        available := s.available || head ≠ s.rxTail }

theorem uartReadMain_step {n : Nat} {s s' : UartRx}
    (h : uartReadMain n s = some s') : ReadStep n s s' := by
  rw [uartReadMain] at h
  cases hs : s.pc with
  | outside =>
      simp only [hs] at h
      exact absurd h (by simp)
  | spinHead =>
      simp only [hs, Option.some.injEq] at h
      exact h ▸ .spinHead hs
  | spinTail head =>
      simp only [hs] at h
      split at h
      · next hempty =>
          obtain rfl := Option.some.inj h
          exact .empty hs hempty
      · next hne =>
          obtain rfl := Option.some.inj h
          exact .found hs hne
  | readIndex =>
      simp only [hs, Option.some.injEq] at h
      exact h ▸ .readIndex hs
  | readByte index =>
      simp only [hs, Option.some.injEq] at h
      exact h ▸ .readByte hs
  | readHeadAgain data =>
      simp only [hs, Option.some.injEq] at h
      exact h ▸ .readHeadAgain hs
  | storeHead data head =>
      simp only [hs, Option.some.injEq] at h
      exact h ▸ .storeHead hs
  | availableHead =>
      simp only [hs, Option.some.injEq] at h
      exact h ▸ .availableHead hs
  | availableTail head =>
      simp only [hs, Option.some.injEq] at h
      exact h ▸ .availableTail hs

/-- All that an event can do to the receiver: `dropped` and `stored` are the
interrupt. -/
inductive RxStep (n : Nat) (s : UartRx) : UartRxEvent → UartRx → Prop where
  | read (hs : s.pc = .outside) : RxStep n s .read { s with pc := .spinHead }
  | available (hs : s.pc = .outside) :
      RxStep n s .available { s with pc := .availableHead }
  | main {s' : UartRx} (h : ReadStep n s s') : RxStep n s .main s'
  | dropped (data : UInt8) (hfull : ringNext n s.rxTail = s.rxHead) :
      RxStep n s (.received data) s
  | stored (data : UInt8) (hroom : ringNext n s.rxTail ≠ s.rxHead) :
      RxStep n s (.received data) { s with
        rxBuffer := Function.update s.rxBuffer s.rxTail.toNat data
        rxTail := ringNext n s.rxTail
        accepted := s.accepted ++ [data] }

theorem uartRxStep_event {n : Nat} {s s' : UartRx} {e : UartRxEvent}
    (h : uartRxStep n s e = some s') : RxStep n s e s' := by
  cases e with
  | read =>
      simp only [uartRxStep] at h
      split at h
      · next hs =>
          obtain rfl := Option.some.inj h
          exact .read hs
      · exact absurd h (by simp)
  | available =>
      simp only [uartRxStep] at h
      split at h
      · next hs =>
          obtain rfl := Option.some.inj h
          exact .available hs
      · exact absurd h (by simp)
  | main => exact .main (uartReadMain_step h)
  | received data =>
      obtain rfl := Option.some.inj h
      by_cases hfull : ringNext n s.rxTail = s.rxHead
      · rw [uartIsrReceive, if_pos hfull]
        exact .dropped data hfull
      · rw [uartIsrReceive, if_neg hfull]
        exact .stored data hfull

/-! ## The SETUP log -/

/-- The accesses of `usb_setup_fifo_pop`. -/
inductive PopStep (fw : Firmware) (s : SetupLog) : SetupLog → Prop where
  | readTail (hs : s.pc = .readTail) :
      PopStep fw s { s with pc := .readHead s.dev.fifo.tail }
  | empty {tail : UInt8} (hs : s.pc = .readHead tail)
      (hempty : tail = s.dev.fifo.head) :
      PopStep fw s { s with pc := .outside }
  | found {tail : UInt8} (hs : s.pc = .readHead tail)
      (hne : tail ≠ s.dev.fifo.head) :
      PopStep fw s { s with pc := .copy tail 0 }
  | copy {tail : UInt8} {field : Fin 5} (hs : s.pc = .copy tail field) :
      PopStep fw s { s with
        item := UsbSetupFifoItem.copyField (s.dev.fifo.entries tail.toNat)
          s.item field
        pc :=
          if h : field.val + 1 < 5 then .copy tail ⟨field.val + 1, h⟩
          else .storeTail tail }
  | storeTail {tail : UInt8} (hs : s.pc = .storeTail tail) :
      PopStep fw s { s with
        dev := { s.dev with
          fifo := { s.dev.fifo with
            tail := ringNext fw.usbSetupFifoSize tail } }
        pc := .outside
        popped := s.popped ++ [s.item] }

theorem popMain_step {fw : Firmware} {s s' : SetupLog}
    (h : popMain fw s = some s') : PopStep fw s s' := by
  rw [popMain] at h
  cases hs : s.pc with
  | outside =>
      simp only [hs] at h
      exact absurd h (by simp)
  | readTail =>
      simp only [hs, Option.some.injEq] at h
      exact h ▸ .readTail hs
  | readHead tail =>
      simp only [hs] at h
      split at h
      · next hempty =>
          obtain rfl := Option.some.inj h
          exact .empty hs hempty
      · next hne =>
          obtain rfl := Option.some.inj h
          exact .found hs hne
  | copy tail field =>
      simp only [hs, Option.some.injEq] at h
      exact h ▸ .copy hs
  | storeTail tail =>
      simp only [hs, Option.some.injEq] at h
      exact h ▸ .storeTail hs

/-- All that an event can do to the log. -/
inductive LogStep (fw : Firmware) (s : SetupLog) :
    SetupLogEvent → SetupLog → Prop where
  | pop (hs : s.pc = .outside) : LogStep fw s .pop { s with pc := .readTail }
  | main {s' : SetupLog} (h : PopStep fw s s') : LogStep fw s .main s'
  | isr {e : Ep0Event} {dev : Ep0} (h : ep0Step fw s.dev e = some dev) :
      LogStep fw s (.isr e) { s with dev := dev, accepted := s.accept fw e }

theorem setupLogStep_event {fw : Firmware} {s s' : SetupLog} {e : SetupLogEvent}
    (h : setupLogStep fw s e = some s') : LogStep fw s e s' := by
  cases e with
  | pop =>
      rw [setupLogStep] at h
      split at h
      · next hs =>
          obtain rfl := Option.some.inj h
          exact .pop hs
      all_goals exact absurd h (by simp)
  | main => exact .main (popMain_step h)
  | isr e =>
      obtain ⟨dev, hdev, rfl⟩ := Option.map_eq_some_iff.mp h
      exact .isr hdev

end Ch552e.Proofs
