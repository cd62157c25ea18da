import Ch552e.Proofs.Alike
import Ch552e.Proofs.Board
import Ch552e.Proofs.MainLoop
import Ch552e.Proofs.StreamBounds

/-!
# What the program does not look at

No part of the program reads an array beyond its size: the indices stay below
(`InBounds`), and then two states whose arrays agree below the sizes take the same
step (`mainLoopStep_close`). Of the device they only have to be alike. This is what
makes room for other things in the memory behind an array.
-/

namespace Ch552e.Proofs

open Ch552e.Lib Ch552e.Ref

/-! ## The transmit half -/

section Tx

variable {n : Nat} {s s' t : UartTx} {e : UartTxEvent}

structure TxBounded (n : Nat) (s : UartTx) : Prop where
  below : TxBelow n s
  tail : s.txTail.toNat < n
  index : ∀ i, s.pc = .readByte i → i.toNat < n

structure TxClose (n : Nat) (s t : UartTx) : Prop where
  rest : t = { s with txBuffer := t.txBuffer }
  cells : AgreeBelow n s.txBuffer t.txBuffer

theorem txBounded_step (h : TxBounded n s) (hstep : uartTxStep n s e = some s') :
    TxBounded n s' := by
  have hn : 0 < n := Nat.lt_of_le_of_lt (Nat.zero_le _) h.tail
  have hbelow := (tx_writes h.below hstep).1
  cases uartTxStep_event hstep with
  | call _ hs _ => exact ⟨hbelow, h.tail, h.index⟩
  | sent _ | drained _ _ => exact ⟨hbelow, h.tail, h.index⟩
  | sendNext _ _ => exact ⟨hbelow, ringNext_lt hn _, h.index⟩
  | main hwrite =>
      cases hwrite with
      | full _ _ => exact h
      | readTail _ =>
          refine ⟨hbelow, h.tail, fun i hi => ?_⟩
          obtain rfl := WritePc.readByte.inj hi
          exact h.tail
      | storeTail _ =>
          exact ⟨hbelow, ringNext_lt hn _, fun i hi => absurd hi (by simp)⟩
      | _ => exact ⟨hbelow, h.tail, fun i hi => absurd hi (by simp)⟩

theorem uartTxStep_close (hb : TxBounded n s) (h : TxClose n s t) (e : UartTxEvent) :
    Option.Rel (TxClose n) (uartTxStep n s e) (uartTxStep n t e) := by
  obtain ⟨hrest, hcells⟩ := h
  generalize t.txBuffer = buf at hrest hcells
  subst hrest
  cases e with
  | call c =>
      simp only [uartTxStep]
      split
      · exact .some ⟨rfl, hcells⟩
      · exact .none
  | sent =>
      simp only [uartTxStep]
      split
      · exact .some ⟨rfl, hcells⟩
      · exact .none
  | isr =>
      have hcell := hcells _ hb.tail
      simp only [uartTxStep, uartIsrTransmit, UartTx.storeSbuf1, hcell]
      split
      · split
        · exact .some ⟨rfl, hcells⟩
        · exact .some ⟨rfl, hcells⟩
      · exact .none
  | main =>
      simp only [uartTxStep, uartMain]
      cases hs : s.pc with
      | outside =>
          cases hp : s.pending with
          | nil => exact .none
          | cons data rest => exact .some ⟨rfl, hcells⟩
      | waitRoom data nextHead =>
          simp only []
          split
          · exact .some ⟨by simp [hs], hcells⟩
          · exact .some ⟨rfl, hcells⟩
      | testBusy =>
          simp only []
          split
          · exact .some ⟨rfl, hcells⟩
          · exact .some ⟨rfl, hcells⟩
      | storeByte data nextHead index =>
          exact .some ⟨rfl, hcells.update _ _⟩
      | readByte tail =>
          have hcell := hcells _ (hb.index tail hs)
          simp only [hcell]
          exact .some ⟨rfl, hcells⟩
      | readHead _ | readIndex _ _ | storeHead _ | setBusy | readTail
      | storeSbuf1 _ | readTailAgain | storeTail _ => exact .some ⟨rfl, hcells⟩

end Tx

/-! ## The receive half -/

section Rx

variable {n : Nat} {s s' t : UartRx} {e : UartRxEvent}

structure RxBounded (n : Nat) (s : UartRx) : Prop where
  head : s.rxHead.toNat < n
  tail : s.rxTail.toNat < n
  index : ∀ i, s.pc = .readByte i → i.toNat < n

structure RxClose (n : Nat) (s t : UartRx) : Prop where
  rest : t = { s with rxBuffer := t.rxBuffer }
  cells : AgreeBelow n s.rxBuffer t.rxBuffer

theorem rxBounded_step (h : RxBounded n s) (hstep : uartRxStep n s e = some s') :
    RxBounded n s' := by
  have hn : 0 < n := Nat.lt_of_le_of_lt (Nat.zero_le _) h.tail
  cases uartRxStep_event hstep with
  | read _ | available _ => exact ⟨h.head, h.tail, fun i hi => absurd hi (by simp)⟩
  | dropped _ _ => exact h
  | stored _ _ => exact ⟨h.head, ringNext_lt hn _, h.index⟩
  | main hread =>
      cases hread with
      | readIndex _ =>
          refine ⟨h.head, h.tail, fun i hi => ?_⟩
          obtain rfl := ReadPc.readByte.inj hi
          exact h.head
      | storeHead _ =>
          exact ⟨ringNext_lt hn _, h.tail, fun i hi => absurd hi (by simp)⟩
      | _ => exact ⟨h.head, h.tail, fun i hi => absurd hi (by simp)⟩

theorem uartRxStep_close (hb : RxBounded n s) (h : RxClose n s t) (e : UartRxEvent) :
    Option.Rel (RxClose n) (uartRxStep n s e) (uartRxStep n t e) := by
  obtain ⟨hrest, hcells⟩ := h
  generalize t.rxBuffer = buf at hrest hcells
  subst hrest
  cases e with
  | read | available =>
      simp only [uartRxStep]
      split
      · exact .some ⟨rfl, hcells⟩
      · exact .none
  | received data =>
      simp only [uartRxStep, uartIsrReceive]
      split
      · exact .some ⟨rfl, hcells⟩
      · exact .some ⟨rfl, hcells.update _ _⟩
  | main =>
      simp only [uartRxStep, uartReadMain]
      cases hs : s.pc with
      | outside => exact .none
      | spinTail head =>
          simp only []
          split
          · exact .some ⟨rfl, hcells⟩
          · exact .some ⟨rfl, hcells⟩
      | readByte index =>
          have hcell := hcells _ (hb.index index hs)
          simp only [hcell]
          exact .some ⟨rfl, hcells⟩
      | spinHead | readIndex | readHeadAgain _ | storeHead _ _ | availableHead
      | availableTail _ => exact .some ⟨rfl, hcells⟩

end Rx

/-! ## The log -/

section Log

variable {n : Nat} {fw : Firmware} {f g : UsbSetupFifo} {s s' t : SetupLog}

structure FifoBounded (n : Nat) (f : UsbSetupFifo) : Prop where
  head : f.head.toNat < n
  tail : f.tail.toNat < n

structure FifoClose (n : Nat) (f g : UsbSetupFifo) : Prop where
  head : f.head = g.head
  tail : f.tail = g.tail
  cells : AgreeBelow n f.entries g.entries

theorem FifoClose.push (h : FifoClose n f g) (p : UsbSetupFifoItem) :
    (usbSetupFifoPushIsr n f p).1 = (usbSetupFifoPushIsr n g p).1 ∧
      FifoClose n (usbSetupFifoPushIsr n f p).2 (usbSetupFifoPushIsr n g p).2 := by
  simp only [usbSetupFifoPushIsr, h.head, h.tail]
  split
  · exact ⟨rfl, h⟩
  · exact ⟨rfl, rfl, rfl, h.cells.update _ _⟩

theorem FifoBounded.push (h : FifoBounded n f) (p : UsbSetupFifoItem) :
    FifoBounded n (usbSetupFifoPushIsr n f p).2 := by
  have hn : 0 < n := Nat.lt_of_le_of_lt (Nat.zero_le _) h.head
  simp only [usbSetupFifoPushIsr]
  split
  · exact h
  · exact ⟨ringNext_lt hn _, h.tail⟩

/-- The index that `usb_setup_fifo_pop` has read. -/
def PopBelow (n : Nat) : PopPc → Prop
  | .outside | .readTail => True
  | .readHead tail | .copy tail _ | .storeTail tail => tail.toNat < n

structure LogBounded (n : Nat) (s : SetupLog) : Prop where
  fifo : FifoBounded n s.dev.fifo
  pc : PopBelow n s.pc

structure LogClose (n : Nat) (s t : SetupLog) : Prop where
  dev : Alike s.dev t.dev
  fifo : FifoClose n s.dev.fifo t.dev.fifo
  pc : s.pc = t.pc
  item : s.item = t.item
  accepted : s.accepted = t.accepted
  popped : s.popped = t.popped

theorem fifo_of_event {d d' : Ep0} {e : Ep0Event}
    (h : FifoBounded fw.usbSetupFifoSize d.fifo) (hstep : ep0Step fw d e = some d') :
    FifoBounded fw.usbSetupFifoSize d'.fifo := by
  have hfifo := ep0Step_fifo hstep
  cases he : e.logged with
  | none =>
      simp only [he] at hfifo
      exact hfifo ▸ h
  | some p =>
      simp only [he] at hfifo
      exact hfifo ▸ h.push _

theorem logBounded_step {e : SetupLogEvent}
    (h : LogBounded fw.usbSetupFifoSize s) (hstep : setupLogStep fw s e = some s') :
    LogBounded fw.usbSetupFifoSize s' := by
  have hn := Nat.lt_of_le_of_lt (Nat.zero_le _) h.fifo.tail
  have hpc := h.pc
  cases setupLogStep_event hstep with
  | pop _ => exact ⟨h.fifo, trivial⟩
  | isr hdev => exact ⟨fifo_of_event h.fifo hdev, hpc⟩
  | main hpop =>
      cases hpop with
      | readTail _ => exact ⟨h.fifo, h.fifo.tail⟩
      | empty _ _ => exact ⟨h.fifo, trivial⟩
      | found hs _ =>
          rw [hs] at hpc
          exact ⟨h.fifo, hpc⟩
      | @copy tail field hs =>
          rw [hs] at hpc
          refine ⟨h.fifo, ?_⟩
          dsimp only
          split
          · exact hpc
          · exact hpc
      | storeTail _ => exact ⟨⟨h.fifo.head, ringNext_lt hn _⟩, trivial⟩

theorem LogClose.accept {e f : Ep0Event} (h : LogClose fw.usbSetupFifoSize s t)
    (hlogged : e.logged = f.logged) : s.accept fw e = t.accept fw f := by
  simp only [SetupLog.accept, h.accepted, hlogged]
  cases f.logged with
  | none => rfl
  | some p => simp only [(h.fifo.push (UsbSetupFifoItem.view p)).1]

theorem FifoClose.event {d d' q q' : Ep0} {e f : Ep0Event}
    (h : FifoClose fw.usbSetupFifoSize d.fifo q.fifo) (hlogged : e.logged = f.logged)
    (hd : ep0Step fw d e = some d') (hq : ep0Step fw q f = some q') :
    FifoClose fw.usbSetupFifoSize d'.fifo q'.fifo := by
  have hdf := ep0Step_fifo hd
  have hqf := ep0Step_fifo hq
  rw [hlogged] at hdf
  cases hf : f.logged with
  | none =>
      simp only [hf] at hdf hqf
      rw [hdf, hqf]
      exact h
  | some p =>
      simp only [hf] at hdf hqf
      rw [hdf, hqf]
      exact (h.push _).2

/-- Two events that are logged as one and that endpoint 0 takes for one. -/
theorem isr_close {e f : Ep0Event} (h : LogClose fw.usbSetupFifoSize s t)
    (hlogged : e.logged = f.logged)
    (hrel : Option.Rel Alike (ep0Step fw s.dev e) (ep0Step fw t.dev f)) :
    Option.Rel (LogClose fw.usbSetupFifoSize) (setupLogStep fw s (.isr e))
      (setupLogStep fw t (.isr f)) := by
  have hboth := rel_and hrel (fun _ hd => hd) (fun _ hq => hq)
  exact rel_map hboth fun _ _ ⟨halike, hd, hq⟩ =>
    ⟨halike, h.fifo.event hlogged hd hq, h.pc, h.item, h.accept hlogged, h.popped⟩

theorem popMain_close (hb : LogBounded fw.usbSetupFifoSize s)
    (h : LogClose fw.usbSetupFifoSize s t) :
    Option.Rel (LogClose fw.usbSetupFifoSize) (popMain fw s) (popMain fw t) := by
  have hpc := hb.pc
  simp only [popMain, ← h.pc]
  cases hs : s.pc with
  | outside => exact .none
  | readTail =>
      refine .some ⟨h.dev, h.fifo, ?_, h.item, h.accepted, h.popped⟩
      exact congrArg PopPc.readHead h.fifo.tail
  | readHead tail =>
      simp only [h.fifo.head]
      split
      · exact .some ⟨h.dev, h.fifo, rfl, h.item, h.accepted, h.popped⟩
      · exact .some ⟨h.dev, h.fifo, rfl, h.item, h.accepted, h.popped⟩
  | copy tail field =>
      rw [hs] at hpc
      have hcell := h.fifo.cells _ hpc
      refine .some ⟨h.dev, h.fifo, rfl, ?_, h.accepted, h.popped⟩
      simp only [hcell, h.item]
  | storeTail tail =>
      have halike : Alike
          { s.dev with fifo := { s.dev.fifo with
            tail := ringNext fw.usbSetupFifoSize tail } }
          { t.dev with fifo := { t.dev.fifo with
            tail := ringNext fw.usbSetupFifoSize tail } } :=
        ⟨⟨h.dev.length, h.dev.ctrl, h.dev.armed, h.dev.address,
          h.dev.configuration⟩, h.dev.state, h.dev.arms⟩
      refine .some ⟨halike, ⟨h.fifo.head, rfl, h.fifo.cells⟩, rfl, h.item, h.accepted,
        ?_⟩
      simp only [h.popped, h.item]

theorem setupLogStep_close (hb : LogBounded fw.usbSetupFifoSize s)
    (h : LogClose fw.usbSetupFifoSize s t) (e : SetupLogEvent) :
    Option.Rel (LogClose fw.usbSetupFifoSize) (setupLogStep fw s e)
      (setupLogStep fw t e) := by
  cases e with
  | pop =>
      simp only [setupLogStep, ← h.pc]
      cases hs : s.pc with
      | outside => exact .some ⟨h.dev, h.fifo, rfl, h.item, h.accepted, h.popped⟩
      | readTail | readHead _ | copy _ _ | storeTail _ => exact .none
  | main => exact popMain_close hb h
  | isr e => exact isr_close h rfl (ep0Step_alike h.dev e)

end Log

/-! ## What is armed -/

/-- What endpoint 0 sends is in its buffer, if the device descriptor is no longer
than that. -/
theorem fits_of_event {fw : Firmware} {d d' : Ep0} {e : Ep0Event}
    (hdev : (fw.code fw.usbGetDeviceDescriptor).toNat ≤ usbEp0BufferSize)
    (h : d.uep0TLen.toNat ≤ usbEp0BufferSize) (hstep : ep0Step fw d e = some d') :
    d'.uep0TLen.toNat ≤ usbEp0BufferSize := by
  have hzero : (0 : UInt8).toNat ≤ usbEp0BufferSize := Nat.zero_le _
  have hreceive : ∀ token rxLen data,
      (receive token rxLen data d).uep0TLen.toNat ≤ usbEp0BufferSize := by
    intro token rxLen data
    unfold receive
    split
    · exact h
    · exact h
  cases ep0Step_event hstep with
  | setup _ _ hset =>
      cases hset with
      | device _ => exact (deviceLength_le _ _).trans hdev
      | stream _ _ _ _ hprep => exact (usbEp0PrepareDescriptor_spends hprep).1
      | address _ | zero _ _ | configuration _ | rejected _ => exact hzero
  | tokenIn _ _ _ hin =>
      cases hin with
      | next _ _ _ _ hprep _ => exact (usbEp0PrepareDescriptor_spends hprep).1
      | ignored _ => exact h
      | address _ | configuration _ | finished _ | short _ _ _ _ _
      | zlp _ _ _ _ _ => exact hzero
  | tokenOut _ _ _ hout =>
      cases hout with
      | stalled _ _ | finished _ _ => exact hzero
      | ignored _ => exact hreceive _ _ _
  | malformed _ _ _ | busReset => exact hzero
  | other _ _ _ _ _ _ => exact h

/-! ## The UART -/

section Uart

variable {n m : Nat} {u u' v : Uart} {e : UartEvent}

structure UartBounded (n m : Nat) (u : Uart) : Prop where
  rx : RxBounded n u.rx
  tx : TxBounded m u.tx

structure UartClose (n m : Nat) (u v : Uart) : Prop where
  rx : RxClose n u.rx v.rx
  tx : TxClose m u.tx v.tx
  u1ri : u.u1ri = v.u1ri
  sbuf1 : u.sbuf1 = v.sbuf1
  arrived : u.arrived = v.arrived

theorem uartBounded_step (h : UartBounded n m u) (hstep : uartStep n m u e = some u') :
    UartBounded n m u' := by
  cases uartStep_event hstep with
  | call _ _ htx | write _ htx | sent htx => exact ⟨h.rx, txBounded_step h.tx htx⟩
  | read _ hrx | available _ hrx | fetch _ hrx => exact ⟨rxBounded_step h.rx hrx, h.tx⟩
  | arrived _ => exact ⟨h.rx, h.tx⟩
  | isr _ =>
      refine ⟨?_, ?_⟩
      · rw [uartIsr_rx]
        split
        · exact rxBounded_step (e := .received u.sbuf1) h.rx rfl
        · exact h.rx
      · rw [uartIsr_tx]
        split
        · next hti => exact txBounded_step (e := .isr) h.tx (if_pos hti)
        · exact h.tx

theorem UartClose.idle (h : UartClose n m u v) : u.idle = v.idle := by
  rw [Uart.idle, Uart.idle, h.rx.rest, h.tx.rest]

theorem uartIsr_close (hb : UartBounded n m u) (h : UartClose n m u v) :
    UartClose n m (uartIsr n m u) (uartIsr n m v) := by
  obtain ⟨hri, hsbuf, harrived⟩ := uartIsr_line n m u
  obtain ⟨hri', hsbuf', harrived'⟩ := uartIsr_line n m v
  have hti : v.tx.u1ti = u.tx.u1ti := by rw [h.tx.rest]
  refine ⟨?_, ?_, hri.trans hri'.symm, by rw [hsbuf, hsbuf', h.sbuf1],
    by rw [harrived, harrived', h.arrived]⟩
  · rw [uartIsr_rx, uartIsr_rx, ← h.u1ri, ← h.sbuf1]
    split
    · cases uartRxStep_close hb.rx h.rx (.received u.sbuf1) with
      | some hrx => exact hrx
    · exact h.rx
  · rw [uartIsr_tx, uartIsr_tx, hti]
    split
    · next hup =>
        have hrel := uartTxStep_close hb.tx h.tx .isr
        rw [uartTxStep, uartTxStep, hti, if_pos hup, if_pos hup] at hrel
        cases hrel with
        | some htx => exact htx
    · exact h.tx

theorem uartStep_close (hb : UartBounded n m u) (h : UartClose n m u v) (e : UartEvent) :
    Option.Rel (UartClose n m) (uartStep n m u e) (uartStep n m v e) := by
  have htx : ∀ f, Option.Rel (UartClose n m)
      ((uartTxStep m u.tx f).map fun tx => { u with tx := tx })
      ((uartTxStep m v.tx f).map fun tx => { v with tx := tx }) := fun f =>
    rel_map (uartTxStep_close hb.tx h.tx f) fun _ _ hclose =>
      ⟨h.rx, hclose, h.u1ri, h.sbuf1, h.arrived⟩
  have hrx : ∀ f, Option.Rel (UartClose n m)
      ((uartRxStep n u.rx f).map fun rx => { u with rx := rx })
      ((uartRxStep n v.rx f).map fun rx => { v with rx := rx }) := fun f =>
    rel_map (uartRxStep_close hb.rx h.rx f) fun _ _ hclose =>
      ⟨hclose, h.tx, h.u1ri, h.sbuf1, h.arrived⟩
  have hpc : v.rx.pc = u.rx.pc := by rw [h.rx.rest]
  have hti : v.tx.u1ti = u.tx.u1ti := by rw [h.tx.rest]
  cases e with
  | call c =>
      simp only [uartStep, ← h.idle]
      split
      · exact htx (.call c)
      · exact .none
  | read =>
      simp only [uartStep, ← h.idle]
      split
      · exact hrx .read
      · exact .none
  | available =>
      simp only [uartStep, ← h.idle]
      split
      · exact hrx .available
      · exact .none
  | main =>
      simp only [uartStep, uartMainStep, hpc]
      split
      · exact htx .main
      · exact hrx .main
  | sent => exact htx .sent
  | arrived data =>
      exact .some ⟨h.rx, h.tx, rfl, rfl, congrArg (· ++ [data]) h.arrived⟩
  | isr =>
      simp only [uartStep, hti, ← h.u1ri]
      split
      · exact .some (uartIsr_close hb h)
      · exact .none

end Uart

/-! ## The program -/

section Program

variable {c : Build} {s s' t : MainLoop} {e : MainLoopEvent}

structure InBounds (c : Build) (s : MainLoop) : Prop where
  armed : s.log.dev.uep0TLen.toNat ≤ usbEp0BufferSize
  log : LogBounded c.fw.usbSetupFifoSize s.log
  uart : UartBounded c.uart1RxBufsize c.uart1TxBufsize s.uart

structure Close (c : Build) (s t : MainLoop) : Prop where
  log : LogClose c.fw.usbSetupFifoSize s.log t.log
  uart : UartClose c.uart1RxBufsize c.uart1TxBufsize s.uart t.uart
  calls : s.calls = t.calls

theorem inBounds_step
    (hdev : (c.fw.code c.fw.usbGetDeviceDescriptor).toNat ≤ usbEp0BufferSize)
    (h : InBounds c s) (hstep : mainLoopStep c s e = some s') : InBounds c s' := by
  cases mainLoopStep_event hstep with
  | print _ _ huart | write _ huart | uart huart | sent huart | arrived _ huart =>
      exact ⟨h.armed, h.log, uartBounded_step h.uart huart⟩
  | poll _ _ _ => exact ⟨h.armed, ⟨h.log.fifo, trivial⟩, h.uart⟩
  | pop _ _ hpop =>
      have hlog := logBounded_step (e := .main) h.log (popMain_of_step hpop)
      refine ⟨?_, hlog, h.uart⟩
      cases hpop with
      | readTail _ | empty _ _ | found _ _ | copy _ | storeTail _ => exact h.armed
  | usb hevent =>
      exact ⟨fits_of_event hdev h.armed hevent,
        ⟨fifo_of_event h.log.fifo hevent, h.log.pc⟩, h.uart⟩

theorem uart_close (hb : InBounds c s) (h : Close c s t) (f : UartEvent) :
    Option.Rel (Close c)
      ((uartStep c.uart1RxBufsize c.uart1TxBufsize s.uart f).map fun uart =>
        { s with uart := uart })
      ((uartStep c.uart1RxBufsize c.uart1TxBufsize t.uart f).map fun uart =>
        { t with uart := uart }) :=
  rel_map (uartStep_close hb.uart h.uart f) fun _ _ hclose =>
    ⟨h.log, hclose, h.calls⟩

theorem mainLoop_close (hb : InBounds c s) (h : Close c s t) :
    Option.Rel (Close c) (mainLoop c s) (mainLoop c t) := by
  have hpop : Option.Rel (Close c)
      ((setupLogStep c.fw s.log .main).map fun log =>
        { s with log := log, calls := afterPop s.log.pc s.log.item })
      ((setupLogStep c.fw t.log .main).map fun log =>
        { t with log := log, calls := afterPop t.log.pc t.log.item }) := by
    rw [← h.log.pc, ← h.log.item]
    exact rel_map (setupLogStep_close hb.log h.log .main) fun _ _ hlog =>
      ⟨hlog, h.uart, rfl⟩
  unfold mainLoop
  rw [← h.uart.idle]
  split
  · rw [← h.calls]
    cases hcalls : s.calls with
    | cons call calls =>
        exact rel_map (uartStep_close hb.uart h.uart (.call call)) fun _ _ hclose =>
          ⟨h.log, hclose, rfl⟩
    | nil =>
        have hpc := h.log.pc
        cases hs : s.log.pc with
        | outside =>
            rw [hs] at hpc
            simp only [← hpc]
            exact rel_map (setupLogStep_close hb.log h.log .pop) fun _ _ hlog =>
              ⟨hlog, h.uart, rfl⟩
        | readTail | readHead _ | copy _ _ | storeTail _ =>
            rw [hs] at hpc
            simp only [hs, ← hpc] at hpop ⊢
            exact hpop
  · exact uart_close hb h .main

/-- States that are close take the same step. -/
theorem mainLoopStep_close (hb : InBounds c s) (h : Close c s t) (e : MainLoopEvent) :
    Option.Rel (Close c) (mainLoopStep c s e) (mainLoopStep c t e) := by
  cases e with
  | main => exact mainLoop_close hb h
  | usb e =>
      exact rel_map (setupLogStep_close hb.log h.log (.isr e)) fun _ _ hlog =>
        ⟨hlog, h.uart, h.calls⟩
  | uart => exact uart_close hb h .isr
  | sent => exact uart_close hb h .sent
  | arrived data => exact uart_close hb h (.arrived data)

end Program

end Ch552e.Proofs
