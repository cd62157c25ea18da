import Ch552e.Proofs.Local
import Ch552e.Ref.Chip
import Ch552e.Spec.Control

/-!
# The program on one memory

Where the sizes fit between the addresses, it makes no difference to the program
that its queues are in one memory (`chip_runs_program`). A step on the memory is
the same step on what is loaded from it, and stores in the region of one object
only; the program does not look at the rest of the memory (`Local.lean`), so the
two stay close. All that is proved of the program with its queues apart holds of
it on the chip.
-/

namespace Ch552e.Proofs

open Ch552e.Lib Ch552e.Ref Ch552e.Spec

/-! ## Endpoint 0 on the memory -/

section Ep0

variable {c : Build} {fw : Firmware} {s s' t r : Ep0} {e : Ep0Event}

theorem sameArms_of_eq (harms : s.arms = t.arms) : SameArms s t := by
  simp only [SameArms, harms]
  split <;> trivial

theorem Alike.refl (s : Ep0) : Alike s s :=
  ⟨⟨rfl, rfl, rfl, rfl, rfl⟩, rfl, sameArms_of_eq rfl⟩

theorem Alike.trans (hst : Alike s t) (htr : Alike t r) : Alike s r := by
  refine ⟨⟨hst.length.trans htr.length, hst.ctrl.trans htr.ctrl,
    hst.armed.trans htr.armed, hst.address.trans htr.address,
    hst.configuration.trans htr.configuration⟩, hst.state.trans htr.state, ?_⟩
  have hs := hst.arms
  have ht := htr.arms
  simp only [SameArms, ← hst.state] at hs ht ⊢
  split
  · next hstate =>
      simp only [hstate] at hs ht
      exact hs.trans ht
  · next hstate =>
      simp only [hstate] at hs ht
      exact hs.trans ht
  · next hstate =>
      simp only [hstate] at hs ht
      exact hs.trans ht
  all_goals trivial

/-- What is not armed and not in the storage makes no difference. -/
theorem alike_of_memory {xram : Nat → UInt8} {fifo : UsbSetupFifo}
    (h : slice xram usbEp0BufferAddress s.uep0TLen.toNat = s.armed) :
    Alike { s with xram := xram, fifo := fifo } s :=
  ⟨⟨rfl, rfl, h, rfl, rfl⟩, rfl, sameArms_of_eq rfl⟩

theorem ep0StepOn_setup (fw : Firmware) (data : Nat → UInt8) (s : Ep0) :
    ep0StepOn fw s (.packet uisTokenSetup 8 data) =
      (usbEp0HandleSetup fw (.ofData data) (logSetupOn fw (.ofData data)
        (receive uisTokenSetup 8 data s))).map answerSetup := by
  have hlen : (receive uisTokenSetup 8 data s).usbRxLen = 8 := rfl
  rw [ep0StepOn, usbEp0HandlePacketOn, usbEp0HandlePacketWith, if_pos rfl, hlen,
    if_neg (by decide)]
  simp only [copySetupPacket_receive]

/-- Only a SETUP that is logged is handled another way. -/
theorem ep0StepOn_eq (h : e.logged = none) : ep0StepOn fw s e = ep0Step fw s e := by
  cases e using ep0Event_cases with
  | setup data => exact absurd h (by simp [Ep0Event.logged])
  | malformed rxLen data hlen =>
      have hrx : (receive uisTokenSetup rxLen data s).usbRxLen = rxLen := rfl
      rw [ep0Step_setup_length fw data s hlen, ep0StepOn, usbEp0HandlePacketOn,
        usbEp0HandlePacketWith, if_pos rfl, hrx, if_pos hlen]
  | tokenIn rxLen data => rfl
  | tokenOut rxLen data => rfl
  | other token rxLen data hsetup hin hout =>
      rw [ep0StepOn, ep0Step, usbEp0HandlePacketOn, usbEp0HandlePacket,
        usbEp0HandlePacketWith, usbEp0HandlePacketWith, if_neg hsetup, if_neg hsetup]
  | busReset => rfl

theorem setup_of_logged {p : UsbSetupPacket} (h : e.logged = some p) :
    ∃ data, e = .packet uisTokenSetup 8 data ∧ p = .ofData data := by
  cases e with
  | busReset => exact absurd h (by simp [Ep0Event.logged])
  | packet token rxLen data =>
      simp only [Ep0Event.logged] at h
      split at h
      · next hsetup =>
          obtain ⟨rfl, rfl⟩ := hsetup
          exact ⟨data, rfl, (Option.some.inj h).symm⟩
      · exact absurd h (by simp)

theorem ep0StepOn_alike (fw : Firmware) (s : Ep0) (e : Ep0Event) :
    Option.Rel Alike (ep0StepOn fw s e) (ep0Step fw s e) := by
  cases hlogged : e.logged with
  | none =>
      rw [ep0StepOn_eq hlogged]
      exact rel_refl Alike.refl _
  | some p =>
      obtain ⟨data, rfl, rfl⟩ := setup_of_logged hlogged
      rw [ep0StepOn_setup, ep0Step_setup]
      by_cases hp : accepts (.ofData data) = true
      · exact rel_map (handleSetup_alike hp rfl rfl) fun _ _ hrq => hrq
      · have hno : accepts (.ofData data) = false := by simpa using hp
        rw [handleSetup_rejected fw _ hno, handleSetup_rejected fw _ hno]
        exact .some ⟨⟨rfl, rfl, rfl, rfl, rfl⟩, rfl, sameArms_of_eq rfl⟩

/-- What an event does to the memory: the queue in it takes the packet, and
behind the buffer and beside the queue nothing is written. -/
theorem ep0StepOn_memory
    (hdev : (c.fw.code c.fw.usbGetDeviceDescriptor).toNat ≤ usbEp0BufferSize)
    (hhead : (loadFifo s.xram).head.toNat < c.fw.usbSetupFifoSize)
    (h : ep0StepOn c.fw s e = some s') :
    loadFifo s'.xram = (match e.logged with
      | some p => (usbSetupFifoPushIsr c.fw.usbSetupFifoSize (loadFifo s.xram)
          (UsbSetupFifoItem.view p)).2
      | none => loadFifo s.xram) ∧
    ∀ q : Region, ep0Region.Apart q → (c.region .fifo).Apart q → ∀ a, q.Has a →
      s'.xram a = s.xram a := by
  cases hlogged : e.logged with
  | none =>
      rw [ep0StepOn_eq hlogged] at h
      have hwrites := ep0Step_confined hdev h
      exact ⟨loadFifo_congr hwrites, fun q hq _ a ha => hwrites.apart hq ha⟩
  | some p =>
      obtain ⟨data, rfl, rfl⟩ := setup_of_logged hlogged
      rw [ep0StepOn_setup] at h
      have hset := setup_confined hdev (handleSetup_step h)
      have hrx := receive_confined uisTokenSetup 8 data s
      have hloaded := loadFifo_congr hrx
      obtain ⟨_, hsame⟩ := push_writes
        (loadFifo (receive uisTokenSetup 8 data s).xram)
        (UsbSetupFifoItem.view (.ofData data)) (hloaded ▸ hhead)
      have hpush := storeFifo_confined (c := c) hsame
      refine ⟨?_, fun q hq hqf a ha => ?_⟩
      · rw [loadFifo_congr hset, ← hloaded]
        exact loadFifo_storeFifo _ _
      · exact (hset.apart hq ha).trans ((hpush.apart hqf ha).trans (hrx.apart hq ha))

end Ep0

/-! ## What a step of the program writes -/

section Writes

variable {c : Build} {n m : Nat} {u u' : Uart} {s s' : MainLoop}

theorem uartMain_writes (hb : UartBounded n m u) (h : uartStep n m u .main = some u') :
    u'.rx.rxBuffer = u.rx.rxBuffer ∧ WritesBelow m u.tx.txBuffer u'.tx.txBuffer := by
  cases uartStep_event h with
  | write _ htx => exact ⟨rfl, (tx_writes hb.tx.below htx).2⟩
  | fetch _ hrx =>
      refine ⟨?_, .inl rfl⟩
      cases uartRxStep_event hrx with
      | main hread =>
          cases hread with
          | spinHead _ | empty _ _ | found _ _ | readIndex _ | readByte _
          | readHeadAgain _ | storeHead _ | availableHead _ | availableTail _ => rfl

theorem uartIsr_writes (hb : UartBounded n m u) :
    WritesBelow n u.rx.rxBuffer (uartIsr n m u).rx.rxBuffer ∧
      (uartIsr n m u).tx.txBuffer = u.tx.txBuffer := by
  refine ⟨?_, ?_⟩
  · rw [uartIsr_rx]
    split
    · exact (rx_writes (e := .received u.sbuf1) hb.rx.tail rfl).2
    · exact .inl rfl
  · rw [uartIsr_tx, uartIsrTransmit]
    split
    · split
      · rfl
      · rfl
    · rfl

/-- Outside of the functions of the UART the main program writes the indices of
the queue, in them `tx_buffer`. -/
theorem mainLoop_writes (hb : InBounds c s) (h : mainLoop c s = some s') :
    s'.uart.rx.rxBuffer = s.uart.rx.rxBuffer ∧
      if s.uart.idle then
        s'.uart.tx.txBuffer = s.uart.tx.txBuffer ∧
          ∃ head tail, s'.log.dev = { s.log.dev with
            fifo := ⟨head, tail, s.log.dev.fifo.entries⟩ }
      else
        WritesBelow c.uart1TxBufsize s.uart.tx.txBuffer s'.uart.tx.txBuffer ∧
          s'.log.dev = s.log.dev := by
  cases mainLoop_step h with
  | print hidle _ huart =>
      rw [if_pos hidle]
      cases uartStep_event huart with
      | call _ _ htx =>
          cases uartTxStep_event htx with
          | call _ _ _ => exact ⟨rfl, rfl, _, _, rfl⟩
  | poll hidle _ _ =>
      rw [if_pos hidle]
      exact ⟨rfl, rfl, _, _, rfl⟩
  | pop hidle _ hpop =>
      rw [if_pos hidle]
      cases hpop with
      | readTail _ | empty _ _ | found _ _ | copy _ | storeTail _ =>
          exact ⟨rfl, rfl, _, _, rfl⟩
  | write hidle huart =>
      obtain ⟨hrx, htx⟩ := uartMain_writes hb.uart huart
      rw [hidle, if_neg (by simp)]
      exact ⟨hrx, htx, rfl⟩

end Writes

/-! ## Steps -/

section Steps

variable {c : Build} {b b' : Chip} {s t : MainLoop} {m m' : Nat → UInt8}

theorem FifoClose.refl (n : Nat) (f : UsbSetupFifo) : FifoClose n f f :=
  ⟨rfl, rfl, .refl _ _⟩

/-- What is written beside the queue leaves what the program sees of it. -/
theorem loadFifo_close {r : Region} (h : Confined r m m')
    (hr : r.Apart (c.region .fifo)) :
    FifoClose c.fw.usbSetupFifoSize (loadFifo m') (loadFifo m) := by
  have hsame : ∀ a, (c.region .fifo).Has a → m' a = m a := fun _ ha => h.apart hr ha
  have hhas : ∀ k, k < 2 + usbSetupFifoItemSize * c.fw.usbSetupFifoSize →
      (c.region .fifo).Has (usbSetupFifoAddress + k) := fun k hk =>
    ⟨Nat.le_add_right _ _, Nat.add_lt_add_left hk _⟩
  refine ⟨hsame _ (hhas 0 (by omega)), hsame _ (hhas 1 (by omega)), fun i hi => ?_⟩
  simp only [loadFifo]
  congr 2
  funext k
  have haddr : entriesAddress + usbSetupFifoItemSize * i + k.val =
      usbSetupFifoAddress + (2 + usbSetupFifoItemSize * i + k.val) := by
    rw [entriesAddress]
    omega
  rw [haddr]
  refine hsame _ (hhas _ ?_)
  have hk := k.isLt
  rw [usbSetupFifoItemSize]
  omega

/-- What is loaded is close to the program, if the memory is. -/
theorem close_load (hdev : slice m usbEp0BufferAddress s.log.dev.uep0TLen.toNat =
      s.log.dev.armed)
    (hfifo : FifoClose c.fw.usbSetupFifoSize (loadFifo m) s.log.dev.fifo)
    (hrx : AgreeBelow c.uart1RxBufsize (loadArray m uart1RxBufferAddress)
      s.uart.rx.rxBuffer)
    (htx : AgreeBelow c.uart1TxBufsize (loadArray m uart1TxBufferAddress)
      s.uart.tx.txBuffer) : Close c (Chip.load ⟨m, s⟩) s where
  log := ⟨alike_of_memory hdev, hfifo, rfl, rfl, rfl, rfl⟩
  uart := ⟨⟨rfl, hrx⟩, ⟨rfl, htx⟩, rfl, rfl, rfl⟩
  calls := rfl

theorem slice_confined {r : Region} (h : Confined r m m') (hr : r.Apart ep0Region)
    {k : Nat} (hk : k ≤ usbEp0BufferSize) :
    slice m' usbEp0BufferAddress k = slice m usbEp0BufferAddress k :=
  slice_congr fun _ hi =>
    h.apart hr ⟨Nat.le_add_right _ _, Nat.add_lt_add_left (hi.trans_le hk) _⟩

/-- The main program stores to the queue or to `tx_buffer`. -/
theorem chip_main_confined (hb : InBounds c b.load) (h : mainLoop c b.load = some s) :
    if b.prog.uart.idle then
      Confined (c.region .fifo) b.xram (storeFifo b.xram s.log.dev.fifo)
    else
      Confined (c.region .txBuffer) b.xram
        (storeArray b.xram uart1TxBufferAddress s.uart.tx.txBuffer) := by
  have hwrites := (mainLoop_writes hb h).2
  split
  · next hidle =>
      have hcase : b.load.uart.idle = true := hidle
      rw [if_pos hcase] at hwrites
      obtain ⟨_, head, tail, hdev⟩ := hwrites
      have hentries : s.log.dev.fifo.entries = (loadFifo b.xram).entries := by
        rw [hdev]
        rfl
      exact storeFifo_confined fun i _ => congrFun hentries i
  · next hidle =>
      have hcase : ¬ b.load.uart.idle = true := hidle
      rw [if_neg hcase] at hwrites
      exact storeArray_confined hwrites.1

theorem chip_main (hfits : Fits c) (hb : InBounds c b.load)
    (h : mainLoop c b.load = some s) :
    Close c (if b.prog.uart.idle then b.storeLog s else b.storeTx s).load s := by
  have hidle : b.load.uart.idle = b.prog.uart.idle := rfl
  have hstore := chip_main_confined hb h
  obtain ⟨hrx, hwrites⟩ := mainLoop_writes hb h
  rw [hidle] at hwrites
  cases hcase : b.prog.uart.idle with
  | true =>
      rw [hcase, if_pos rfl] at hwrites hstore
      obtain ⟨htx, head, tail, hdev⟩ := hwrites
      rw [if_pos rfl]
      refine close_load ?_ ?_ ?_ ?_
      · rw [slice_confined hstore (apart_of_fits hfits (y := .ep0Buffer) (by decide))
          (by rw [hdev]; exact hb.armed), hdev]
        rfl
      · rw [loadFifo_storeFifo]
        exact .refl _ _
      · rw [hrx]
        exact hstore.agreeBelow (apart_of_fits hfits (y := .rxBuffer) (by decide))
      · rw [htx]
        exact hstore.agreeBelow (apart_of_fits hfits (y := .txBuffer) (by decide))
  | false =>
      rw [hcase, if_neg (by decide)] at hwrites hstore
      obtain ⟨htx, hdev⟩ := hwrites
      rw [if_neg (by decide)]
      refine close_load ?_ ?_ ?_ fun i _ => storeArray_add i
      · rw [slice_confined hstore (apart_of_fits hfits (y := .ep0Buffer) (by decide))
          (by rw [hdev]; exact hb.armed), hdev]
        rfl
      · rw [hdev]
        exact loadFifo_close hstore (apart_of_fits hfits (by decide))
      · rw [hrx]
        exact hstore.agreeBelow (apart_of_fits hfits (y := .rxBuffer) (by decide))

theorem chip_uart_confined (hb : InBounds c b.load)
    (h : mainLoopStep c b.load .uart = some s) :
    Confined (c.region .rxBuffer) b.xram (b.storeRx s).xram := by
  cases mainLoopStep_event h with
  | uart huart =>
      cases uartStep_event huart with
      | isr _ => exact storeArray_confined (uartIsr_writes hb.uart).1

theorem chip_uart (hfits : Fits c) (hb : InBounds c b.load)
    (h : mainLoopStep c b.load .uart = some s) : Close c (b.storeRx s).load s := by
  have hstore := chip_uart_confined hb h
  cases mainLoopStep_event h with
  | uart huart =>
      cases uartStep_event huart with
      | isr _ =>
          refine close_load ?_ ?_ (fun i _ => storeArray_add i) ?_
          · exact slice_confined hstore
              (apart_of_fits hfits (y := .ep0Buffer) (by decide)) hb.armed
          · exact loadFifo_close hstore (apart_of_fits hfits (by decide))
          · rw [(uartIsr_writes hb.uart).2]
            exact hstore.agreeBelow (apart_of_fits hfits (y := .txBuffer) (by decide))

theorem chip_usb (hfits : Fits c)
    (hdev : (c.fw.code c.fw.usbGetDeviceDescriptor).toNat ≤ usbEp0BufferSize)
    (hb : InBounds c b.load) (e : Ep0Event) :
    Option.Rel (fun b' s' => Close c b'.load s') (chipStep c b (.usb e))
      (mainLoopStep c b.load (.usb e)) := by
  have hhead : (loadFifo b.load.log.dev.xram).head.toNat < c.fw.usbSetupFifoSize :=
    hb.log.fifo.head
  have hrel := rel_and (ep0StepOn_alike c.fw b.load.log.dev e)
    (fun _ hd => ep0StepOn_memory hdev hhead hd) (fun _ hd => ep0Step_fifo hd)
  simp only [chipStep, mainLoopStep, setupLogStep, Option.map_map]
  refine rel_map hrel ?_
  rintro d q ⟨halike, ⟨hqueue, hsame⟩, hfifo⟩
  have hrx := hsame ⟨uart1RxBufferAddress, c.uart1RxBufsize⟩
    (apart_of_fits hfits (x := .ep0Buffer) (y := .rxBuffer) (by decide))
    (apart_of_fits hfits (y := .rxBuffer) (by decide))
  have htx := hsame ⟨uart1TxBufferAddress, c.uart1TxBufsize⟩
    (apart_of_fits hfits (x := .ep0Buffer) (y := .txBuffer) (by decide))
    (apart_of_fits hfits (y := .txBuffer) (by decide))
  refine ⟨⟨(alike_of_memory rfl).trans halike, ?_, rfl, rfl, rfl, rfl⟩,
    ⟨⟨rfl, ?_⟩, ⟨rfl, ?_⟩, rfl, rfl, rfl⟩, rfl⟩
  · show FifoClose _ (loadFifo d.xram) q.fifo
    rw [hqueue, hfifo]
    exact .refl _ _
  · exact fun i hi => hrx _ ⟨Nat.le_add_right _ _, Nat.add_lt_add_left hi _⟩
  · exact fun i hi => htx _ ⟨Nat.le_add_right _ _, Nat.add_lt_add_left hi _⟩

theorem chip_same (h : s.log = b.load.log) (hrx : s.uart.rx.rxBuffer = b.load.uart.rx.rxBuffer)
    (htx : s.uart.tx.txBuffer = b.load.uart.tx.txBuffer) :
    Close c (Chip.load ⟨b.xram, s⟩) s := by
  refine close_load ?_ ?_ ?_ ?_
  · rw [h]
    rfl
  · rw [h]
    exact .refl _ _
  · rw [hrx]
    exact .refl _ _
  · rw [htx]
    exact .refl _ _

theorem chipStep_close (hfits : Fits c)
    (hdev : (c.fw.code c.fw.usbGetDeviceDescriptor).toNat ≤ usbEp0BufferSize)
    (hb : InBounds c b.load) (e : MainLoopEvent) :
    Option.Rel (fun b' s' => Close c b'.load s') (chipStep c b e)
      (mainLoopStep c b.load e) := by
  cases e with
  | main => exact rel_map_left fun _ h => chip_main hfits hb h
  | usb e => exact chip_usb hfits hdev hb e
  | uart => exact rel_map_left fun _ h => chip_uart hfits hb h
  | sent =>
      refine rel_map_left fun s h => ?_
      cases mainLoopStep_event h with
      | sent huart =>
          cases uartStep_event huart with
          | sent htx =>
              cases uartTxStep_event htx with
              | sent _ => exact chip_same rfl rfl rfl
  | arrived data =>
      rw [chipStep]
      refine rel_map_left fun s h => ?_
      cases mainLoopStep_event h with
      | arrived _ huart =>
          cases uartStep_event huart with
          | arrived _ => exact chip_same rfl rfl rfl

end Steps

/-! ## Runs -/

section Runs

variable {c : Build} {b : Chip} {s t r : MainLoop} {n : Nat}

theorem FifoClose.trans {f g h : UsbSetupFifo} (hfg : FifoClose n f g)
    (hgh : FifoClose n g h) : FifoClose n f h :=
  ⟨hfg.head.trans hgh.head, hfg.tail.trans hgh.tail, hfg.cells.trans hgh.cells⟩

theorem TxClose.trans {s t r : UartTx} (hst : TxClose n s t) (htr : TxClose n t r) :
    TxClose n s r :=
  ⟨htr.rest.trans (congrArg (fun x => { x with txBuffer := r.txBuffer }) hst.rest),
    hst.cells.trans htr.cells⟩

theorem RxClose.trans {s t r : UartRx} (hst : RxClose n s t) (htr : RxClose n t r) :
    RxClose n s r :=
  ⟨htr.rest.trans (congrArg (fun x => { x with rxBuffer := r.rxBuffer }) hst.rest),
    hst.cells.trans htr.cells⟩

theorem Close.trans (hst : Close c s t) (htr : Close c t r) : Close c s r where
  log := ⟨hst.log.dev.trans htr.log.dev, hst.log.fifo.trans htr.log.fifo,
    hst.log.pc.trans htr.log.pc, hst.log.item.trans htr.log.item,
    hst.log.accepted.trans htr.log.accepted, hst.log.popped.trans htr.log.popped⟩
  uart := ⟨hst.uart.rx.trans htr.uart.rx, hst.uart.tx.trans htr.uart.tx,
    hst.uart.u1ri.trans htr.uart.u1ri, hst.uart.sbuf1.trans htr.uart.sbuf1,
    hst.uart.arrived.trans htr.uart.arrived⟩
  calls := hst.calls.trans htr.calls

theorem InBounds.of_close (h : InBounds c t) (hst : Close c s t) : InBounds c s := by
  have htx := h.uart.tx
  have hrx := h.uart.rx
  rw [hst.uart.tx.rest] at htx
  rw [hst.uart.rx.rest] at hrx
  refine ⟨hst.log.dev.length ▸ h.armed, ⟨⟨?_, ?_⟩, hst.log.pc ▸ h.log.pc⟩,
    ⟨hrx.head, hrx.tail, hrx.index⟩,
    ⟨⟨htx.below.head, htx.below.pc⟩, htx.tail, htx.index⟩⟩
  · rw [hst.log.fifo.head]
    exact h.log.fifo.head
  · rw [hst.log.fifo.tail]
    exact h.log.fifo.tail

/-- The program on the memory, next to the program with its queues apart. -/
structure Mirrors (c : Build) (b : Chip) (t : MainLoop) : Prop where
  close : Close c b.load t
  bounds : InBounds c b.load

/-- What the memory makes of one event, and the program of another that it takes
for the same. -/
theorem mirrors_of_close {e f : MainLoopEvent}
    (hdev : (c.fw.code c.fw.usbGetDeviceDescriptor).toNat ≤ usbEp0BufferSize)
    (h : Mirrors c b t)
    (hmemory : Option.Rel (fun b' s' => Close c b'.load s') (chipStep c b e)
      (mainLoopStep c b.load e))
    (hprogram : Option.Rel (Close c) (mainLoopStep c b.load e)
      (mainLoopStep c t f)) :
    Option.Rel (Mirrors c) (chipStep c b e) (mainLoopStep c t f) := by
  refine rel_trans ?_ hmemory (rel_and hprogram
    (fun _ hs => inBounds_step hdev h.bounds hs) (fun _ _ => trivial))
  rintro b' s' t' hload ⟨hclose, hbounds, _⟩
  exact ⟨hload.trans hclose, hbounds.of_close hload⟩

theorem mirrors_step (hfits : Fits c)
    (hdev : (c.fw.code c.fw.usbGetDeviceDescriptor).toNat ≤ usbEp0BufferSize)
    (h : Mirrors c b t) (e : MainLoopEvent) :
    Option.Rel (Mirrors c) (chipStep c b e) (mainLoopStep c t e) :=
  mirrors_of_close hdev h (chipStep_close hfits hdev h.bounds e)
    (mainLoopStep_close h.bounds h.close e)

variable (xram : Nat → UInt8) (dev : Ep0) (setupPacket : UsbSetupFifoItem)
  (sbuf1 : UInt8)

/-- The program with its queues apart, and in them what is in the memory. -/
def apartInit : MainLoop :=
  mainLoopInit { dev with fifo := loadFifo xram } setupPacket
    (loadArray xram uart1RxBufferAddress) (loadArray xram uart1TxBufferAddress) sbuf1

theorem mirrors_init (hc : c.Accepted) (hfits : Fits c) :
    Mirrors c (chipInit xram dev setupPacket sbuf1)
      (apartInit xram dev setupPacket sbuf1) := by
  have hstore : Confined (c.region .fifo) xram
      (storeFifo xram (usbSetupFifoInit (loadFifo xram))) :=
    storeFifo_confined fun _ _ => rfl
  have hclose : Close c (chipInit xram dev setupPacket sbuf1).load
      (apartInit xram dev setupPacket sbuf1) := by
    refine close_load (s := apartInit xram dev setupPacket sbuf1) rfl ?_ ?_ ?_
    · exact (loadFifo_storeFifo xram _).symm ▸ .refl _ _
    · exact hstore.agreeBelow (apart_of_fits hfits (y := .rxBuffer) (by decide))
    · exact hstore.agreeBelow (apart_of_fits hfits (y := .txBuffer) (by decide))
  have hrx := hc.rx_bounds
  have htx := hc.tx_bounds
  have hrxPos : (0 : UInt8).toNat < c.uart1RxBufsize := by
    rw [UInt8.toNat_zero]
    omega
  have htxPos : (0 : UInt8).toNat < c.uart1TxBufsize := by
    rw [UInt8.toNat_zero]
    omega
  have hrxBounded : RxBounded c.uart1RxBufsize
      (uartRxInit (loadArray xram uart1RxBufferAddress)) :=
    ⟨hrxPos, hrxPos, fun _ hi => absurd hi (by simp [uartRxInit])⟩
  have htxBounded : TxBounded c.uart1TxBufsize
      (uartTxInit (loadArray xram uart1TxBufferAddress)) :=
    ⟨⟨htxPos, trivial⟩, htxPos, fun _ hi => absurd hi (by simp [uartTxInit])⟩
  have hbounds : InBounds c (apartInit xram dev setupPacket sbuf1) :=
    ⟨Nat.zero_le _, ⟨⟨hc.fifo_pos, hc.fifo_pos⟩, trivial⟩, hrxBounded, htxBounded⟩
  exact ⟨hclose, hbounds.of_close hclose⟩

/-- What can be told of the program from the bus, the line and its own
variables. -/
structure Shown where
  face : Face
  accepted : List UsbSetupPacket
  popped : List UsbSetupFifoItem
  calls : List UartCall
  written : List UInt8
  stored : List UInt8
  received : List UInt8
  returned : List UInt8

def shown (s : MainLoop) : Shown where
  face := faceOf s.log.dev
  accepted := s.log.accepted
  popped := s.log.popped
  calls := s.calls
  written := s.uart.tx.written
  stored := s.uart.tx.stored
  received := s.uart.rx.accepted
  returned := s.uart.rx.returned

theorem face_of_agree {d q : Ep0} (h : Agree d q) : faceOf d = faceOf q := by
  have htRes : d.tRes = q.tRes := by rw [Ep0.tRes, Ep0.tRes, h.ctrl]
  have hrRes : d.rRes = q.rRes := by rw [Ep0.rRes, Ep0.rRes, h.ctrl]
  have htTog : d.tTog = q.tTog := by rw [Ep0.tTog, Ep0.tTog, h.ctrl]
  have hrTog : d.rTog = q.rTog := by rw [Ep0.rTog, Ep0.rTog, h.ctrl]
  rw [faceOf, faceOf, htRes, hrRes, htTog, hrTog, h.armed, h.address, h.configuration]

theorem shown_of_close (h : Close c s t) : shown s = shown t := by
  have hwritten : t.uart.tx.written = s.uart.tx.written := by rw [h.uart.tx.rest]
  have hstored : t.uart.tx.stored = s.uart.tx.stored := by rw [h.uart.tx.rest]
  have hreceived : t.uart.rx.accepted = s.uart.rx.accepted := by rw [h.uart.rx.rest]
  have hreturned : t.uart.rx.returned = s.uart.rx.returned := by rw [h.uart.rx.rest]
  rw [shown, shown, face_of_agree h.log.dev.toAgree, h.log.accepted, h.log.popped,
    h.calls, hwritten, hstored, hreceived, hreturned]

/-- For every build that the preprocessor lets pass and whose queues fit between
the addresses, whatever is in the memory at first: the program on the chip and the
program with its queues apart get through the same events, in any order, and what
the host, the line and the log have seen is the same. -/
theorem chip_runs_program (hc : c.Accepted) (hfits : Fits c)
    (hdev : (c.fw.code c.fw.usbGetDeviceDescriptor).toNat ≤ usbEp0BufferSize)
    (es : List MainLoopEvent) :
    (runs (chipStep c) (chipInit xram dev setupPacket sbuf1) es).map
        (fun b => shown b.load) =
      (runs (mainLoopStep c) (apartInit xram dev setupPacket sbuf1) es).map
        shown := by
  have hrun := runs_rel (fun _ _ e h => mirrors_step hfits hdev h e)
    (mirrors_init xram dev setupPacket sbuf1 hc hfits) es
  exact map_eq_of_rel hrun fun _ _ h => shown_of_close h.close

theorem chip_runs_program_interrupted :
    (runs (chipStep defaultBuild) (chipInit (fun _ => 0xAA) powerOn ⟨0, 0, 0, 0, 0⟩ 0)
        greetingInterrupted).isSome = true ∧
      (runs (chipStep defaultBuild)
          (chipInit (fun _ => 0xAA) powerOn ⟨0, 0, 0, 0, 0⟩ 0)
          greetingInterrupted).map (fun b => shown b.load) =
        (runs (mainLoopStep defaultBuild)
          (apartInit (fun _ => 0xAA) powerOn ⟨0, 0, 0, 0, 0⟩ 0)
          greetingInterrupted).map shown :=
  ⟨rfl, chip_runs_program _ _ _ _
    ⟨by decide, by decide, by decide, by decide, by decide, by decide⟩
    ⟨by decide, by decide⟩ (by decide) _⟩

end Runs

end Ch552e.Proofs
