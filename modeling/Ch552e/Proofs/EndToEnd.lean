import Ch552e.Proofs.System

/-!
# From the bus to the line

The results on the parts, put together for all of the program with the bus and
the line around it. On the way in it is `usb_in_order`'s, in the middle the log's,
on the way out the transmitter's; that the parts fit is `Trails` (`System.lean`),
by which each of them may be used where a handler runs at once.
-/

namespace Ch552e.Proofs

open Ch552e.Lib Ch552e.Lib.Ring Ch552e.Ref Ch552e.Spec

/-! ## The program whose handlers run at once -/

section Attended

variable {c : Build} {tree : Tree} {k m : Nat} {s s' t start : MainLoop}
  {f : MainLoopEvent} {fs : List MainLoopEvent}

theorem unhurried_of_attended {s : MainLoop} {f : MainLoopEvent}
    (h : attended s f = true) : unhurriedLoop s f = true := by
  cases f with
  | uart => exact h
  | main | usb _ | sent | arrived _ => rfl

theorem mainLoopStep_accepted (hown : onBus f = none)
    (h : mainLoopStep c s f = some s') : s'.log.accepted = s.log.accepted := by
  cases mainLoopStep_event h with
  | usb _ => exact absurd hown (by simp [onBus])
  | print _ _ _ | poll _ _ _ | write _ _ | uart _ | sent _ | arrived _ _ => rfl
  | pop _ _ hpop => cases hpop with | _ => rfl

/-- What the main program does between two events of the bus changes nothing of
what the bus sees. -/
theorem presents_attended (hs : Serves c.fw tree)
    (hdev : (c.fw.code c.fw.usbGetDeviceDescriptor).toNat < usbEp0BufferSize)
    (hstart : Presents c.fw tree start.log.dev .fresh)
    (h : runs (guarded attended (mainLoopStep c)) start fs = some t) :
    ∃ k, runs (controlStep (descriptors c.fw tree)) .fresh (fs.filterMap onBus) =
        some k ∧
      Presents c.fw tree t.log.dev k := by
  refine runs_history (P := fun fs t => ∃ k,
    runs (controlStep (descriptors c.fw tree)) .fresh (fs.filterMap onBus) =
        some k ∧
      Presents c.fw tree t.log.dev k) ⟨_, rfl, hstart⟩ ?_ h
  rintro fs s f s' ⟨k, hk, hpresents⟩ hstep
  obtain ⟨hok, hstep⟩ := guarded_eq_some hstep
  rw [List.filterMap_append, runs_append, hk]
  cases hf : onBus f with
  | none =>
      refine ⟨k, ?_, ?_⟩
      · rw [List.filterMap_cons_none hf]
        rfl
      · rw [mainLoopStep_dev hf hstep]
        exact hpresents.withFifo _
  | some e =>
      cases mainLoopStep_event hstep with
      | @usb g dev hdevice =>
          obtain rfl : g = e := Option.some.inj hf
          have hrel := presents_step hs hdev hpresents g
          have hresp : responds s.log.dev g = true := hok
          rw [guarded_of hresp hdevice] at hrel
          generalize hnext : controlStep (descriptors c.fw tree) k g = b at hrel
          cases hrel with
          | some hdc => exact ⟨_, runs_single hnext, hdc⟩
      | print _ _ _ | poll _ _ _ | pop _ _ _ | write _ _ | uart _ | sent _
      | arrived _ _ => exact absurd hf (by simp [onBus])

theorem accepted_sublist (h : runs (mainLoopStep c) start fs = some t)
    (hstart : start.log.accepted = []) :
    t.log.accepted.Sublist ((fs.filterMap onBus).filterMap Ep0Event.logged) := by
  refine runs_history (P := fun fs t =>
    t.log.accepted.Sublist ((fs.filterMap onBus).filterMap Ep0Event.logged))
    (hstart ▸ List.Sublist.refl _) ?_ h
  intro fs s f s' hs hstep
  rw [List.filterMap_append, List.filterMap_append]
  cases hf : onBus f with
  | none =>
      rw [mainLoopStep_accepted hf hstep]
      exact hs.trans (List.sublist_append_left _ _)
  | some e =>
      cases mainLoopStep_event hstep with
      | @usb g dev hdevice =>
          have hone : [MainLoopEvent.usb g].filterMap onBus = [g] := rfl
          rw [hone]
          show (s.log.accept c.fw g).Sublist _
          unfold SetupLog.accept
          cases hlogged : g.logged with
          | none => exact hs.trans (List.sublist_append_left _ _)
          | some p =>
              have hone : [g].filterMap Ep0Event.logged = [p] :=
                List.filterMap_cons_some hlogged
              rw [hone]
              dsimp only
              split
              · exact hs.append (List.Sublist.refl _)
              · exact hs.trans (List.sublist_append_left _ _)
      | print _ _ _ | poll _ _ _ | pop _ _ _ | write _ _ | uart _ | sent _
      | arrived _ _ => exact absurd hf (by simp [onBus])

theorem Logs.withDev {n : Nat} {l : SetupLog} {q : List UsbSetupFifoItem}
    (h : Logs n l q) {dev : Ep0} (hfifo : dev.fifo = l.dev.fifo) :
    Logs n { l with dev := dev } q where
  ring := hfifo.symm ▸ h.ring
  order := h.order
  here := by
    have hhere := h.here
    cases hs : l.pc with
    | outside | readTail => simp only [PopAt]
    | readHead _ | copy _ _ | storeTail _ =>
        simp only [PopAt, hs, hfifo] at hhere ⊢
        exact hhere

theorem Alive.withDev (h : Alive k m s) {dev : Ep0}
    (hfifo : dev.fifo = s.log.dev.fifo) : Alive k m (Proofs.withDev s dev) where
  sends := h.sends
  awake := h.awake
  logs := by
    obtain ⟨q, hq⟩ := h.logs
    exact ⟨q, hq.withDev hfifo⟩
  prints := ⟨h.prints.text, h.prints.deaf⟩

theorem Alive.printed (h : Alive k m s) :
    s.uart.tx.stored <+:
      transcript (s.log.accepted.map UsbSetupFifoItem.view) := by
  obtain ⟨qt, hsends⟩ := h.sends
  obtain ⟨ql, hlogs⟩ := h.logs
  rw [h.prints.transcript hsends hlogs]
  simp only [List.append_assoc]
  exact List.prefix_append _ _

end Attended

/-! ## What was on the bus and what is on the line -/

section Safety

variable {c : Build} {tree : Tree} {k m : Nat} {s s' : System} {t : MainLoop}
  {usb : Usb} {setupPacket : UsbSetupFifoItem} {rxBuffer txBuffer : Nat → UInt8}
  {sbuf1 : UInt8} {fs : List MainLoopEvent} {packets : List Ep0Event} {resets : Nat}
  {es : List SystemEvent}

theorem Trails.alive (hk : k ≤ 8) (hm : m ≤ 8)
    (hfifo : c.fw.usbSetupFifoSize = 2 ^ k) (htx : c.uart1TxBufsize = 2 ^ m)
    (h : Trails c (mainLoopInit usb.dev setupPacket rxBuffer txBuffer sbuf1) s t fs
      packets resets) : Alive k m s.prog := by
  have halive : Alive k m t := alive_run hk hm hfifo htx
    (runs_weaken (fun _ _ hok => unhurried_of_attended hok) h.run)
  rw [h.prog]
  exact halive.withDev h.waiting.fifo

theorem Trails.presents (hs : Serves c.fw tree)
    (hdev : (c.fw.code c.fw.usbGetDeviceDescriptor).toNat < usbEp0BufferSize)
    (h : Trails c (mainLoopInit usb.dev setupPacket rxBuffer txBuffer sbuf1) s t fs
      packets resets) :
    ∃ k, runs (controlStep (descriptors c.fw tree)) .fresh (fs.filterMap onBus) =
        some k ∧
      Presents c.fw tree t.log.dev k := by
  have hinit : Presents c.fw tree
      (mainLoopInit usb.dev setupPacket rxBuffer txBuffer sbuf1).log.dev .fresh :=
    presents_reset c.fw tree { usb.dev with
      uep0Dma := UInt16.ofNat usbEp0BufferAddress
      fifo := usbSetupFifoInit usb.dev.fifo }
  exact presents_attended hs hdev hinit h.run

/-- With no flag up the bus sees the pipe after all that was on it. -/
theorem Trails.face (hs : Serves c.fw tree)
    (hdev : (c.fw.code c.fw.usbGetDeviceDescriptor).toNat < usbEp0BufferSize)
    (h : Trails c (mainLoopInit usb.dev setupPacket rxBuffer txBuffer sbuf1) s t fs
      packets resets)
    (htransfer : s.usb.irq.uifTransfer = false)
    (hbusRst : s.usb.irq.uifBusRst = false) :
    some (faceOf s.usb.dev) =
      (runs (controlStep (descriptors c.fw tree)) .fresh s.usb.bus).map
        Control.face := by
  obtain ⟨hprog, hbus⟩ := h.settled htransfer hbusRst
  obtain ⟨ctl, hctl, hpresents⟩ := h.presents hs hdev
  rw [hbus, hctl, ← s.shared, hprog, hpresents.face]
  rfl

theorem Trails.accepted
    (h : Trails c (mainLoopInit usb.dev setupPacket rxBuffer txBuffer sbuf1) s t fs
      packets resets) :
    s.prog.log.accepted.Sublist (s.usb.bus.filterMap Ep0Event.logged) := by
  have hsub := accepted_sublist (runs_of_guarded h.run) rfl
  have hsame : s.prog.log.accepted = t.log.accepted := by
    rw [h.prog]
    rfl
  rw [hsame, h.bus, List.filterMap_append]
  exact hsub.trans (List.sublist_append_left _ _)

/-- From the bus to the line, at any time, however everything comes between
everything else: what the log accepted was on the bus, in its order and none of it
twice; what is on the line is a part of its transcript, which a terminal reads as
these packets; and if the hooks describe a tree, the bus sees the control pipe after
everything that was on it whenever no flag is up. -/
theorem system_end_to_end (hk : k ≤ 8) (hm : m ≤ 7)
    (hfifo : c.fw.usbSetupFifoSize = 2 ^ k) (htx : c.uart1TxBufsize = 2 ^ m)
    (h : runs (guarded unhurriedSystem (systemStep c))
      (systemStart usb setupPacket rxBuffer txBuffer sbuf1) es = some s) :
    s.prog.log.accepted.Sublist (s.usb.bus.filterMap Ep0Event.logged) ∧
      s.prog.uart.tx.stored <+:
        transcript (s.prog.log.accepted.map UsbSetupFifoItem.view) ∧
      List.Forall₂ Decodes (readTranscript s.prog.uart.tx.stored)
        (s.prog.log.accepted.take
          ((s.prog.uart.tx.stored.length - greeting.length) / setupLineLength)) ∧
      ∀ tree, Serves c.fw tree →
        (c.fw.code c.fw.usbGetDeviceDescriptor).toNat < usbEp0BufferSize →
        s.usb.irq.uifTransfer = false → s.usb.irq.uifBusRst = false →
          some (faceOf s.usb.dev) =
            (runs (controlStep (descriptors c.fw tree)) .fresh s.usb.bus).map
              Control.face := by
  obtain ⟨t, fs, packets, resets, ht⟩ := trails_run h
  have htext := (ht.alive hk (Nat.le_succ_of_le hm) hfifo htx).printed
  exact ⟨ht.accepted, htext, decodes_cut htext,
    fun _ hs hdev htransfer hbusRst => ht.face hs hdev htransfer hbusRst⟩

/-- A byte through `uart_write`; the transmit interrupt comes while the next one is
on its way. -/
def oneByte : List SystemEvent :=
  List.replicate 11 .main ++ [.sent, .main, .main, .uart]

def oneCall (call : UartCall) : List SystemEvent :=
  .main :: (List.replicate call.bytes.length oneByte).flatten

/-- A transaction and its interrupt, in which a byte comes in. -/
def oneTransaction (e : UsbEvent) : List SystemEvent :=
  [.usb e, .usb .isr, .usb .access, .arrived 0x41] ++
    List.replicate 5 (.usb .access)

/-- A host reads the configuration while the program prints its greeting and then
the report of the request. -/
def readReported : List SystemEvent :=
  .main :: (List.replicate 5 oneByte).flatten ++
    oneTransaction
      (setupTransaction [0x80, 0x06, 0x00, 0x02, 0x00, 0x00, 0xff, 0x00]) ++
    (List.replicate 9 oneByte).flatten ++
    oneTransaction (.transaction uisTokenIn 0 fun _ => 0) ++
    List.replicate 9 .main ++
    (reportCalls ⟨0x80, 0x06, 0x0200, 0, 255⟩).flatMap oneCall ++
    oneTransaction (.transaction uisTokenOut 0 fun _ => 0)

theorem system_end_to_end_reported :
    ∃ s, runs (guarded unhurriedSystem (systemStep defaultBuild)) busyStart
        readReported = some s ∧
      s.prog.log.accepted.length = 1 ∧
      (readTranscript s.prog.uart.tx.stored).length = 1 ∧
      s.prog.log.accepted.Sublist (s.usb.bus.filterMap Ep0Event.logged) ∧
      s.prog.uart.tx.stored <+:
        transcript (s.prog.log.accepted.map UsbSetupFifoItem.view) ∧
      List.Forall₂ Decodes (readTranscript s.prog.uart.tx.stored)
        (s.prog.log.accepted.take
          ((s.prog.uart.tx.stored.length - greeting.length) / setupLineLength)) ∧
      s.usb.bus.length = 3 ∧ some (faceOf s.usb.dev) =
        (runs (controlStep (descriptors demo demoTree)) .fresh s.usb.bus).map
          Control.face := by
  have hrun : (runs (guarded unhurriedSystem (systemStep defaultBuild)) busyStart
      readReported).map (fun s => (s.prog.log.accepted.length,
        (readTranscript s.prog.uart.tx.stored).length, s.usb.bus.length,
        s.usb.irq.uifTransfer, s.usb.irq.uifBusRst)) =
      some (1, 1, 3, false, false) := by
    decide +kernel
  obtain ⟨s, hs, hlast⟩ := Option.map_eq_some_iff.mp hrun
  simp only [Prod.mk.injEq] at hlast
  obtain ⟨haccepted, hread, hbus, htransfer, hbusRst⟩ := hlast
  obtain ⟨hsublist, htext, hdecodes, hface⟩ :=
    system_end_to_end (c := defaultBuild) (k := 3) (m := 5) (by decide) (by decide)
      rfl rfl hs
  exact ⟨s, hs, haccepted, hread, hsublist, htext, hdecodes, hbus,
    hface demoTree demo_serves (by decide) htransfer hbusRst⟩

end Safety

/-! ## Once the bus is silent -/

section Progress

variable {c : Build} {tree : Tree} {k m : Nat} {s s' : System}
  {start t : MainLoop} {usb : Usb} {setupPacket : UsbSetupFifoItem}
  {rxBuffer txBuffer : Nat → UInt8} {sbuf1 : UInt8} {fs : List MainLoopEvent}
  {packets : List Ep0Event} {resets : Nat} {es : List SystemEvent}
  {e : SystemEvent} {f : UsbEvent} {u : Usb}

/-- No more transactions, resets and suspends, and the two windows as before. -/
def systemSilent (s : System) : SystemEvent → Bool
  | .uart => unhurriedSystem s .uart
  | .usb e => busSilent s.usb e
  | .main | .sent | .arrived _ => true

/-- As `works`, and every access of the USB interrupt. -/
def systemWorks (s : System) : SystemEvent → Bool
  | .main => works s.prog .main
  | .uart => works s.prog .uart
  | .sent | .usb _ => true
  | .arrived _ => false

/-- What a packet that waits may still add to the log. -/
def pushRank : Nat := itemRank + popRank .outside

def systemRank (s : System) : Nat :=
  accessesLeft s.usb + rank s.prog + if unhandled s.usb then pushRank else 0

theorem unhurried_of_systemSilent (h : systemSilent s e = true) :
    unhurriedSystem s e = true := by
  cases e with
  | uart => exact h
  | usb f =>
      cases f with
      | transaction _ _ _ | busReset | suspend =>
          exact absurd h (by simp [systemSilent, busSilent])
      | isr | access => rfl
  | main | sent | arrived _ => rfl

/-- Without the bus no packet begins to wait, and one that still waits has not
been handed on. -/
theorem unhandled_step {fw : Firmware} {s s' : Usb} (hsilent : busSilent s f = true)
    (h : UsbStep fw s f s') (hwaits : unhandled s' = true) :
    unhandled s = true ∧ s.handled f = none := by
  cases h with
  | transaction _ _ _ _ _ | busReset | suspend =>
      exact absurd hsilent (by simp [busSilent])
  | isr hs _ =>
      simp only [unhandled, hs] at hwaits ⊢
      exact ⟨hwaits, rfl⟩
  | handlePacket _ _ | clearTransfer _ => exact absurd hwaits (by simp [unhandled])
  | transfer hs _ | noTransfer hs _ | readStatus hs | busRst hs _ | noBusRst hs _
  | reset hs | clearBusRst hs | suspended hs _ | notSuspended hs _
  | clearSuspend hs =>
      simp only [unhandled, Usb.handled, hs] at hwaits ⊢
      exact ⟨hwaits, trivial⟩

theorem unhandled_of_handled {s : Usb} {d : Ep0} {g : Ep0Event}
    (h : Waiting s packets resets d) (hhandled : s.handled f = some g) :
    unhandled s = true := by
  have hpc := h.pc
  cases f with
  | transaction _ _ _ | busReset | suspend | isr =>
      exact absurd hhandled (by simp [Usb.handled])
  | access =>
      cases hs : s.pc with
      | handlePacket status =>
          simp only [PcSays, hs] at hpc
          simp only [unhandled, hs]
          exact hpc.1
      | outside | testTransfer | readStatus | clearTransfer | testBusRst | reset
      | clearBusRst | testSuspend | clearSuspend =>
          simp only [Usb.handled, hs] at hhandled
          exact absurd hhandled (by simp)

theorem accept_length (fw : Firmware) (l : SetupLog) (g : Ep0Event) :
    (l.accept fw g).length ≤ l.accepted.length + 1 := by
  unfold SetupLog.accept
  split
  · split
    · rw [List.length_append, List.length_singleton]
    · exact Nat.le_succ _
  · exact Nat.le_succ _

theorem popRank_le (pc : PopPc) : popRank pc ≤ popRank .outside := by
  cases pc <;> simp only [popRank] <;> omega

/-- A push costs one line of the report. -/
theorem rank_push {l : SetupLog} {p : MainLoop} (hpc : l.pc = p.log.pc)
    (hpopped : l.popped = p.log.popped)
    (haccepted : l.accepted.length ≤ p.log.accepted.length + 1) :
    rank { p with log := l } ≤ rank p + pushRank := by
  have hmore : itemRank * (l.accepted.length - l.popped.length) ≤
      itemRank * (p.log.accepted.length - p.log.popped.length) + itemRank := by
    rw [hpopped, ← Nat.mul_succ]
    exact Nat.mul_le_mul_left _ (by omega)
  have hle := popRank_le p.log.pc
  simp only [rank, logRank, pushRank, hpc]
  split <;> split <;> omega

theorem rank_same {l : SetupLog} {p : MainLoop} (hpc : l.pc = p.log.pc)
    (hpopped : l.popped = p.log.popped) (haccepted : l.accepted = p.log.accepted)
    (hfifo : l.dev.fifo = p.log.dev.fifo) : rank { p with log := l } = rank p := by
  simp only [rank, logRank, hpc, hpopped, haccepted, hfifo]

/-- An access of the interrupt puts off work of the main program, and no more than
was put off before. -/
theorem usb_rank (h : Trails c start s t fs packets resets)
    (hsilent : busSilent s.usb f = true)
    (hstep : guarded unhurriedBus (usbStep c.fw) s.usb f = some u) :
    rank (s.withUsb u (s.accept c.fw f)).prog +
        (if unhandled u then pushRank else 0) ≤
      rank s.prog + if unhandled s.usb then pushRank else 0 := by
  obtain ⟨_, handled, _, _, d', _, _, hserved, h'⟩ :=
    waiting_step h.waiting h.regs hstep
  have hwaits := unhandled_step hsilent (usbStep_event (guarded_eq_some hstep).2)
  have hbefore : s.prog.log.dev.fifo = t.log.dev.fifo :=
    (congrArg Ep0.fifo s.shared).trans h.waiting.fifo
  have hquiet : s.usb.handled f = none → d'.fifo = t.log.dev.fifo →
      rank (s.withUsb u (s.accept c.fw f)).prog +
          (if unhandled u then pushRank else 0) ≤
        rank s.prog + if unhandled s.usb then pushRank else 0 := by
    intro hnone hfifo
    have hsame : s.accept c.fw f = s.prog.log.accepted := by
      rw [System.accept, hnone]
    have hrank : rank (s.withUsb u (s.accept c.fw f)).prog = rank s.prog :=
      rank_same rfl rfl hsame (h'.fifo.trans (hfifo.trans hbefore.symm))
    rw [hrank]
    cases hu : unhandled u with
    | false => simp
    | true => simp [(hwaits hu).1]
  cases hserved with
  | nothing hnone => exact hquiet hnone rfl
  | resets hnone _ => exact hquiet hnone rfl
  | packet hhandled _ _ =>
      have hdone : unhandled u = false := by
        by_contra hno
        have hnone := (hwaits (by simpa using hno)).2
        rw [hhandled] at hnone
        exact absurd hnone (by simp)
      have hlength : (s.accept c.fw f).length ≤ s.prog.log.accepted.length + 1 := by
        rw [System.accept, hhandled]
        exact accept_length _ _ _
      have hrank : rank (s.withUsb u (s.accept c.fw f)).prog ≤
          rank s.prog + pushRank := rank_push rfl rfl hlength
      rw [hdone, unhandled_of_handled h.waiting hhandled]
      simpa using hrank

theorem systemRank_step (hk : k ≤ 8) (hm : m ≤ 8)
    (hfifo : c.fw.usbSetupFifoSize = 2 ^ k) (htx : c.uart1TxBufsize = 2 ^ m)
    (h : Trails c start s t fs packets resets) (halive : Alive k m s.prog)
    (hstep : guarded systemSilent (systemStep c) s e = some s') :
    s'.usb.bus = s.usb.bus ∧
      systemRank s' + (if systemWorks s e then 1 else 0) ≤ systemRank s := by
  obtain ⟨hsilent, hstep⟩ := guarded_eq_some hstep
  have hown : ∀ g p, usbSilent s.prog g = true → mainLoopStep c s.prog g = some p →
      systemWorks s e = works s.prog g →
      (s.withProg p).usb.bus = s.usb.bus ∧
        systemRank (s.withProg p) + (if systemWorks s e then 1 else 0) ≤
          systemRank s := by
    intro g p hg hp hworks
    have hpaid := (rank_step hk hm hfifo htx halive (guarded_of hg hp)).2
    have hleft : accessesLeft (s.withProg p).usb = accessesLeft s.usb := rfl
    have hwaits : unhandled (s.withProg p).usb = unhandled s.usb := rfl
    have hprog : (s.withProg p).prog = p := rfl
    refine ⟨rfl, ?_⟩
    rw [hworks, systemRank, systemRank, hleft, hwaits, hprog]
    omega
  cases systemStep_event hstep with
  | main hp => exact hown .main _ rfl hp rfl
  | uart hp => exact hown .uart _ hsilent hp rfl
  | sent hp => exact hown .sent _ rfl hp rfl
  | @arrived data _ hp => exact hown (.arrived data) _ rfl hp rfl
  | @usb f u hu =>
      have hok : unhurriedSystem s (.usb f) = true :=
        unhurried_of_systemSilent hsilent
      have hevent := usbStep_event hu
      have hleft : accessesLeft u + 1 = accessesLeft s.usb :=
        accessesLeft_step h.regs hsilent hevent
      have hpaid := usb_rank h hsilent (guarded_of hok hu)
      refine ⟨bus_silent hsilent hevent, ?_⟩
      have husb : (s.withUsb u (s.accept c.fw f)).usb = u := rfl
      simp only [systemRank, husb, systemWorks, if_true]
      omega

/-- As long as something is left, in the interrupt or in the main program, there
is something to do. -/
theorem system_can_work (hpos : 1 ≤ m) (hm : m ≤ 8)
    (h : Trails c start s t fs packets resets) (halive : Alive k m s.prog)
    (hfw : ∀ e, responds t.log.dev e = true →
      ∃ d', ep0Step c.fw t.log.dev e = some d')
    (hrank : systemRank s ≠ 0) :
    ∃ e s', guarded systemSilent (systemStep c) s e = some s' ∧
      systemWorks s e = true := by
  by_cases hleft : accessesLeft s.usb = 0
  · have houtside := outside_of_settled hleft
    have hwaits : unhandled s.usb = false :=
      unhandled_of_down (flags_of_settled hleft).1
    have hmore : rank s.prog ≠ 0 := by
      intro hzero
      refine hrank ?_
      rw [systemRank, hleft, hzero, hwaits]
      rfl
    obtain ⟨g, p, hp, hworks⟩ := can_work hpos hm c halive hmore
    obtain ⟨hsilent, hp⟩ := guarded_eq_some hp
    cases g with
    | main =>
        have hstep : systemStep c s .main = some (s.withProg p) := by
          rw [systemStep, houtside, hp]
          rfl
        have hok : systemSilent s .main = true := rfl
        exact ⟨.main, _, guarded_of hok hstep, hworks⟩
    | uart =>
        have hstep : systemStep c s .uart = some (s.withProg p) := by
          rw [systemStep, houtside, hp]
          rfl
        have hok : systemSilent s .uart = true := hsilent
        exact ⟨.uart, _, guarded_of hok hstep, hworks⟩
    | sent =>
        have hstep : systemStep c s .sent = some (s.withProg p) := by
          rw [systemStep, hp]
          rfl
        have hok : systemSilent s .sent = true := rfl
        exact ⟨.sent, _, guarded_of hok hstep, rfl⟩
    | usb _ | arrived _ => exact absurd hworks (by simp [works])
  · obtain ⟨f, u, hu⟩ := can_serve h.regs h.waiting hfw hleft
    obtain ⟨hsilent, hu⟩ := guarded_eq_some hu
    have hstep : systemStep c s (.usb f) =
        some (s.withUsb u (s.accept c.fw f)) := by
      rw [systemStep, hu]
      rfl
    have hok : systemSilent s (.usb f) = true := hsilent
    exact ⟨.usb f, _, guarded_of hok hstep, rfl⟩

/-- On the way from what was on the bus. -/
structure Settling (c : Build) (start : MainLoop) (bus : List Ep0Event)
    (s : System) : Prop where
  bus : s.usb.bus = bus
  trails : ∃ t fs packets resets, Trails c start s t fs packets resets

theorem settling_step {bus : List Ep0Event} (hk : k ≤ 8) (hm : m ≤ 8)
    (hfifo : c.fw.usbSetupFifoSize = 2 ^ k) (htx : c.uart1TxBufsize = 2 ^ m)
    (h : Settling c (mainLoopInit usb.dev setupPacket rxBuffer txBuffer sbuf1) bus s)
    (hstep : guarded systemSilent (systemStep c) s e = some s') :
    Settling c (mainLoopInit usb.dev setupPacket rxBuffer txBuffer sbuf1) bus s' ∧
      systemRank s' + (if systemWorks s e then 1 else 0) ≤ systemRank s := by
  obtain ⟨t, fs, packets, resets, ht⟩ := h.trails
  obtain ⟨hsame, hpaid⟩ := systemRank_step hk hm hfifo htx ht
    (ht.alive hk hm hfifo htx) hstep
  obtain ⟨hsilent, hstep⟩ := guarded_eq_some hstep
  exact ⟨⟨hsame.trans h.bus,
    trails_step ht (guarded_of (unhurried_of_systemSilent hsilent) hstep)⟩, hpaid⟩

/-- Once the bus is silent, from any state that all of it together can be in:
however the main program, its interrupts and the line go on, there is a bound on
what gets something done; nothing is stuck before the end; and at the end every
packet that the log accepted is on the line, and the bus sees the control pipe
after everything that was on it. -/
theorem system_settles (hs : Serves c.fw tree)
    (hdev : (c.fw.code c.fw.usbGetDeviceDescriptor).toNat < usbEp0BufferSize)
    (hk : k ≤ 8) (hpos : 1 ≤ m) (hm : m ≤ 7)
    (hfifo : c.fw.usbSetupFifoSize = 2 ^ k) (htx : c.uart1TxBufsize = 2 ^ m)
    (h : runs (guarded unhurriedSystem (systemStep c))
      (systemStart usb setupPacket rxBuffer txBuffer sbuf1) es = some s) :
    ∃ bound, ∀ gs s', runs (guarded systemSilent (systemStep c)) s gs = some s' →
      tally (guarded systemSilent (systemStep c)) systemWorks s gs ≤ bound ∧
        s'.usb.bus = s.usb.bus ∧
        ((∃ e s'', guarded systemSilent (systemStep c) s' e = some s'' ∧
            systemWorks s' e = true) ∨
          (s'.prog.uart.tx.stored =
              transcript (s'.prog.log.accepted.map UsbSetupFifoItem.view) ∧
            some (faceOf s'.usb.dev) =
              (runs (controlStep (descriptors c.fw tree)) .fresh s.usb.bus).map
                Control.face)) := by
  have hm8 := Nat.le_succ_of_le hm
  refine ⟨systemRank s, fun gs s' hrun => ?_⟩
  have hle := tally_le systemWorks systemRank
    (fun _ _ _ hx hstep => settling_step hk hm8 hfifo htx hx hstep)
    ⟨rfl, trails_run h⟩ hrun
  obtain ⟨hbus, t, fs, packets, resets, ht⟩ := runs_inv
    (fun _ _ _ hx hstep => (settling_step hk hm8 hfifo htx hx hstep).1)
    ⟨rfl, trails_run h⟩ hrun
  have halive := ht.alive hk hm8 hfifo htx
  refine ⟨by omega, hbus, ?_⟩
  by_cases hrank : systemRank s' = 0
  · simp only [systemRank, Nat.add_eq_zero_iff] at hrank
    obtain ⟨⟨hleft, hzero⟩, _⟩ := hrank
    obtain ⟨htransfer, hbusRst⟩ := flags_of_settled hleft
    exact .inr ⟨printed_of_rank halive hzero, hbus ▸ ht.face hs hdev htransfer hbusRst⟩
  · obtain ⟨ctl, _, hpresents⟩ := ht.presents hs hdev
    exact .inl (system_can_work hpos hm8 ht halive
      (handles_of_serves hs hdev hpresents) hrank)

theorem system_settles_busy :
    ∃ s, runs (guarded unhurriedSystem (systemStep defaultBuild)) busyStart busyBus =
        some s ∧
      ∃ bound, ∀ gs s',
        runs (guarded systemSilent (systemStep defaultBuild)) s gs = some s' →
          tally (guarded systemSilent (systemStep defaultBuild)) systemWorks s gs ≤
              bound ∧
            s'.usb.bus = s.usb.bus ∧
            ((∃ e s'', guarded systemSilent (systemStep defaultBuild) s' e =
                some s'' ∧ systemWorks s' e = true) ∨
              (s'.prog.uart.tx.stored =
                  transcript (s'.prog.log.accepted.map UsbSetupFifoItem.view) ∧
                some (faceOf s'.usb.dev) =
                  (runs (controlStep (descriptors demo demoTree)) .fresh
                    s.usb.bus).map Control.face)) := by
  have hsome : (runs (guarded unhurriedSystem (systemStep defaultBuild)) busyStart
      busyBus).isSome := rfl
  obtain ⟨s, hs⟩ := Option.isSome_iff_exists.mp hsome
  exact ⟨s, hs, system_settles (c := defaultBuild) (k := 3) (m := 5) demo_serves
    (by decide) (by decide) (by decide) (by decide) rfl rfl hs⟩

end Progress

end Ch552e.Proofs
