import Ch552e.Proofs.Chip
import Ch552e.Proofs.EndToEnd
import Ch552e.Ref.Device

/-!
# All of it on the chip

The program, its interrupts and the bus do the same on one memory as with the
queues apart (`device_runs_system`). `Chip.lean` has this of the program whose
handlers run at once. New here is the time in between: a packet lies in
`ep0_buffer`, and what the main program and the UART interrupt store next to it
does not reach it (`Heard`).
-/

namespace Ch552e.Proofs

open Ch552e.Lib Ch552e.Ref Ch552e.Spec

/-! ## The packet in the buffer -/

section Buffer

variable {fw : Firmware} {d q : Ep0} {token : UInt8}

/-- For what the token makes of the buffer, the same packet is in both. -/
structure Heard (token : UInt8) (d q : Ep0) : Prop where
  length : token = uisTokenSetup ∨ token = uisTokenOut → d.usbRxLen = q.usbRxLen
  packet : token = uisTokenSetup → q.usbRxLen = 8 →
    copySetupPacket d.xram = copySetupPacket q.xram

theorem heard_receive (token rxLen : UInt8) (data : Nat → UInt8) (d q : Ep0) :
    Heard token (receive token rxLen data d) (receive token rxLen data q) where
  length htoken := by
    rw [receive, receive, if_pos htoken, if_pos htoken]
  packet hsetup hlen := by
    subst hsetup
    obtain rfl : rxLen = 8 := hlen
    rw [copySetupPacket_receive, copySetupPacket_receive]

/-- To receive what is in the buffer changes nothing. -/
theorem receive_buffered (token : UInt8) (d : Ep0) :
    receive token d.usbRxLen (fun i => d.xram (usbEp0BufferAddress + i)) d = d := by
  unfold receive
  split
  · rw [blit_self]
  · rfl

theorem ep0Step_buffered (fw : Firmware) (token : UInt8) (d : Ep0) :
    ep0Step fw d (d.buffered token) = usbEp0HandlePacket fw token d := by
  rw [Ep0.buffered, ep0Step, receive_buffered]

theorem ep0StepOn_buffered (fw : Firmware) (token : UInt8) (d : Ep0) :
    ep0StepOn fw d (d.buffered token) = usbEp0HandlePacketOn fw token d := by
  rw [Ep0.buffered, ep0StepOn, receive_buffered]

theorem logged_heard (h : Heard token d q) :
    (d.buffered token).logged = (q.buffered token).logged := by
  simp only [Ep0.buffered, Ep0Event.logged]
  by_cases hsetup : token = uisTokenSetup
  · rw [h.length (.inl hsetup)]
    by_cases hlen : q.usbRxLen = 8
    · rw [if_pos ⟨hsetup, hlen⟩, if_pos ⟨hsetup, hlen⟩]
      exact congrArg some (h.packet hsetup hlen)
    · rw [if_neg fun hboth => hlen hboth.2, if_neg fun hboth => hlen hboth.2]
  · rw [if_neg fun hboth => hsetup hboth.1, if_neg fun hboth => hsetup hboth.1]

theorem alike_stall (h : Alike d q) : Alike (usbEp0Stall d) (usbEp0Stall q) :=
  ⟨agree_stall h.address h.configuration, h.state, h.arms⟩

/-- Devices that are alike do the same with the same packet. -/
theorem handlePacket_heard (h : Alike d q) (hheard : Heard token d q) :
    Option.Rel Alike (usbEp0HandlePacket fw token d)
      (usbEp0HandlePacket fw token q) := by
  unfold usbEp0HandlePacket usbEp0HandlePacketWith
  by_cases hsetup : token = uisTokenSetup
  · rw [if_pos hsetup, if_pos hsetup, hheard.length (.inl hsetup)]
    by_cases hlen : q.usbRxLen = 8
    · rw [if_neg (not_not.mpr hlen), if_neg (not_not.mpr hlen),
        hheard.packet hsetup hlen]
      by_cases hp : accepts (copySetupPacket q.xram) = true
      · exact rel_map (handleSetup_alike hp h.address h.configuration)
          fun _ _ halike => halike
      · have hno : accepts (copySetupPacket q.xram) = false := by simpa using hp
        simp only [handleSetup_rejected fw _ hno, Option.map_some]
        exact .some (alike_stall ⟨⟨h.length, h.ctrl, h.armed, h.address,
          h.configuration⟩, h.state, h.arms⟩)
    · rw [if_pos hlen, if_pos hlen]
      exact .some (alike_stall h)
  · rw [if_neg hsetup, if_neg hsetup]
    by_cases hin : token = uisTokenIn
    · rw [if_pos hin, if_pos hin]
      exact handleIn_alike h
    · rw [if_neg hin, if_neg hin]
      by_cases hout : token = uisTokenOut
      · rw [if_pos hout, if_pos hout, hheard.length (.inr hout)]
        exact .some (handleOut_alike h _)
      · rw [if_neg hout, if_neg hout]
        exact .some h

/-- What comes in lands on what is armed the same way. -/
theorem alike_receive (h : Alike d q) (token rxLen : UInt8) (data : Nat → UInt8) :
    Alike (receive token rxLen data d) (receive token rxLen data q) := by
  by_cases htoken : token = uisTokenSetup ∨ token = uisTokenOut
  · have hout := alike_receive_out h rxLen data
    rw [receive, receive, if_pos htoken, if_pos htoken]
    exact hout
  · rw [receive, receive, if_neg htoken, if_neg htoken]
    exact h

end Buffer

/-! ## Between two handlers -/

section Between

variable {c : Build} {fw : Firmware} {b b' : Chip} {f : MainLoopEvent}
  {s s' t : MainLoop} {u u' : Usb} {e : UsbEvent} {d : Ep0}

/-- The main program, the UART interrupt and the line leave to endpoint 0 its
buffer and its registers. -/
theorem chipStep_own (hfits : Fits c) (hb : InBounds c b.load) (hown : onBus f = none)
    (h : chipStep c b f = some b') :
    b'.prog.log.dev = { b.load.log.dev with fifo := b'.prog.log.dev.fifo } ∧
      ∀ a, ep0Region.Has a → b'.xram a = b.xram a := by
  cases f with
  | usb _ => exact absurd hown (by simp [onBus])
  | main =>
      obtain ⟨s, hs, rfl⟩ := Option.map_eq_some_iff.mp h
      have hdev := mainLoopStep_dev (e := .main) rfl hs
      have hstore := chip_main_confined hb hs
      by_cases hidle : b.prog.uart.idle = true
      · rw [if_pos hidle] at hstore ⊢
        exact ⟨hdev, fun _ ha => hstore.apart
          (apart_of_fits hfits (y := .ep0Buffer) (by decide)) ha⟩
      · rw [if_neg hidle] at hstore ⊢
        exact ⟨hdev, fun _ ha => hstore.apart
          (apart_of_fits hfits (y := .ep0Buffer) (by decide)) ha⟩
  | uart =>
      obtain ⟨s, hs, rfl⟩ := Option.map_eq_some_iff.mp h
      exact ⟨mainLoopStep_dev (e := .uart) rfl hs, fun _ ha =>
        (chip_uart_confined hb hs).apart
          (apart_of_fits hfits (y := .ep0Buffer) (by decide)) ha⟩
  | sent =>
      obtain ⟨s, hs, rfl⟩ := Option.map_eq_some_iff.mp h
      exact ⟨mainLoopStep_dev (e := .sent) rfl hs, fun _ _ => rfl⟩
  | arrived data =>
      rw [chipStep] at h
      obtain ⟨s, hs, rfl⟩ := Option.map_eq_some_iff.mp h
      exact ⟨mainLoopStep_dev (e := .arrived data) rfl hs, fun _ _ => rfl⟩

/-- What is done to endpoint 0 outside of the handler of a packet. -/
def onEp0 (u : Usb) (e : UsbEvent) (d : Ep0) : Ep0 :=
  match e with
  | .transaction status rxLen data =>
      receive (status &&& maskUisToken) rxLen data d
  | .access =>
      match u.pc with
      | .reset => usbEp0Reset d
      | .outside | .testTransfer | .readStatus | .handlePacket _ | .clearTransfer
      | .testBusRst | .clearBusRst | .testSuspend | .clearSuspend => d
  | .busReset | .suspend | .isr => d

theorem endpoint_of_quiet {status : UInt8} (hnone : u.handled .access = none)
    (hs : u.pc = .handlePacket status) : ¬ status &&& maskUisEndp = 0 := by
  intro hzero
  simp only [Usb.handled, hs, if_pos hzero] at hnone
  exact absurd hnone (by simp)

/-- Outside of the handler of a packet no other part of the state depends on
endpoint 0. -/
theorem usbStep_dev (hnone : u.handled e = none) (d : Ep0) :
    usbStep fw { u with dev := d } e =
      (usbStep fw u e).map fun u' => { u' with dev := onEp0 u e d } := by
  cases e with
  | transaction status rxLen data =>
      have hbusy : Usb.busy { u with dev := d } = u.busy := rfl
      simp only [usbStep, hbusy]
      split
      · rfl
      · rfl
  | busReset | suspend => rfl
  | isr =>
      have hreq : Usb.requested { u with dev := d, pc := .outside } = u.requested :=
        rfl
      cases hs : u.pc with
      | outside =>
          simp only [usbStep, hs, hreq]
          split
          · rfl
          · rfl
      | testTransfer | readStatus | handlePacket _ | clearTransfer | testBusRst
      | reset | clearBusRst | testSuspend | clearSuspend =>
          simp only [usbStep, hs, Option.map_none]
  | access =>
      cases hs : u.pc with
      | handlePacket status =>
          have hendp := endpoint_of_quiet hnone hs
          simp only [usbStep, usbIsrAccess, usbIsrTransfer, usbIsrTransferWith, hs,
            if_neg hendp, Option.map_some, onEp0]
      | outside | testTransfer | readStatus | clearTransfer | testBusRst | reset
      | clearBusRst | testSuspend | clearSuspend =>
          simp only [usbStep, usbIsrAccess, hs, Option.map_some, Option.map_none,
            onEp0]

theorem usbStepOn_eq (hnone : u.handled e = none) :
    usbStepOn fw u e = usbStep fw u e := by
  cases e with
  | transaction _ _ _ | busReset | suspend | isr => rfl
  | access =>
      cases hs : u.pc with
      | handlePacket status =>
          have hendp := endpoint_of_quiet hnone hs
          simp only [usbStepOn, usbStep, usbIsrAccess, usbIsrTransferOn,
            usbIsrTransfer, usbIsrTransferWith, hs, if_neg hendp]
      | outside | testTransfer | readStatus | clearTransfer | testBusRst | reset
      | clearBusRst | testSuspend | clearSuspend => simp only [usbStepOn, hs]

theorem onEp0_alike {q : Ep0} (h : Alike d q) :
    Alike (onEp0 u e d) (onEp0 u e q) := by
  cases e with
  | transaction _ _ _ => exact alike_receive h _ _ _
  | busReset | suspend | isr => exact h
  | access =>
      simp only [onEp0]
      split
      · exact alike_reset d q
      all_goals exact h

theorem onEp0_confined (u : Usb) (e : UsbEvent) (d : Ep0) :
    Confined ep0Region d.xram (onEp0 u e d).xram := by
  cases e with
  | transaction _ _ _ => exact receive_confined _ _ _ _
  | busReset | suspend | isr => exact .refl _ _
  | access =>
      simp only [onEp0]
      split <;> exact .refl _ _

theorem onEp0_fifo (u : Usb) (e : UsbEvent) (d : Ep0) :
    (onEp0 u e d).fifo = d.fifo := by
  cases e with
  | transaction _ _ _ => exact receive_fifo _ _ _ _
  | busReset | suspend | isr => rfl
  | access =>
      simp only [onEp0]
      split <;> rfl

theorem onEp0_length (h : d.uep0TLen.toNat ≤ usbEp0BufferSize) :
    (onEp0 u e d).uep0TLen.toNat ≤ usbEp0BufferSize := by
  cases e with
  | transaction _ _ _ =>
      simp only [onEp0, receive]
      split
      · exact h
      · exact h
  | busReset | suspend | isr => exact h
  | access =>
      simp only [onEp0]
      split
      · exact Nat.zero_le _
      all_goals exact h

end Between

/-! ## Steps -/

/-- What the place in the interrupt says of the transfer flag. -/
def FlagUp (u : Usb) : Prop :=
  match u.pc with
  | .readStatus | .clearTransfer => u.irq.uifTransfer = true
  | .handlePacket status => u.irq.uifTransfer = true ∧ status = u.irq.usbIntSt
  | .outside | .testTransfer | .testBusRst | .reset | .clearBusRst | .testSuspend
  | .clearSuspend => True

/-- The chip, next to the system with its queues apart. -/
structure Depicts (c : Build) (b : Device) (s : System) : Prop where
  mirrors : Mirrors c b.chip s.prog
  usb : b.usb = { s.usb with dev := b.usb.dev }
  regs : SetUp s.usb
  flag : FlagUp s.usb
  heard : unhandled s.usb = true →
    Heard (s.usb.irq.usbIntSt &&& maskUisToken) b.usb.dev s.usb.dev

section Step

variable {c : Build} {fw : Firmware} {b : Device} {s : System} {u u' : Usb}
  {e : UsbEvent} {d q : Ep0}

theorem flagUp_step (hregs : SetUp u) (h : FlagUp u) (hstep : UsbStep fw u e u') :
    FlagUp u' := by
  cases hstep with
  | transaction status rxLen data hfree hendp =>
      have hdown : u.irq.uifTransfer = false := by
        have hctrl := hregs.ctrl
        simpa [Usb.busy, hctrl] using hfree
      cases hs : u.pc with
      | readStatus | clearTransfer | handlePacket _ =>
          simp [FlagUp, hs, hdown] at h
      | outside | testTransfer | testBusRst | reset | clearBusRst | testSuspend
      | clearSuspend => simp only [FlagUp]
  | busReset | suspend => exact h
  | transfer _ hflag => exact hflag
  | readStatus hs =>
      simp only [FlagUp, hs] at h
      exact ⟨h, rfl⟩
  | handlePacket hs _ =>
      simp only [FlagUp, hs] at h
      exact h.1
  | isr _ _ | noTransfer _ _ | clearTransfer _ | busRst _ _ | noBusRst _ _ | reset _
  | clearBusRst _ | suspended _ _ | notSuspended _ _ | clearSuspend _ => trivial

/-- A packet that waits stays as it came in until its handler runs. -/
theorem heard_step (h : unhandled u = true →
      Heard (u.irq.usbIntSt &&& maskUisToken) d u.dev)
    (hstep : UsbStep fw u e u') (hwaits : unhandled u' = true) :
    Heard (u'.irq.usbIntSt &&& maskUisToken) (onEp0 u e d) u'.dev := by
  cases hstep with
  | transaction status rxLen data _ _ => exact heard_receive _ _ _ _ _
  | busReset | suspend => exact h hwaits
  | handlePacket _ _ | clearTransfer _ => exact absurd hwaits (by simp [unhandled])
  | isr hs _ | transfer hs _ | noTransfer hs _ | readStatus hs | busRst hs _
  | noBusRst hs _ | reset hs | clearBusRst hs | suspended hs _ | notSuspended hs _
  | clearSuspend hs =>
      simp only [unhandled, hs] at h hwaits
      have hheard := h hwaits
      simp only [onEp0, hs]
      exact ⟨hheard.length, hheard.packet⟩

/-- Endpoint 0 may change in its registers and its buffer, alike on both sides. -/
theorem mirrors_dev {b : Chip} {t : MainLoop} (hfits : Fits c) (h : Mirrors c b t)
    (halike : Alike d q) (hmemory : Confined ep0Region b.xram d.xram)
    (hfifo : q.fifo = t.log.dev.fifo)
    (hlength : d.uep0TLen.toNat ≤ usbEp0BufferSize) :
    Mirrors c ⟨d.xram, withDev b.prog d⟩ (withDev t q) := by
  have hqueue : loadFifo d.xram = loadFifo b.xram := loadFifo_congr hmemory
  have hrx := hmemory.agreeBelow (apart_of_fits hfits (x := .ep0Buffer)
    (y := .rxBuffer) (by decide))
  have htx := hmemory.agreeBelow (apart_of_fits hfits (x := .ep0Buffer)
    (y := .txBuffer) (by decide))
  have hclose := h.close
  have hbounds := h.bounds
  refine ⟨⟨⟨(alike_of_memory rfl).trans halike, ?_, hclose.log.pc, hclose.log.item,
      hclose.log.accepted, hclose.log.popped⟩,
    ⟨⟨hclose.uart.rx.rest, hrx.trans hclose.uart.rx.cells⟩,
      ⟨hclose.uart.tx.rest, htx.trans hclose.uart.tx.cells⟩, hclose.uart.u1ri,
      hclose.uart.sbuf1, hclose.uart.arrived⟩, hclose.calls⟩,
    ⟨hlength, ⟨?_, hbounds.log.pc⟩, ⟨⟨hbounds.uart.rx.head, hbounds.uart.rx.tail,
      hbounds.uart.rx.index⟩, ⟨⟨hbounds.uart.tx.below.head,
      hbounds.uart.tx.below.pc⟩, hbounds.uart.tx.tail, hbounds.uart.tx.index⟩⟩⟩⟩
  · show FifoClose _ (loadFifo d.xram) q.fifo
    rw [hqueue, hfifo]
    exact hclose.log.fifo
  · show FifoBounded _ (loadFifo d.xram)
    rw [hqueue]
    exact hbounds.log.fifo

theorem withChip_load {ch : Chip}
    (hdev : ch.prog.log.dev =
      { b.chip.load.log.dev with fifo := ch.prog.log.dev.fifo }) :
    (b.withChip ch).chip.load = ch.load := by
  have hsame : { ch.prog.log.dev with xram := ch.xram, fifo := loadFifo ch.xram } =
      { b.usb.dev with xram := ch.xram, fifo := loadFifo ch.xram } := by
    rw [hdev]
    rfl
  simp only [Chip.load, hsame]
  rfl

/-- An event of the main program, the UART or the line. -/
theorem depicts_own {f : MainLoopEvent} (hfits : Fits c)
    (hdev : (c.fw.code c.fw.usbGetDeviceDescriptor).toNat ≤ usbEp0BufferSize)
    (h : Depicts c b s) (hown : onBus f = none) :
    Option.Rel (Depicts c) ((chipStep c b.chip f).map b.withChip)
      ((mainLoopStep c s.prog f).map s.withProg) := by
  refine rel_map (rel_and (mirrors_step hfits hdev h.mirrors f)
    (fun _ hch => chipStep_own hfits h.mirrors.bounds hown hch)
    (fun _ hp => mainLoopStep_dev hown hp)) ?_
  rintro ch p ⟨hmirrors, ⟨hchip, hmemory⟩, hprog⟩
  have hload := withChip_load hchip
  refine ⟨⟨hload ▸ hmirrors.close, hload ▸ hmirrors.bounds⟩, ?_,
    ⟨h.regs.ctrl, h.regs.enabled, h.regs.ieUsb, h.regs.ea⟩, h.flag, fun hwaits => ?_⟩
  · exact congrArg (fun v : Usb => { v with
      dev := { b.usb.dev with xram := ch.xram } }) h.usb
  · have hheard := h.heard hwaits
    have hsame : p.log.dev = { s.usb.dev with fifo := p.log.dev.fifo } :=
      s.shared ▸ hprog
    have hbuffer : copySetupPacket ch.xram = copySetupPacket b.usb.dev.xram := by
      simp only [copySetupPacket]
      congr 1
      funext i
      exact hmemory _ ⟨Nat.le_add_right _ _, Nat.add_lt_add_left
        (i.isLt.trans (by decide)) _⟩
    show Heard _ { b.usb.dev with xram := ch.xram } p.log.dev
    rw [hsame]
    exact ⟨hheard.length, fun hsetup hlen => hbuffer.trans (hheard.packet hsetup hlen)⟩

/-- What `usbStepOn` starts from. -/
theorem Depicts.load (h : Depicts c b s) :
    b.load.usb = { s.usb with dev := b.chip.load.log.dev } :=
  congrArg (fun v : Usb => { v with dev := b.chip.load.log.dev }) h.usb

theorem handled_dev (u : Usb) (e : UsbEvent) (d : Ep0) (h : u.handled e = none) :
    Usb.handled { u with dev := d } e = none := by
  cases e with
  | transaction _ _ _ | busReset | suspend | isr => rfl
  | access =>
      cases hs : u.pc with
      | handlePacket status =>
          have hendp := endpoint_of_quiet h hs
          simp only [Usb.handled, if_neg hendp]
      | outside | testTransfer | readStatus | clearTransfer | testBusRst | reset
      | clearBusRst | testSuspend | clearSuspend => simp only [Usb.handled]

/-- An event of the bus or of the interrupt, but for the handler of a packet. -/
theorem depicts_quiet (hfits : Fits c) (h : Depicts c b s)
    (hnone : s.usb.handled e = none) :
    Option.Rel (Depicts c)
      ((usbStepOn c.fw b.load.usb e).map fun usb =>
        b.withUsb usb (b.load.accept c.fw e))
      ((usbStep c.fw s.usb e).map fun usb => s.withUsb usb (s.accept c.fw e)) := by
  have hnone' : b.load.usb.handled e = none := by
    rw [h.load]
    exact handled_dev _ _ _ hnone
  have haccept : b.load.accept c.fw e = b.prog.log.accepted := by
    rw [System.accept, hnone']
    rfl
  have haccept' : s.accept c.fw e = s.prog.log.accepted := by
    rw [System.accept, hnone]
  have hself : usbStep c.fw s.usb e = (usbStep c.fw s.usb e).map fun u =>
      { u with dev := onEp0 s.usb e s.usb.dev } := usbStep_dev hnone s.usb.dev
  rw [usbStepOn_eq hnone', haccept, haccept', h.load, usbStep_dev hnone,
    Option.map_map]
  refine rel_map_self fun u hu => ?_
  have hdev : u.dev = onEp0 s.usb e s.usb.dev := by
    rw [hu] at hself
    exact congrArg Usb.dev (Option.some.inj hself)
  have hevent := usbStep_event hu
  have halike : Alike (onEp0 s.usb e b.chip.load.log.dev) u.dev := by
    rw [hdev]
    exact onEp0_alike (s.shared ▸ h.mirrors.close.log.dev)
  have hfifo : u.dev.fifo = s.prog.log.dev.fifo := by
    rw [hdev, onEp0_fifo, s.shared]
  refine ⟨mirrors_dev hfits h.mirrors halike (onEp0_confined _ _ _) hfifo
    (onEp0_length h.mirrors.bounds.armed), rfl, setUp_step h.regs hevent,
    flagUp_step h.regs h.flag hevent, fun hwaits => ?_⟩
  have hheard : unhandled s.usb = true → Heard (s.usb.irq.usbIntSt &&& maskUisToken)
      b.chip.load.log.dev s.usb.dev := fun hup =>
    ⟨(h.heard hup).length, (h.heard hup).packet⟩
  exact heard_step hheard hevent hwaits

theorem handled_packet {f : Ep0Event} (h : u.handled e = some f) :
    ∃ status, e = .access ∧ u.pc = .handlePacket status ∧
      status &&& maskUisEndp = 0 := by
  cases e with
  | transaction _ _ _ | busReset | suspend | isr =>
      exact absurd h (by simp [Usb.handled])
  | access =>
      cases hs : u.pc with
      | handlePacket status =>
          simp only [Usb.handled, hs] at h
          split at h
          · next hendp => exact ⟨status, rfl, rfl, hendp⟩
          · exact absurd h (by simp)
      | outside | testTransfer | readStatus | clearTransfer | testBusRst | reset
      | clearBusRst | testSuspend | clearSuspend =>
          simp only [Usb.handled, hs] at h
          exact absurd h (by simp)

theorem handled_handler {status : UInt8} (hs : u.pc = .handlePacket status)
    (hendp : status &&& maskUisEndp = 0) :
    u.handled .access = some (u.dev.buffered (status &&& maskUisToken)) := by
  simp only [Usb.handled, hs, if_pos hendp]

theorem usbStep_handler {status : UInt8} (hs : u.pc = .handlePacket status)
    (hendp : status &&& maskUisEndp = 0) :
    usbStep fw u .access =
      (ep0Step fw u.dev (u.dev.buffered (status &&& maskUisToken))).map fun dev =>
        { u with dev := dev, pc := .clearTransfer } := by
  simp only [usbStep, usbIsrAccess, hs, usbIsrTransfer, usbIsrTransferWith,
    if_pos hendp, ep0Step_buffered]

theorem usbStepOn_handler {status : UInt8} (hs : u.pc = .handlePacket status)
    (hendp : status &&& maskUisEndp = 0) :
    usbStepOn fw u .access =
      (ep0StepOn fw u.dev (u.dev.buffered (status &&& maskUisToken))).map fun dev =>
        { u with dev := dev, pc := .clearTransfer } := by
  simp only [usbStepOn, hs, usbIsrTransferOn, usbIsrTransferWith, if_pos hendp,
    ep0StepOn_buffered]

/-- The handler of a packet. -/
theorem depicts_handled {f : Ep0Event} (hfits : Fits c)
    (hdev : (c.fw.code c.fw.usbGetDeviceDescriptor).toNat ≤ usbEp0BufferSize)
    (h : Depicts c b s) (hhandled : s.usb.handled e = some f) :
    Option.Rel (Depicts c)
      ((usbStepOn c.fw b.load.usb e).map fun usb =>
        b.withUsb usb (b.load.accept c.fw e))
      ((usbStep c.fw s.usb e).map fun usb => s.withUsb usb (s.accept c.fw e)) := by
  obtain ⟨status, rfl, hs, hendp⟩ := handled_packet hhandled
  have hflag := h.flag
  simp only [FlagUp, hs] at hflag
  obtain ⟨hup, hstatus⟩ := hflag
  have hheard : Heard (status &&& maskUisToken) b.chip.load.log.dev
      s.prog.log.dev := by
    have hwaits : unhandled s.usb = true := by
      simp only [unhandled, hs, hup]
    have hbuffer := h.heard hwaits
    rw [hstatus, s.shared]
    exact ⟨hbuffer.length, hbuffer.packet⟩
  have hs' : b.load.usb.pc = .handlePacket status := by
    rw [h.load]
    exact hs
  have haccept : b.load.accept c.fw .access = b.chip.load.log.accept c.fw
      (b.chip.load.log.dev.buffered (status &&& maskUisToken)) := by
    rw [System.accept, handled_handler hs' hendp]
    rfl
  have haccept' : s.accept c.fw .access = s.prog.log.accept c.fw
      (s.prog.log.dev.buffered (status &&& maskUisToken)) := by
    rw [System.accept, handled_handler hs hendp, s.shared]
  have hpackets : Option.Rel Alike
      (ep0Step c.fw b.chip.load.log.dev
        (b.chip.load.log.dev.buffered (status &&& maskUisToken)))
      (ep0Step c.fw s.prog.log.dev
        (s.prog.log.dev.buffered (status &&& maskUisToken))) := by
    rw [ep0Step_buffered, ep0Step_buffered]
    exact handlePacket_heard h.mirrors.close.log.dev hheard
  have hprogram : Option.Rel (Close c)
      (mainLoopStep c b.chip.load
        (.usb (b.chip.load.log.dev.buffered (status &&& maskUisToken))))
      (mainLoopStep c s.prog
        (.usb (s.prog.log.dev.buffered (status &&& maskUisToken)))) :=
    rel_map (isr_close h.mirrors.close.log (logged_heard hheard) hpackets)
      fun _ _ hlog => ⟨hlog, h.mirrors.close.uart, h.mirrors.close.calls⟩
  have hrel := mirrors_of_close hdev h.mirrors
    (chip_usb hfits hdev h.mirrors.bounds _) hprogram
  rw [usbStepOn_handler hs' hendp, usbStep_handler hs hendp, haccept, haccept',
    ← s.shared, Option.map_map, Option.map_map]
  simp only [chipStep, mainLoopStep, setupLogStep, Option.map_map] at hrel
  refine rel_map (rel_of_map hrel) fun d q hmirrors => ?_
  refine ⟨hmirrors, ?_, ⟨h.regs.ctrl, h.regs.enabled, h.regs.ieUsb, h.regs.ea⟩, hup,
    fun hwaits => absurd hwaits (by simp [unhandled, System.withUsb])⟩
  exact congrArg (fun v : Usb => { v with dev := d, pc := .clearTransfer }) h.load

theorem depicts_step (hfits : Fits c)
    (hdev : (c.fw.code c.fw.usbGetDeviceDescriptor).toNat ≤ usbEp0BufferSize)
    (h : Depicts c b s) (e : SystemEvent) :
    Option.Rel (Depicts c) (deviceStep c b e) (systemStep c s e) := by
  have hserving : b.usb.serving = s.usb.serving := by
    rw [h.usb]
    rfl
  cases e with
  | main =>
      rw [deviceStep, systemStep, hserving]
      split
      · exact .none
      · exact depicts_own hfits hdev h rfl
  | uart =>
      rw [deviceStep, systemStep, hserving]
      split
      · exact .none
      · exact depicts_own hfits hdev h rfl
  | sent => exact depicts_own hfits hdev h rfl
  | arrived data =>
      have hown : onBus (.arrived data) = none := rfl
      exact depicts_own hfits hdev h hown
  | usb e =>
      cases hhandled : s.usb.handled e with
      | none => exact depicts_quiet hfits h hhandled
      | some f => exact depicts_handled hfits hdev h hhandled

/-- The assumptions on the bus and on the transmitter are about what both have. -/
theorem unhurried_load (h : Depicts c b s) (e : SystemEvent) :
    unhurriedSystem b.load e = unhurriedSystem s e := by
  cases e with
  | main | sent | arrived _ => rfl
  | uart =>
      have hclose := h.mirrors.close.uart.tx.rest
      simp only [unhurriedSystem, unhurriedUart]
      rw [hclose]
      rfl
  | usb e =>
      have hctrl : b.chip.load.log.dev.uep0Ctrl = s.usb.dev.uep0Ctrl :=
        s.shared ▸ h.mirrors.close.log.dev.ctrl
      have hresp : ∀ f, responds b.chip.load.log.dev f = responds s.usb.dev f := by
        intro f
        cases f with
        | busReset => rfl
        | packet token _ _ =>
            rw [responds, responds, Ep0.tRes, Ep0.tRes, Ep0.rRes, Ep0.rRes, hctrl]
      simp only [unhurriedSystem]
      rw [h.load]
      cases e with
      | transaction status rxLen data => simp only [unhurriedBus, hresp]
      | busReset | suspend | isr | access => rfl

end Step

/-! ## Runs -/

section Runs

variable {c : Build} (usb : Usb) (setupPacket : UsbSetupFifoItem) (sbuf1 : UInt8)

/-- The system with its queues apart, and in them what is in the memory. -/
def apartStart : System :=
  systemStart { usb with dev := { usb.dev with fifo := loadFifo usb.dev.xram } }
    setupPacket (loadArray usb.dev.xram uart1RxBufferAddress)
    (loadArray usb.dev.xram uart1TxBufferAddress) sbuf1

theorem depicts_init (hc : c.Accepted) (hfits : Fits c) :
    Depicts c (deviceStart usb setupPacket sbuf1)
      (apartStart usb setupPacket sbuf1) where
  mirrors :=
    have hinit := mirrors_init usb.dev.xram usb.dev setupPacket sbuf1 hc hfits
    ⟨hinit.close, hinit.bounds⟩
  usb := rfl
  regs := setUp_init _
  flag := trivial
  heard := fun hwaits => absurd hwaits (by
    rw [unhandled_of_down rfl]
    simp)

/-- As `Shown`, and the flags and what was on the bus. -/
def seen (s : System) : Shown × UsbIrq × List Ep0Event :=
  (shown s.prog, s.usb.irq, s.usb.bus)

theorem seen_load {b : Device} {s : System} (h : Depicts c b s) :
    seen b.load = seen s := by
  have husb := h.load
  have hirq : b.load.usb.irq = s.usb.irq := by rw [husb]
  have hbus : b.load.usb.bus = s.usb.bus := by rw [husb]
  have hprog : shown b.load.prog = shown s.prog := shown_of_close h.mirrors.close
  rw [seen, seen, hirq, hbus, hprog]

/-- For every build that the preprocessor lets pass and whose queues fit between
the addresses, whatever is in the memory at first: the program with its interrupts,
access by access, the bus and the line on the chip, and the same with the queues
apart, get through the same events, in any order, and nobody can tell them apart;
and so it is where the bus and the transmitter are unhurried. -/
theorem device_runs_system (hc : c.Accepted) (hfits : Fits c)
    (hdev : (c.fw.code c.fw.usbGetDeviceDescriptor).toNat ≤ usbEp0BufferSize)
    (es : List SystemEvent) :
    (runs (deviceStep c) (deviceStart usb setupPacket sbuf1) es).map
        (fun b => seen b.load) =
      (runs (systemStep c) (apartStart usb setupPacket sbuf1) es).map seen ∧
    (runs (guarded (fun b => unhurriedSystem b.load) (deviceStep c))
        (deviceStart usb setupPacket sbuf1) es).map (fun b => seen b.load) =
      (runs (guarded unhurriedSystem (systemStep c))
        (apartStart usb setupPacket sbuf1) es).map seen := by
  have hinit := depicts_init usb setupPacket sbuf1 hc hfits
  have hnext : ∀ b s e, Depicts c b s →
      Option.Rel (Depicts c) (deviceStep c b e) (systemStep c s e) :=
    fun _ _ e h => depicts_step hfits hdev h e
  have hunhurried : ∀ b s e, Depicts c b s → Option.Rel (Depicts c)
      (guarded (fun b => unhurriedSystem b.load) (deviceStep c) b e)
      (guarded unhurriedSystem (systemStep c) s e) :=
    fun b s e h => guarded_rel (unhurried_load h e) (hnext b s e h)
  exact ⟨map_eq_of_rel (runs_rel hnext hinit es) fun _ _ h => seen_load h,
    map_eq_of_rel (runs_rel hunhurried hinit es) fun _ _ h => seen_load h⟩

theorem device_runs_system_busy :
    (runs (guarded (fun b => unhurriedSystem b.load) (deviceStep defaultBuild))
        (deviceStart usbPowerOn ⟨0, 0, 0, 0, 0⟩ 0) busyBus).isSome = true ∧
      (runs (deviceStep defaultBuild) (deviceStart usbPowerOn ⟨0, 0, 0, 0, 0⟩ 0)
          busyBus).map (fun b => seen b.load) =
        (runs (systemStep defaultBuild) (apartStart usbPowerOn ⟨0, 0, 0, 0, 0⟩ 0)
          busyBus).map seen ∧
      (runs (guarded (fun b => unhurriedSystem b.load) (deviceStep defaultBuild))
          (deviceStart usbPowerOn ⟨0, 0, 0, 0, 0⟩ 0) busyBus).map
          (fun b => seen b.load) =
        (runs (guarded unhurriedSystem (systemStep defaultBuild))
          (apartStart usbPowerOn ⟨0, 0, 0, 0, 0⟩ 0) busyBus).map seen :=
  ⟨rfl, device_runs_system _ _ _
    ⟨by decide, by decide, by decide, by decide, by decide, by decide⟩
    ⟨by decide, by decide⟩ (by decide) _⟩

end Runs

end Ch552e.Proofs
