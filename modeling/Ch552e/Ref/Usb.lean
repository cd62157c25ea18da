import Ch552e.Ref.Handlers

/-!
# The USB interrupt against the bus

`ISR(INT_NO_USB)` access by access, as `usb_init` sets it up, and the bus at
work between any two of them. Endpoints 1 to 4 are never enabled, so every
transaction that completes is one of endpoint 0; it leaves what it received, its
status and the transfer flag, and until that flag is cleared no other completes
(`bUC_INT_BUSY`). That is also why a handler is one access here: nothing that it
reads changes under it. A bus reset only raises its flag.

The interrupt clears its flags one by one (`UIF_TRANSFER = 0`). That a flag which the
bus raises at that moment is not cleared along with it, as a read-modify-write of
`USB_INT_FG` might do, is the hardware's part of it.
-/

namespace Ch552e.Ref

/-- Where `ISR(INT_NO_USB)` is. -/
inductive UsbIsrPc where
  | outside
  | testTransfer
  | readStatus
  | handlePacket (status : UInt8)
  | clearTransfer
  | testBusRst
  | reset
  | clearBusRst
  | testSuspend
  | clearSuspend

structure Usb where
  dev : Ep0
  usbCtrl : UInt8
  udevCtrl : UInt8
  usbIntEn : UInt8
  irq : UsbIrq
  ieUsb : Bool
  ea : Bool
  pc : UsbIsrPc
  /-- Ghost: the transactions and resets in the order of the bus. -/
  bus : List Ep0Event

/-- `usb_init`. -/
def usbInit (s : Usb) : Usb :=
  { s with
    ea := false
    dev := usbEp0Init s.dev
    udevCtrl := bUdPdDis ||| bUdPortEn
    usbCtrl := bUcDevPuEn ||| bUcIntBusy ||| bUcDmaEn
    -- `USB_INT_FG = 0xFF`: a flag is cleared by writing 1 to it
    irq := { s.irq with
      uifTransfer := false
      uifBusRst := false
      uifSuspend := false }
    usbIntEn := bUieTransfer ||| bUieBusRst
    ieUsb := true }

/-- At `irq_enable`. -/
def usbStart (s : Usb) : Usb :=
  { usbInit s with ea := true, pc := .outside, bus := [] }

/-- The hardware answers NAK by itself. -/
def Usb.busy (s : Usb) : Bool :=
  s.irq.uifTransfer && s.usbCtrl &&& bUcIntBusy ≠ 0

def Usb.requested (s : Usb) : Bool :=
  s.ea && s.ieUsb &&
    (s.irq.uifTransfer && s.usbIntEn &&& bUieTransfer ≠ 0 ||
      s.irq.uifBusRst && s.usbIntEn &&& bUieBusRst ≠ 0 ||
      s.irq.uifSuspend && s.usbIntEn &&& bUieSuspend ≠ 0)

/-- The next access of the interrupt. -/
def usbIsrAccess (fw : Firmware) (s : Usb) : Option Usb :=
  match s.pc with
  | .outside => none
  | .testTransfer =>
      some { s with pc := if s.irq.uifTransfer then .readStatus else .testBusRst }
  | .readStatus => some { s with pc := .handlePacket s.irq.usbIntSt }
  | .handlePacket status =>
      (usbIsrTransfer fw { s.irq with usbIntSt := status } s.dev).map fun dev =>
        { s with dev := dev, pc := .clearTransfer }
  | .clearTransfer =>
      some { s with irq := { s.irq with uifTransfer := false }, pc := .testBusRst }
  | .testBusRst =>
      some { s with pc := if s.irq.uifBusRst then .reset else .testSuspend }
  | .reset => some { s with dev := usbEp0Reset s.dev, pc := .clearBusRst }
  | .clearBusRst =>
      some { s with irq := { s.irq with uifBusRst := false }, pc := .testSuspend }
  | .testSuspend =>
      some { s with pc := if s.irq.uifSuspend then .clearSuspend else .outside }
  | .clearSuspend =>
      some { s with irq := { s.irq with uifSuspend := false }, pc := .outside }

inductive UsbEvent where
  /-- A transaction is completed: what `USB_INT_ST` says of it, and what it
  received. -/
  | transaction (status rxLen : UInt8) (data : Nat → UInt8)
  | busReset
  | suspend
  /-- The interrupt is entered. -/
  | isr
  | access

def usbStep (fw : Firmware) (s : Usb) : UsbEvent → Option Usb
  | .transaction status rxLen data =>
      if s.busy ∨ status &&& maskUisEndp ≠ 0 then none
      else
        some { s with
          dev := receive (status &&& maskUisToken) rxLen data s.dev
          irq := { s.irq with uifTransfer := true, usbIntSt := status }
          bus := s.bus ++ [.packet (status &&& maskUisToken) rxLen data] }
  | .busReset =>
      some { s with
        irq := { s.irq with uifBusRst := true }
        bus := s.bus ++ [.busReset] }
  | .suspend => some { s with irq := { s.irq with uifSuspend := true } }
  | .isr =>
      match s.pc with
      | .outside => if s.requested then some { s with pc := .testTransfer } else none
      | .testTransfer | .readStatus | .handlePacket _ | .clearTransfer
      | .testBusRst | .reset | .clearBusRst | .testSuspend | .clearSuspend => none
  | .access => usbIsrAccess fw s

/-- The interrupt is in its routine. -/
def Usb.serving (s : Usb) : Bool :=
  match s.pc with
  | .outside => false
  | .testTransfer | .readStatus | .handlePacket _ | .clearTransfer | .testBusRst
  | .reset | .clearBusRst | .testSuspend | .clearSuspend => true

/-- The packet that is in the buffer. -/
def Ep0.buffered (s : Ep0) (token : UInt8) : Ep0Event :=
  .packet token s.usbRxLen fun i => s.xram (usbEp0BufferAddress + i)

/-- What an access hands to `usb_ep0_handle_packet`. -/
def Usb.handled (s : Usb) : UsbEvent → Option Ep0Event
  | .access =>
      match s.pc with
      | .handlePacket status =>
          if status &&& maskUisEndp = 0 then
            some (s.dev.buffered (status &&& maskUisToken))
          else none
      | .outside | .testTransfer | .readStatus | .clearTransfer | .testBusRst
      | .reset | .clearBusRst | .testSuspend | .clearSuspend => none
  | .transaction _ _ _ | .busReset | .suspend | .isr => none

end Ch552e.Ref
