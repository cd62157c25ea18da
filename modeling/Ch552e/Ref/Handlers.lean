import Ch552e.Lib.Run
import Ch552e.Ref.Prepare

/-!
# The endpoint 0 handlers and the USB interrupt

`ep0/setup.c`, `ep0/in.c`, `ep0/out.c`, `usb_ep0_handle_packet` of
`ep0/ep0.c`, and the interrupt routine of `usb/isr.c`. A handler answers
`none` exactly where the fill loop it runs never ends.

What the hardware does before the interrupt is `receive`: the bytes of a SETUP
or OUT go to the buffer and their number to `USB_RX_LEN`. `ep0Step` and
`isrStep` are one event and one run of the interrupt, hardware included.
-/

namespace Ch552e.Ref

open Ch552e.Lib

/-! ## Classifying a request -/

def isGetDescriptor (p : UsbSetupPacket) : Bool :=
  p.bmRequestType = (mreqDirectionD2h ||| mreqTypeStandard ||| mreqTargetDevice) &&
    p.bRequest = reqGetDescriptor &&
    p.wIndex = 0 &&
    p.wValueL = 0x00

def isGetDeviceDescriptor (p : UsbSetupPacket) : Bool :=
  isGetDescriptor p && p.wValueH = usbDescriptorTypeDevice

def isGetConfigurationDescriptor (p : UsbSetupPacket) : Bool :=
  isGetDescriptor p && p.wValueH = usbDescriptorTypeConfiguration

def isSetAddress (p : UsbSetupPacket) : Bool :=
  p.bmRequestType = (mreqDirectionH2d ||| mreqTypeStandard ||| mreqTargetDevice) &&
    p.bRequest = reqSetAddress &&
    p.wIndex = 0 &&
    p.wLength = 0 &&
    p.wValue ≤ 127

def isSetConfiguration (p : UsbSetupPacket) : Bool :=
  p.bmRequestType = (mreqDirectionH2d ||| mreqTypeStandard ||| mreqTargetDevice) &&
    p.bRequest = reqSetConfiguration &&
    p.wIndex = 0 &&
    p.wLength = 0 &&
    (p.wValue = 0 || p.wValue = 1)

/-! ## SETUP -/

def Firmware.wTotalLength (fw : Firmware) : UInt16 :=
  let config := fw.usbGetConfigurationDescriptor
  u16le (fw.code (config + 2)) (fw.code (config + 3))

/-- The stream set up for a configuration request, before its first packet. -/
def startConfigStream (fw : Firmware) (p : UsbSetupPacket) (s : Ep0) : Ep0 :=
  let config := fw.usbGetConfigurationDescriptor
  let a := s.arms.setCursor config
  let a := a.setRemaining (fw.code config)
  let a := a.setRequestRemaining p.wLength
  let a := a.setTotalRemaining fw.wTotalLength
  let a := a.setInterface 0
  let a := a.setChild 0b00011111
  { s with
    state := .sendConfigurationDescriptor
    arms := a
    trace := [.start a] }

/-- `usb_ep0_handle_setup`: whether the request is accepted, and the state
after. -/
def usbEp0HandleSetup (fw : Firmware) (p : UsbSetupPacket) (s : Ep0) :
    Option (Bool × Ep0) :=
  if isSetAddress p then
    some (true, { s with
      state := .waitDeviceAddress
      arms := s.arms.setAddressCandidate p.wValueL
      uep0TLen := 0
      uep0Ctrl := bUepTTog ||| bUepRTog ||| uepRResAck ||| uepTResAck })
  else if isGetDeviceDescriptor p then
    let descriptor := fw.usbGetDeviceDescriptor
    let descriptorSize := fw.code descriptor
    some (true, { s with
      state := .sendDeviceDescriptor
      xram := memcpyCodeToXdata fw.code s.xram usbEp0BufferAddress descriptor
        descriptorSize.toNat
      uep0TLen :=
        if descriptorSize.toUInt16 > p.wLength then p.wLength.toUInt8
        else descriptorSize
      uep0Ctrl := bUepTTog ||| bUepRTog ||| uepRResAck ||| uepTResAck })
  else if isGetConfigurationDescriptor p then
    let s := startConfigStream fw p s
    if p.wLength = 0 then
      some (true, { s with
        state := .waitStatusOut
        uep0TLen := 0
        uep0Ctrl := bUepRTog ||| uepRResAck ||| uepTResNak })
    else
      (usbEp0PrepareDescriptor fw s).map fun (length, s) =>
        (true, { s with
          uep0TLen := length
          uep0Ctrl := bUepTTog ||| bUepRTog ||| uepRResAck ||| uepTResAck })
  else if isSetConfiguration p then
    some (true, { s with
      state := .waitSetConfiguration
      arms := s.arms.setConfigurationCandidate p.wValueL
      uep0TLen := 0
      uep0Ctrl := bUepTTog ||| bUepRTog ||| uepRResAck ||| uepTResAck })
  else
    some (false, s)

/-! ## IN and OUT -/

/-- The end of a data stage: nothing to send, and the status OUT expected as
DATA1. -/
def awaitStatusOut (s : Ep0) : Ep0 :=
  { s with
    state := .waitStatusOut
    uep0TLen := 0
    uep0Ctrl := bUepRTog ||| uepRResAck ||| uepTResNak }

def nextTToggle (s : Ep0) : UInt8 := (s.uep0Ctrl ^^^ bUepTTog) &&& bUepTTog

def usbEp0HandleIn (fw : Firmware) (s : Ep0) : Option Ep0 :=
  match s.state with
  | .waitDeviceAddress =>
      some { s with
        usbDevAd := (s.usbDevAd &&& ~~~maskUsbAddr) ||| s.arms.addressCandidate
        state := .idle
        uep0TLen := 0
        uep0Ctrl := uepRResAck ||| uepTResNak }
  | .sendDeviceDescriptor => some (awaitStatusOut s)
  | .sendConfigurationDescriptor =>
      -- the whole of wLength is sent: the data stage is over
      if s.arms.requestRemaining = 0 then
        some (awaitStatusOut s)
      else
        let previousLength := s.uep0TLen
        (usbEp0PrepareDescriptor fw s).map fun (length, s) =>
          if length = 0 then
            -- shorter than asked for: a ZLP if it ended on a boundary
            if previousLength.toNat = usbEp0BufferSize then
              { s with
                state := .sendConfigurationZlp
                uep0TLen := 0
                uep0Ctrl := nextTToggle s ||| bUepRTog ||| uepRResNak ||| uepTResAck }
            else
              awaitStatusOut s
          else
            { s with
              uep0TLen := length
              uep0Ctrl := nextTToggle s ||| bUepRTog ||| uepRResNak ||| uepTResAck }
  | .sendConfigurationZlp => some (awaitStatusOut s)
  | .waitSetConfiguration =>
      some { s with
        state := .idle
        configuration := s.arms.configurationCandidate
        uep0TLen := 0
        uep0Ctrl := uepRResAck ||| uepTResNak }
  | .init | .waitStatusOut | .idle => some s

def usbEp0HandleOut (length : UInt8) (s : Ep0) : Ep0 :=
  match s.state with
  | .waitStatusOut =>
      if length ≠ 0 then
        usbEp0Stall s
      else
        { s with
          state := .idle
          uep0TLen := 0
          uep0Ctrl := uepRResAck ||| uepTResNak }
  | .init | .waitDeviceAddress | .waitSetConfiguration | .sendDeviceDescriptor
  | .sendConfigurationDescriptor | .sendConfigurationZlp | .idle => s

/-! ## Dispatch -/

def copySetupPacket (xram : Nat → UInt8) : UsbSetupPacket :=
  ⟨fun i => xram (usbEp0BufferAddress + i)⟩

/-- What is left of a SETUP after its request is handled: a request that is
not accepted stalls. -/
def answerSetup : Bool × Ep0 → Ep0
  | (true, s) => s
  | (false, s) => usbEp0Stall s

/-- The queue after a SETUP packet is logged; the push's verdict is not looked
at. -/
def logSetup (fw : Firmware) (p : UsbSetupPacket) (s : Ep0) : Ep0 :=
  { s with
    fifo := (usbSetupFifoPushIsr fw.usbSetupFifoSize s.fifo
      (UsbSetupFifoItem.view p)).2 }

/-- `usb_ep0_handle_packet`; where the queue that the packet is logged in lies is
for `log` to say. -/
def usbEp0HandlePacketWith (log : UsbSetupPacket → Ep0 → Ep0) (fw : Firmware)
    (token : UInt8) (s : Ep0) : Option Ep0 :=
  if token = uisTokenSetup then
    if s.usbRxLen ≠ 8 then
      some (usbEp0Stall s)
    else
      let packet := copySetupPacket s.xram
      (usbEp0HandleSetup fw packet (log packet s)).map answerSetup
  else if token = uisTokenIn then
    usbEp0HandleIn fw s
  else if token = uisTokenOut then
    some (usbEp0HandleOut s.usbRxLen s)
  else
    some s

def usbEp0HandlePacket (fw : Firmware) (token : UInt8) (s : Ep0) : Option Ep0 :=
  usbEp0HandlePacketWith (logSetup fw) fw token s

/-- The hardware's part of a transaction on endpoint 0: a SETUP or an OUT
leaves its bytes in the buffer, which takes 64 of them at most. -/
def receive (token rxLen : UInt8) (data : Nat → UInt8) (s : Ep0) : Ep0 :=
  if token = uisTokenSetup ∨ token = uisTokenOut then
    { s with
      usbRxLen := rxLen
      xram := blit s.xram usbEp0BufferAddress
        (min rxLen.toNat usbEp0BufferSize) data }
  else
    s

inductive Ep0Event where
  /-- A completed transaction: its token, and what it received. -/
  | packet (token rxLen : UInt8) (data : Nat → UInt8)
  | busReset

/-- One event: the hardware's part and the handler's. -/
def ep0Step (fw : Firmware) (s : Ep0) : Ep0Event → Option Ep0
  | .packet token rxLen data =>
      usbEp0HandlePacket fw token (receive token rxLen data s)
  | .busReset => some (usbEp0Reset s)

/-- The SETUP packet whose bytes are the first eight of `data`. -/
def UsbSetupPacket.ofData (data : Nat → UInt8) : UsbSetupPacket :=
  ⟨fun i => data i⟩

/-- A SETUP transaction with the eight bytes of `p`. -/
def Ep0Event.setup (p : UsbSetupPacket) : Ep0Event :=
  .packet uisTokenSetup 8 fun i => if h : i < 8 then p.bytes ⟨i, h⟩ else 0

def Ep0Event.tokenIn : Ep0Event := .packet uisTokenIn 0 fun _ => 0
def Ep0Event.statusOut : Ep0Event := .packet uisTokenOut 0 fun _ => 0

/-! ## The interrupt -/

/-- The pending flags of `USB_INT_FG`, one bit each, and `USB_INT_ST`. -/
structure UsbIrq where
  uifTransfer : Bool
  uifBusRst : Bool
  uifSuspend : Bool
  usbIntSt : UInt8

/-- The first branch of the interrupt up to the clearing of its flag. -/
def usbIsrTransferWith (handlePacket : UInt8 → Ep0 → Option Ep0) (irq : UsbIrq)
    (s : Ep0) : Option Ep0 :=
  let endpoint := irq.usbIntSt &&& maskUisEndp
  let token := irq.usbIntSt &&& maskUisToken
  if endpoint = 0 then handlePacket token s else some s

def usbIsrTransfer (fw : Firmware) (irq : UsbIrq) (s : Ep0) : Option Ep0 :=
  usbIsrTransferWith (usbEp0HandlePacket fw) irq s

/-- `ISR(INT_NO_USB)`: the flags and the state after one run. -/
def usbIsr (fw : Firmware) (irq : UsbIrq) (s : Ep0) : Option (UsbIrq × Ep0) :=
  (if irq.uifTransfer then
    (usbIsrTransfer fw irq s).map fun s => ({ irq with uifTransfer := false }, s)
  else
    some (irq, s)).map fun (irq, s) =>
  let (irq, s) :=
    if irq.uifBusRst then ({ irq with uifBusRst := false }, usbEp0Reset s)
    else (irq, s)
  if irq.uifSuspend then ({ irq with uifSuspend := false }, s) else (irq, s)

/-- One run of the interrupt: what is pending at its entry, and what a
transaction on endpoint 0 has received. -/
structure IsrEvent where
  irq : UsbIrq
  rxLen : UInt8
  data : Nat → UInt8

def isrStep (fw : Firmware) (s : Ep0) (e : IsrEvent) : Option Ep0 :=
  let s :=
    if e.irq.uifTransfer ∧ e.irq.usbIntSt &&& maskUisEndp = 0 then
      receive (e.irq.usbIntSt &&& maskUisToken) e.rxLen e.data s
    else s
  (usbIsr fw e.irq s).map Prod.snd

end Ch552e.Ref
