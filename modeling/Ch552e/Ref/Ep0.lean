import Ch552e.Ref.Regs
import Ch552e.Ref.SetupFifo

/-!
# Endpoint 0: the device state

`usb_ep0_ctx_t` and the globals around it (`ep0/internal.h`, `ep0/ep0.c`), the
registers the handlers touch, and what they are linked with: the program
memory, the four descriptor hooks of `hardware/usb/hooks.h` and the compiled
queue size, collected in `Firmware`.

The anonymous union of the context is shared storage (`Ep0Arms`). Its arms
overlap in one byte: both candidates are the first byte, and the first byte of
`config_stream` is the low byte of `cursor`, a two-byte pointer into program
memory whose null value is address 0.

xRAM is a flat function from addresses and `ep0_buffer` is its bytes 0 to 63,
so a copy past the end of the buffer is visible as such. The SETUP log queue,
which has an object of its own in xRAM, is a field of its own.
-/

namespace Ch552e.Ref

open Ch552e.Lib

inductive UsbEp0State where
  | init
  | waitDeviceAddress
  | waitSetConfiguration
  | sendDeviceDescriptor
  | sendConfigurationDescriptor
  | sendConfigurationZlp
  | waitStatusOut
  | idle
deriving DecidableEq, Repr

inductive Arm where
  | addressPending
  | configurationPending
  | configStream
deriving DecidableEq, Repr

/-- The storage of the union of `usb_ep0_ctx_t`. -/
structure Ep0Arms where
  /-- `address_candidate`, `configuration_candidate`, and the low byte of
  `cursor`. -/
  byte0 : UInt8
  byte1 : UInt8
  remaining : UInt8
  requestRemaining : UInt16
  totalRemaining : UInt16
  interface : BitVec 3
  child : BitVec 5
  /-- Ghost: the arm the storage was last written through. -/
  lastArm : Arm
deriving DecidableEq

namespace Ep0Arms

def addressCandidate (a : Ep0Arms) : UInt8 := a.byte0
def configurationCandidate (a : Ep0Arms) : UInt8 := a.byte0
def cursor (a : Ep0Arms) : UInt16 := u16le a.byte0 a.byte1

def setAddressCandidate (a : Ep0Arms) (v : UInt8) : Ep0Arms :=
  { a with byte0 := v, lastArm := .addressPending }

def setConfigurationCandidate (a : Ep0Arms) (v : UInt8) : Ep0Arms :=
  { a with byte0 := v, lastArm := .configurationPending }

def setCursor (a : Ep0Arms) (p : UInt16) : Ep0Arms :=
  { a with byte0 := lowByte p, byte1 := highByte p, lastArm := .configStream }

def setRemaining (a : Ep0Arms) (v : UInt8) : Ep0Arms :=
  { a with remaining := v, lastArm := .configStream }

def setRequestRemaining (a : Ep0Arms) (v : UInt16) : Ep0Arms :=
  { a with requestRemaining := v, lastArm := .configStream }

def setTotalRemaining (a : Ep0Arms) (v : UInt16) : Ep0Arms :=
  { a with totalRemaining := v, lastArm := .configStream }

def setInterface (a : Ep0Arms) (v : BitVec 3) : Ep0Arms :=
  { a with interface := v, lastArm := .configStream }

def setChild (a : Ep0Arms) (v : BitVec 5) : Ep0Arms :=
  { a with child := v, lastArm := .configStream }

/-! What each field reads after a write to another one of the stream. -/

variable (a : Ep0Arms) (p w : UInt16) (b : UInt8) (i : BitVec 3) (c : BitVec 5)

@[simp] theorem cursor_setCursor : (a.setCursor p).cursor = p :=
  u16le_low_high p
@[simp] theorem cursor_setRemaining : (a.setRemaining b).cursor = a.cursor := rfl
@[simp] theorem cursor_setRequestRemaining :
    (a.setRequestRemaining w).cursor = a.cursor := rfl
@[simp] theorem cursor_setTotalRemaining :
    (a.setTotalRemaining w).cursor = a.cursor := rfl
@[simp] theorem cursor_setInterface : (a.setInterface i).cursor = a.cursor := rfl
@[simp] theorem cursor_setChild : (a.setChild c).cursor = a.cursor := rfl

@[simp] theorem remaining_setCursor :
    (a.setCursor p).remaining = a.remaining := rfl
@[simp] theorem remaining_setRemaining : (a.setRemaining b).remaining = b := rfl
@[simp] theorem remaining_setRequestRemaining :
    (a.setRequestRemaining w).remaining = a.remaining := rfl
@[simp] theorem remaining_setTotalRemaining :
    (a.setTotalRemaining w).remaining = a.remaining := rfl
@[simp] theorem remaining_setInterface :
    (a.setInterface i).remaining = a.remaining := rfl
@[simp] theorem remaining_setChild : (a.setChild c).remaining = a.remaining := rfl

@[simp] theorem requestRemaining_setCursor :
    (a.setCursor p).requestRemaining = a.requestRemaining := rfl
@[simp] theorem requestRemaining_setRemaining :
    (a.setRemaining b).requestRemaining = a.requestRemaining := rfl
@[simp] theorem requestRemaining_setRequestRemaining :
    (a.setRequestRemaining w).requestRemaining = w := rfl
@[simp] theorem requestRemaining_setTotalRemaining :
    (a.setTotalRemaining w).requestRemaining = a.requestRemaining := rfl
@[simp] theorem requestRemaining_setInterface :
    (a.setInterface i).requestRemaining = a.requestRemaining := rfl
@[simp] theorem requestRemaining_setChild :
    (a.setChild c).requestRemaining = a.requestRemaining := rfl

@[simp] theorem totalRemaining_setCursor :
    (a.setCursor p).totalRemaining = a.totalRemaining := rfl
@[simp] theorem totalRemaining_setRemaining :
    (a.setRemaining b).totalRemaining = a.totalRemaining := rfl
@[simp] theorem totalRemaining_setRequestRemaining :
    (a.setRequestRemaining w).totalRemaining = a.totalRemaining := rfl
@[simp] theorem totalRemaining_setTotalRemaining :
    (a.setTotalRemaining w).totalRemaining = w := rfl
@[simp] theorem totalRemaining_setInterface :
    (a.setInterface i).totalRemaining = a.totalRemaining := rfl
@[simp] theorem totalRemaining_setChild :
    (a.setChild c).totalRemaining = a.totalRemaining := rfl

@[simp] theorem interface_setCursor :
    (a.setCursor p).interface = a.interface := rfl
@[simp] theorem interface_setRemaining :
    (a.setRemaining b).interface = a.interface := rfl
@[simp] theorem interface_setRequestRemaining :
    (a.setRequestRemaining w).interface = a.interface := rfl
@[simp] theorem interface_setTotalRemaining :
    (a.setTotalRemaining w).interface = a.interface := rfl
@[simp] theorem interface_setInterface : (a.setInterface i).interface = i := rfl
@[simp] theorem interface_setChild : (a.setChild c).interface = a.interface := rfl

@[simp] theorem child_setCursor : (a.setCursor p).child = a.child := rfl
@[simp] theorem child_setRemaining : (a.setRemaining b).child = a.child := rfl
@[simp] theorem child_setRequestRemaining :
    (a.setRequestRemaining w).child = a.child := rfl
@[simp] theorem child_setTotalRemaining :
    (a.setTotalRemaining w).child = a.child := rfl
@[simp] theorem child_setInterface : (a.setInterface i).child = a.child := rfl
@[simp] theorem child_setChild : (a.setChild c).child = c := rfl

end Ep0Arms

/-- Ghost events of the configuration stream, with the raw storage at each:
nothing in the model reads them. -/
inductive StreamEvent where
  | start (arms : Ep0Arms)
  /-- The fill loop copied `copySize` bytes behind the first `filledBytes`. -/
  | copy (arms : Ep0Arms) (filledBytes copySize : UInt8)
  /-- `move_to_next_descriptor` was called; its storage after, if it found a
  descriptor. -/
  | move (before : Ep0Arms) (after : Option Ep0Arms)

def usbEp0BufferAddress : Nat := 0x0000
def usbEp0BufferSize : Nat := 64

/-- The state of endpoint 0: `usb_ep0_ctx`, the registers and the memory. -/
structure Ep0 where
  state : UsbEp0State
  arms : Ep0Arms
  configuration : UInt8
  uep0Dma : UInt16
  uep0Ctrl : UInt8
  uep0TLen : UInt8
  usbDevAd : UInt8
  usbRxLen : UInt8
  p1_4 : Bool
  xram : Nat → UInt8
  fifo : UsbSetupFifo
  /-- Ghost: the stream's events since the last configuration request, newest
  first. -/
  trace : List StreamEvent

/-- What the library is linked with: program memory, the descriptor hooks,
which answer addresses in it (0 is `NULL`), and `USB_SETUP_FIFO_SIZE`. The
child hook gets the old value behind its `length` pointer and answers the new
one with the address. -/
structure Firmware where
  code : UInt16 → UInt8
  usbGetDeviceDescriptor : UInt16
  usbGetConfigurationDescriptor : UInt16
  usbGetInterfaceDescriptor : UInt8 → UInt16
  usbGetInterfaceChildDescriptor : UInt8 → UInt8 → UInt8 → UInt16 × UInt8
  usbSetupFifoSize : Nat

/-- `memcpy_code_to_xdata`: byte by byte, both pointers moving. -/
def memcpyCodeToXdata (code : UInt16 → UInt8) (xram : Nat → UInt8)
    (dest : Nat) (src : UInt16) : Nat → Nat → UInt8
  | 0 => xram
  | length + 1 =>
      memcpyCodeToXdata code (Function.update xram dest (code src)) (dest + 1)
        (src + 1) length

def Firmware.bytesAt (fw : Firmware) (p : UInt16) (i : Nat) : UInt8 :=
  fw.code (p + UInt16.ofNat i)

/-- What the hardware sends for an IN: `ep0_buffer[0 .. UEP0_T_LEN)`. -/
def Ep0.armed (s : Ep0) : List UInt8 :=
  slice s.xram usbEp0BufferAddress s.uep0TLen.toNat

def Ep0.tRes (s : Ep0) : UInt8 := s.uep0Ctrl &&& maskUepTRes

def Ep0.rRes (s : Ep0) : UInt8 := s.uep0Ctrl &&& maskUepRRes

/-- Whether an IN is sent as DATA1. -/
def Ep0.tTog (s : Ep0) : Bool := s.uep0Ctrl &&& bUepTTog ≠ 0

def Ep0.rTog (s : Ep0) : Bool := s.uep0Ctrl &&& bUepRTog ≠ 0

def usbEp0Stall (s : Ep0) : Ep0 :=
  { s with
    uep0TLen := 0
    uep0Ctrl := uepRResStall ||| uepTResStall
    p1_4 := true }

def usbEp0Reset (s : Ep0) : Ep0 :=
  { s with
    state := .init
    configuration := 0
    uep0Ctrl := uepRResAck ||| uepTResNak
    uep0TLen := 0
    usbDevAd := 0 }

def usbEp0Init (s : Ep0) : Ep0 :=
  usbEp0Reset { s with uep0Dma := UInt16.ofNat usbEp0BufferAddress }

/-- The copy is a block copy: it touches its destination range only and reads
its source range only. -/
theorem memcpyCodeToXdata_eq (fw : Firmware) (xram : Nat → UInt8) (dest : Nat)
    (src : UInt16) (length : Nat) :
    memcpyCodeToXdata fw.code xram dest src length =
      blit xram dest length (fw.bytesAt src) := by
  induction length generalizing xram dest src with
  | zero => rw [memcpyCodeToXdata, blit_zero]
  | succ n ih =>
      rw [memcpyCodeToXdata, ih]
      funext a
      rcases Nat.lt_trichotomy a dest with hlt | rfl | hgt
      · rw [blit_of_lt (by omega), blit_of_lt hlt,
          Function.update_of_ne (by omega)]
      · have hself : blit xram a (n + 1) (fw.bytesAt src) a = fw.bytesAt src 0 :=
          blit_inside (i := 0) (by omega)
        rw [blit_of_lt (by omega), Function.update_self, hself]
        exact (congrArg fw.code (UInt16.add_zero src)).symm
      · rcases Nat.lt_or_ge a (dest + (n + 1)) with hin | hout
        · obtain ⟨i, rfl⟩ : ∃ i, a = dest + 1 + i := ⟨a - (dest + 1), by omega⟩
          rw [blit_inside (by omega),
            show dest + 1 + i = dest + (i + 1) by omega,
            blit_inside (by omega), Firmware.bytesAt, Firmware.bytesAt,
            UInt16.ofNat_add, UInt16.add_assoc]
          congr 2
          exact UInt16.add_comm _ _
        · rw [blit_of_ge (by omega), blit_of_ge hout,
            Function.update_of_ne (by omega)]

end Ch552e.Ref
