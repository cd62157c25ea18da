import Ch552e.Lib.Bytes
import Mathlib.Logic.Function.Basic

/-!
# SETUP packets and the SETUP log queue

`usb_setup_packet_t` (`ep0/internal.h`) and `usb_setup_fifo_item_t`
(`usb_setup_fifo.h`) are two struct types over the same eight bytes: the
interrupt handler fills one and passes its address where the queue expects the
other. Neither has padding on this target, so both are views of the bytes.

The queue is `setup_fifo.c`. Its push runs inside the interrupt and is one
function here; its pop runs in the main loop, where the interrupt can come
between any two accesses, and is a program counter (`PopPc`) that
`SetupLog.lean` steps.
-/

namespace Ch552e.Ref

open Ch552e.Lib

/-- `usb_setup_packet_t`: the eight bytes of a SETUP transaction. -/
structure UsbSetupPacket where
  bytes : Fin 8 → UInt8

namespace UsbSetupPacket

def bmRequestType (p : UsbSetupPacket) : UInt8 := p.bytes 0
def bRequest (p : UsbSetupPacket) : UInt8 := p.bytes 1
def wValueL (p : UsbSetupPacket) : UInt8 := p.bytes 2
def wValueH (p : UsbSetupPacket) : UInt8 := p.bytes 3

/-- `wValue.raw`, the union's other view of `wValue.l` and `wValue.h`. -/
def wValue (p : UsbSetupPacket) : UInt16 := u16le p.wValueL p.wValueH
def wIndex (p : UsbSetupPacket) : UInt16 := u16le (p.bytes 4) (p.bytes 5)
def wLength (p : UsbSetupPacket) : UInt16 := u16le (p.bytes 6) (p.bytes 7)

end UsbSetupPacket

structure UsbSetupFifoItem where
  bmRequestType : UInt8
  bRequest : UInt8
  wValue : UInt16
  wIndex : UInt16
  wLength : UInt16
deriving DecidableEq

namespace UsbSetupFifoItem

/-- The bytes of a packet read through the queue's struct type: one byte, one
byte, three words. -/
def view (p : UsbSetupPacket) : UsbSetupFifoItem where
  bmRequestType := p.bytes 0
  bRequest := p.bytes 1
  wValue := u16le (p.bytes 2) (p.bytes 3)
  wIndex := u16le (p.bytes 4) (p.bytes 5)
  wLength := u16le (p.bytes 6) (p.bytes 7)

/-- `dst` after its member number `k` is assigned from `src`. -/
def copyField (src dst : UsbSetupFifoItem) : Fin 5 → UsbSetupFifoItem
  | 0 => { dst with bmRequestType := src.bmRequestType }
  | 1 => { dst with bRequest := src.bRequest }
  | 2 => { dst with wValue := src.wValue }
  | 3 => { dst with wIndex := src.wIndex }
  | 4 => { dst with wLength := src.wLength }

end UsbSetupFifoItem

theorem view_eq (p : UsbSetupPacket) :
    UsbSetupFifoItem.view p =
      ⟨p.bmRequestType, p.bRequest, p.wValue, p.wIndex, p.wLength⟩ := rfl

/-- An entry is the bytes of its packet, the words low byte first, and reads
as the request handler reads the packet. -/
def Decodes (x : UsbSetupFifoItem) (p : UsbSetupPacket) : Prop :=
  x.bmRequestType = p.bytes 0 ∧ x.bRequest = p.bytes 1 ∧
    x.wValue.toNat = (p.bytes 2).toNat + 256 * (p.bytes 3).toNat ∧
    x.wIndex.toNat = (p.bytes 4).toNat + 256 * (p.bytes 5).toNat ∧
    x.wLength.toNat = (p.bytes 6).toNat + 256 * (p.bytes 7).toNat ∧
    x = ⟨p.bmRequestType, p.bRequest, p.wValue, p.wIndex, p.wLength⟩

theorem decodes_view (p : UsbSetupPacket) : Decodes (UsbSetupFifoItem.view p) p :=
  ⟨rfl, rfl, toNat_u16le _ _, toNat_u16le _ _, toNat_u16le _ _, view_eq p⟩

/-! ## The queue -/

/-- `(i + 1) & (size - 1)`: computed in `int`, stored in a `uint8_t`. -/
def ringNext (size : Nat) (i : UInt8) : UInt8 :=
  UInt8.ofNat ((i.toNat + 1) &&& (size - 1))

/-- For a power of two that fits the index type the mask is the wrap. -/
theorem toNat_ringNext {k : Nat} (hk : k ≤ 8) (i : UInt8) :
    (ringNext (2 ^ k) i).toNat = (i.toNat + 1) % 2 ^ k := by
  have hpos : 0 < 2 ^ k := Nat.two_pow_pos k
  have hle : 2 ^ k ≤ 2 ^ 8 := Nat.pow_le_pow_right (by omega) hk
  have hlt : (i.toNat + 1) % 2 ^ k < 2 ^ k := Nat.mod_lt _ hpos
  rw [ringNext, Nat.and_two_pow_sub_one_eq_mod, UInt8.toNat_ofNat']
  exact Nat.mod_eq_of_lt (by omega)

structure UsbSetupFifo where
  head : UInt8
  tail : UInt8
  entries : Nat → UsbSetupFifoItem

def usbSetupFifoInit (fifo : UsbSetupFifo) : UsbSetupFifo :=
  { fifo with head := 0, tail := 0 }

/-- `usb_setup_fifo_push_isr`: whether the entry was taken, and the queue
after. -/
def usbSetupFifoPushIsr (size : Nat) (fifo : UsbSetupFifo)
    (packet : UsbSetupFifoItem) : Bool × UsbSetupFifo :=
  let head := fifo.head
  let nextHead := ringNext size head
  if nextHead = fifo.tail then
    (false, fifo)
  else
    (true, { fifo with
      entries := Function.update fifo.entries head.toNat packet
      head := nextHead })

/-- Where the main loop is in `usb_setup_fifo_pop`, with the locals it has
read so far. -/
inductive PopPc where
  | outside
  | readTail
  | readHead (tail : UInt8)
  | copy (tail : UInt8) (field : Fin 5)
  | storeTail (tail : UInt8)

end Ch552e.Ref
