import Ch552e.Lib.Flat
import Ch552e.Ref.SetupLog
import Ch552e.Ref.UartRx
import Ch552e.Ref.UartTx

/-!
# xRAM

The four objects in xRAM are put there by address (`__at`), each by its own
header: `ep0_buffer` and the SETUP queue, which the linker does not move, and
the two UART buffers at their default addresses. So far every model had its
buffer to itself. Here the machines share one memory: a step loads its buffer
from it, does what it did, and stores the buffer back (`boardStep`).

The structures of the queue have no padding on this target. A build chooses
three sizes, and the preprocessor checks them (`Build.Accepted`).
-/

namespace Ch552e.Ref

open Ch552e.Lib

/-- What is linked together, `USB_SETUP_FIFO_SIZE` in it, and the UART's buffer
sizes. -/
structure Build where
  fw : Firmware
  uart1RxBufsize : Nat
  uart1TxBufsize : Nat

/-- The `#if` checks of `usb_setup_fifo.h` and `uart1.h`; that there is no
array of no elements is C's own. -/
structure Build.Accepted (c : Build) : Prop where
  fifo : c.fw.usbSetupFifoSize &&& (c.fw.usbSetupFifoSize - 1) = 0
  fifo_pos : 0 < c.fw.usbSetupFifoSize
  rx : c.uart1RxBufsize &&& (c.uart1RxBufsize - 1) = 0
  rx_bounds : ¬ (c.uart1RxBufsize < 2 ∨ 255 < c.uart1RxBufsize)
  tx : c.uart1TxBufsize &&& (c.uart1TxBufsize - 1) = 0
  tx_bounds : ¬ (c.uart1TxBufsize < 2 ∨ 255 < c.uart1TxBufsize)

/-! ## The objects -/

def usbSetupFifoAddress : Nat := 0x0040
def uart1RxBufferAddress : Nat := 0x0100
def uart1TxBufferAddress : Nat := 0x0120

/-- `sizeof (usb_setup_fifo_item_t)`. -/
def usbSetupFifoItemSize : Nat := 8

inductive XramBuffer where
  | ep0Buffer
  | fifo
  | rxBuffer
  | txBuffer
deriving DecidableEq

/-- Where an object is, and its size: of the queue, two indices and the
entries. -/
def Build.region (c : Build) : XramBuffer → Region
  | .ep0Buffer => ⟨usbEp0BufferAddress, usbEp0BufferSize⟩
  | .fifo =>
      ⟨usbSetupFifoAddress, 2 + usbSetupFifoItemSize * c.fw.usbSetupFifoSize⟩
  | .rxBuffer => ⟨uart1RxBufferAddress, c.uart1RxBufsize⟩
  | .txBuffer => ⟨uart1TxBufferAddress, c.uart1TxBufsize⟩

/-- The bytes of an entry, as the structure lays them out. -/
def UsbSetupFifoItem.toBytes (x : UsbSetupFifoItem) (i : Nat) : UInt8 :=
  [x.bmRequestType, x.bRequest, lowByte x.wValue, highByte x.wValue,
    lowByte x.wIndex, highByte x.wIndex, lowByte x.wLength,
    highByte x.wLength].getD i 0

def entriesAddress : Nat := usbSetupFifoAddress + 2

def loadFifo (xram : Nat → UInt8) : UsbSetupFifo where
  head := xram usbSetupFifoAddress
  tail := xram (usbSetupFifoAddress + 1)
  entries i := UsbSetupFifoItem.view
    ⟨fun k => xram (entriesAddress + usbSetupFifoItemSize * i + k)⟩

def storeFifo (xram : Nat → UInt8) (fifo : UsbSetupFifo) : Nat → UInt8 :=
  let xram := Function.update xram usbSetupFifoAddress fifo.head
  let xram := Function.update xram (usbSetupFifoAddress + 1) fifo.tail
  storeArray xram entriesAddress fun a =>
    (fifo.entries (a / usbSetupFifoItemSize)).toBytes (a % usbSetupFifoItemSize)

/-! ## The machines on one memory -/

/-- The memory, and the three machines, whose own copies of the buffers are
not looked at. -/
structure Board where
  xram : Nat → UInt8
  log : SetupLog
  rx : UartRx
  tx : UartTx

/-- After `usb_setup_fifo_init`, whatever is in the memory. -/
def boardInit (xram : Nat → UInt8) (dev : Ep0) (item : UsbSetupFifoItem) :
    Board where
  xram := storeFifo xram (usbSetupFifoInit (loadFifo xram))
  log := setupLogInit dev item
  rx := uartRxInit (loadArray xram uart1RxBufferAddress)
  tx := uartTxInit (loadArray xram uart1TxBufferAddress)

namespace Board

def loadLog (b : Board) : SetupLog :=
  { b.log with dev := { b.log.dev with fifo := loadFifo b.xram } }

def storeLog (b : Board) (log : SetupLog) : Board :=
  { b with xram := storeFifo b.xram log.dev.fifo, log := log }

def loadRx (b : Board) : UartRx :=
  { b.rx with rxBuffer := loadArray b.xram uart1RxBufferAddress }

def storeRx (b : Board) (rx : UartRx) : Board :=
  { b with
    xram := storeArray b.xram uart1RxBufferAddress rx.rxBuffer
    rx := rx }

def loadTx (b : Board) : UartTx :=
  { b.tx with txBuffer := loadArray b.xram uart1TxBufferAddress }

def storeTx (b : Board) (tx : UartTx) : Board :=
  { b with
    xram := storeArray b.xram uart1TxBufferAddress tx.txBuffer
    tx := tx }

end Board

inductive BoardEvent where
  /-- A packet is written to `ep0_buffer`, by the hardware or by a handler. -/
  | ep0Write (length : Nat) (data : Nat → UInt8)
  /-- `usb_setup_fifo_push_isr`. -/
  | push (packet : UsbSetupFifoItem)
  /-- `usb_setup_fifo_pop` is called. -/
  | pop
  /-- The next access of `usb_setup_fifo_pop`. -/
  | popMain
  | rx (e : UartRxEvent)
  | tx (e : UartTxEvent)

/-- The object an event works on. -/
def BoardEvent.buffer : BoardEvent → XramBuffer
  | .ep0Write _ _ => .ep0Buffer
  | .push _ | .pop | .popMain => .fifo
  | .rx _ => .rxBuffer
  | .tx _ => .txBuffer

/-- One event. The main program of each of the three goes on by itself here,
which allows more orders than one main program has. -/
def boardStep (c : Build) (b : Board) : BoardEvent → Option Board
  | .ep0Write length data =>
      if length ≤ usbEp0BufferSize then
        some { b with xram := blit b.xram usbEp0BufferAddress length data }
      else none
  | .push packet =>
      some { b with
        xram := storeFifo b.xram (usbSetupFifoPushIsr c.fw.usbSetupFifoSize
          (loadFifo b.xram) packet).2 }
  | .pop => (setupLogStep c.fw b.loadLog .pop).map b.storeLog
  | .popMain => (setupLogStep c.fw b.loadLog .main).map b.storeLog
  | .rx e => (uartRxStep c.uart1RxBufsize b.loadRx e).map b.storeRx
  | .tx e => (uartTxStep c.uart1TxBufsize b.loadTx e).map b.storeTx

end Ch552e.Ref
