import Ch552e.Ref.Chip
import Ch552e.Ref.System

/-!
# The program and the bus on one memory

`System.lean` on the memory of `Chip.lean`: a transaction lands in `ep0_buffer`,
and until its handler runs the main program and the UART interrupt store to their
own places in the same memory. Of the USB interrupt only the handler of a packet
comes near the queue.
-/

namespace Ch552e.Ref

open Ch552e.Lib

def usbIsrTransferOn (fw : Firmware) (irq : UsbIrq) (s : Ep0) : Option Ep0 :=
  usbIsrTransferWith (usbEp0HandlePacketOn fw) irq s

def usbStepOn (fw : Firmware) (s : Usb) (e : UsbEvent) : Option Usb :=
  match e, s.pc with
  | .access, .handlePacket status =>
      (usbIsrTransferOn fw { s.irq with usbIntSt := status } s.dev).map fun dev =>
        { s with dev := dev, pc := .clearTransfer }
  | _, _ => usbStep fw s e

/-- The memory is that of endpoint 0, and the program's own copies are not looked
at. -/
structure Device where
  usb : Usb
  prog : MainLoop

namespace Device

def chip (b : Device) : Chip where
  xram := b.usb.dev.xram
  prog := { b.prog with log := { b.prog.log with dev := b.usb.dev } }

def load (b : Device) : System where
  usb := { b.usb with dev := b.chip.load.log.dev }
  prog := b.chip.load
  shared := rfl

def withChip (b : Device) (chip : Chip) : Device where
  usb := { b.usb with dev := { b.usb.dev with xram := chip.xram } }
  prog := chip.prog

def withUsb (b : Device) (usb : Usb) (accepted : List UsbSetupPacket) :
    Device where
  usb := usb
  prog := { b.prog with log := { b.prog.log with accepted := accepted } }

end Device

/-- At `irq_enable`, whatever is in the memory. -/
def deviceStart (usb : Usb) (setupPacket : UsbSetupFifoItem) (sbuf1 : UInt8) :
    Device where
  usb := usbStart { usb with
    dev := { usb.dev with
      xram := storeFifo usb.dev.xram
        (usbSetupFifoInit (loadFifo usb.dev.xram)) } }
  prog := mainLoopInit usb.dev setupPacket
    (loadArray usb.dev.xram uart1RxBufferAddress)
    (loadArray usb.dev.xram uart1TxBufferAddress) sbuf1

def deviceStep (c : Build) (b : Device) : SystemEvent → Option Device
  | .main =>
      if b.usb.serving then none else (chipStep c b.chip .main).map b.withChip
  | .uart =>
      if b.usb.serving then none else (chipStep c b.chip .uart).map b.withChip
  | .sent => (chipStep c b.chip .sent).map b.withChip
  | .arrived data => (chipStep c b.chip (.arrived data)).map b.withChip
  | .usb e =>
      (usbStepOn c.fw b.load.usb e).map fun usb =>
        b.withUsb usb (b.load.accept c.fw e)

end Ch552e.Ref
