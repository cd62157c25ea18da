import Ch552e.Ref.MainLoop

/-!
# The program on one memory

`MainLoop.lean` has the program with every queue in a memory of its own. On the
chip `ep0_buffer`, the SETUP queue, `rx_buffer` and `tx_buffer` are four places
in one xRAM. As in `Xram.lean` a step loads the objects from it and stores back
the one that it writes: the main program the queue or `tx_buffer`, the UART
interrupt `rx_buffer`. The USB interrupt works on the memory itself, since the
memory of the device is all of it, and pushes in between.
-/

namespace Ch552e.Ref

open Ch552e.Lib

/-! ## Endpoint 0 -/

/-- As `logSetup`, with the queue in the memory. -/
def logSetupOn (fw : Firmware) (p : UsbSetupPacket) (s : Ep0) : Ep0 :=
  { s with
    xram := storeFifo s.xram (usbSetupFifoPushIsr fw.usbSetupFifoSize
      (loadFifo s.xram) (UsbSetupFifoItem.view p)).2 }

def usbEp0HandlePacketOn (fw : Firmware) (token : UInt8) (s : Ep0) : Option Ep0 :=
  usbEp0HandlePacketWith (logSetupOn fw) fw token s

def ep0StepOn (fw : Firmware) (s : Ep0) : Ep0Event → Option Ep0
  | .packet token rxLen data =>
      usbEp0HandlePacketOn fw token (receive token rxLen data s)
  | .busReset => some (usbEp0Reset s)

/-! ## The program -/

/-- The memory, and the program, whose own copies of what is in the memory are
not looked at. -/
structure Chip where
  xram : Nat → UInt8
  prog : MainLoop

namespace Chip

def load (b : Chip) : MainLoop :=
  { b.prog with
    log := { b.prog.log with
      dev := { b.prog.log.dev with
        xram := b.xram
        fifo := loadFifo b.xram } }
    uart := { b.prog.uart with
      rx := { b.prog.uart.rx with
        rxBuffer := loadArray b.xram uart1RxBufferAddress }
      tx := { b.prog.uart.tx with
        txBuffer := loadArray b.xram uart1TxBufferAddress } } }

def storeLog (b : Chip) (s : MainLoop) : Chip where
  xram := storeFifo b.xram s.log.dev.fifo
  prog := s

def storeRx (b : Chip) (s : MainLoop) : Chip where
  xram := storeArray b.xram uart1RxBufferAddress s.uart.rx.rxBuffer
  prog := s

def storeTx (b : Chip) (s : MainLoop) : Chip where
  xram := storeArray b.xram uart1TxBufferAddress s.uart.tx.txBuffer
  prog := s

end Chip

/-- At `irq_enable`, whatever is in the memory. -/
def chipInit (xram : Nat → UInt8) (dev : Ep0) (setupPacket : UsbSetupFifoItem)
    (sbuf1 : UInt8) : Chip where
  xram := storeFifo xram (usbSetupFifoInit (loadFifo xram))
  prog := mainLoopInit dev setupPacket (loadArray xram uart1RxBufferAddress)
    (loadArray xram uart1TxBufferAddress) sbuf1

def chipStep (c : Build) (b : Chip) : MainLoopEvent → Option Chip
  | .main =>
      (mainLoop c b.load).map fun s =>
        if b.prog.uart.idle then b.storeLog s else b.storeTx s
  | .usb e =>
      (ep0StepOn c.fw b.load.log.dev e).map fun dev =>
        { xram := dev.xram
          prog := { b.prog with
            log := { b.prog.log with
              dev := dev
              accepted := b.load.log.accept c.fw e } } }
  | .uart => (mainLoopStep c b.load .uart).map b.storeRx
  | .sent => (mainLoopStep c b.load .sent).map fun s => { b with prog := s }
  | .arrived data =>
      (mainLoopStep c b.load (.arrived data)).map fun s => { b with prog := s }

end Ch552e.Ref
