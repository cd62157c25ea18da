import Ch552e.Ref.SetupLog
import Ch552e.Ref.Uart
import Ch552e.Ref.Xram

/-!
# The main program

`main` of `main.c` from its `irq_enable` on: it prints a greeting, and then for
ever takes SETUP packets off the log and prints each as a line of text. The USB
and the UART interrupt come between any two of its accesses.

`calls` is what the main program has still to print before it looks at the log
again. `setup_packet` is a variable of its own that no interrupt touches, so the
calls are made up when the pop returns.
-/

namespace Ch552e.Ref

open Ch552e.Lib

def ascii (s : String) : List UInt8 := s.toList.map fun c => UInt8.ofNat c.toNat

def greetingCalls : List UartCall := [.uartPrint (ascii "Initialized.\r\n")]

/-- The body of the inner loop of `main`. -/
def reportCalls (setupPacket : UsbSetupFifoItem) : List UartCall :=
  [.uartPrint (ascii "SETUP bmRequestType:0x"),
    .uartPrintHex setupPacket.bmRequestType,
    .uartPrint (ascii " bRequest:0x"),
    .uartPrintHex setupPacket.bRequest,
    .uartPrint (ascii " wValue:0x"),
    .uartPrintHex (setupPacket.wValue >>> 8).toUInt8,
    .uartPrintHex setupPacket.wValue.toUInt8,
    .uartPrint (ascii " wIndex:0x"),
    .uartPrintHex (setupPacket.wIndex >>> 8).toUInt8,
    .uartPrintHex setupPacket.wIndex.toUInt8,
    .uartPrint (ascii " wLength:0x"),
    .uartPrintHex (setupPacket.wLength >>> 8).toUInt8,
    .uartPrintHex setupPacket.wLength.toUInt8,
    .uartPrint (ascii "\r\n")]

structure MainLoop where
  log : SetupLog
  uart : Uart
  calls : List UartCall

/-- At `irq_enable`, with endpoint 0 as `usb_init` leaves it. -/
def mainLoopInit (dev : Ep0) (setupPacket : UsbSetupFifoItem)
    (rxBuffer txBuffer : Nat → UInt8) (sbuf1 : UInt8) : MainLoop where
  log := setupLogInit (usbEp0Init dev) setupPacket
  uart := uartInit rxBuffer txBuffer sbuf1
  calls := greetingCalls

/-- What follows an access of `usb_setup_fifo_pop`: if it is the last one of a
pop that returns true, a packet to print. -/
def afterPop (pc : PopPc) (setupPacket : UsbSetupFifoItem) : List UartCall :=
  match pc with
  | .storeTail _ => reportCalls setupPacket
  | .outside | .readTail | .readHead _ | .copy _ _ => []

/-- The next access of the main program. -/
def mainLoop (c : Build) (s : MainLoop) : Option MainLoop :=
  if s.uart.idle then
    match s.calls with
    | call :: calls =>
        (uartStep c.uart1RxBufsize c.uart1TxBufsize s.uart (.call call)).map
          fun uart => { s with uart := uart, calls := calls }
    | [] =>
        match s.log.pc with
        | .outside =>
            (setupLogStep c.fw s.log .pop).map fun log => { s with log := log }
        | .readTail | .readHead _ | .copy _ _ | .storeTail _ =>
            (setupLogStep c.fw s.log .main).map fun log =>
              { s with log := log, calls := afterPop s.log.pc s.log.item }
  else
    (uartStep c.uart1RxBufsize c.uart1TxBufsize s.uart .main).map
      fun uart => { s with uart := uart }

inductive MainLoopEvent where
  | main
  /-- The USB interrupt, for one event of endpoint 0. -/
  | usb (e : Ep0Event)
  /-- The UART interrupt. -/
  | uart
  | sent
  | arrived (data : UInt8)

def mainLoopStep (c : Build) (s : MainLoop) : MainLoopEvent → Option MainLoop
  | .main => mainLoop c s
  | .usb e => (setupLogStep c.fw s.log (.isr e)).map fun log => { s with log := log }
  | .uart =>
      (uartStep c.uart1RxBufsize c.uart1TxBufsize s.uart .isr).map
        fun uart => { s with uart := uart }
  | .sent =>
      (uartStep c.uart1RxBufsize c.uart1TxBufsize s.uart .sent).map
        fun uart => { s with uart := uart }
  | .arrived data =>
      (uartStep c.uart1RxBufsize c.uart1TxBufsize s.uart (.arrived data)).map
        fun uart => { s with uart := uart }

end Ch552e.Ref
