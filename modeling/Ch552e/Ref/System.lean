import Ch552e.Ref.MainLoop
import Ch552e.Ref.Usb

/-!
# The program and the bus

The main program and the UART interrupt of `MainLoop.lean` next to the USB
interrupt of `Usb.lean`, which goes on access by access, on one endpoint 0. The
bus and the line do what they like at any time. Neither `IP` nor `IP_EX` is
written, so no interrupt breaks into another: as long as the USB interrupt is in
its routine, the main program stands still and the UART interrupt has to wait.
-/

namespace Ch552e.Ref

structure System where
  usb : Usb
  prog : MainLoop
  /-- There is one endpoint 0, and the SETUP queue is in it. -/
  shared : prog.log.dev = usb.dev

namespace System

def accept (fw : Firmware) (s : System) (e : UsbEvent) : List UsbSetupPacket :=
  match s.usb.handled e with
  | some f => s.prog.log.accept fw f
  | none => s.prog.log.accepted

def withProg (s : System) (prog : MainLoop) : System where
  usb := { s.usb with dev := prog.log.dev }
  prog := prog
  shared := rfl

def withUsb (s : System) (usb : Usb) (accepted : List UsbSetupPacket) :
    System where
  usb := usb
  prog := { s.prog with
    log := { s.prog.log with dev := usb.dev, accepted := accepted } }
  shared := rfl

end System

/-- `main` up to `irq_enable`: `usb_setup_fifo_init`, then `usb_init`. -/
def systemStart (usb : Usb) (setupPacket : UsbSetupFifoItem)
    (rxBuffer txBuffer : Nat → UInt8) (sbuf1 : UInt8) : System where
  usb := usbStart { usb with
    dev := { usb.dev with fifo := usbSetupFifoInit usb.dev.fifo } }
  prog := mainLoopInit usb.dev setupPacket rxBuffer txBuffer sbuf1
  shared := rfl

inductive SystemEvent where
  | main
  /-- The UART interrupt. -/
  | uart
  | sent
  | arrived (data : UInt8)
  | usb (e : UsbEvent)

def systemStep (c : Build) (s : System) : SystemEvent → Option System
  | .main =>
      if s.usb.serving then none else (mainLoopStep c s.prog .main).map s.withProg
  | .uart =>
      if s.usb.serving then none else (mainLoopStep c s.prog .uart).map s.withProg
  | .sent => (mainLoopStep c s.prog .sent).map s.withProg
  | .arrived data => (mainLoopStep c s.prog (.arrived data)).map s.withProg
  | .usb e => (usbStep c.fw s.usb e).map fun usb => s.withUsb usb (s.accept c.fw e)

end Ch552e.Ref
