import Ch552e.Ref.Handlers

/-!
# The SETUP log between the interrupt and the main loop

The two sides of the SETUP queue put together. The USB interrupt handles a
packet, the push included, between any two accesses of the main loop's
`usb_setup_fifo_pop`, which reads the tail, reads the head, assigns the entry
member by member and stores the tail.
-/

namespace Ch552e.Ref

open Ch552e.Lib

/-- The device, the main loop in or out of `usb_setup_fifo_pop`, and the entry
it copies into. -/
structure SetupLog where
  dev : Ep0
  pc : PopPc
  item : UsbSetupFifoItem
  /-- Ghost: the packets whose push returned true. -/
  accepted : List UsbSetupPacket
  /-- Ghost: what the pops that returned true have returned. -/
  popped : List UsbSetupFifoItem

/-- After `usb_setup_fifo_init`, whatever the entries. -/
def setupLogInit (dev : Ep0) (item : UsbSetupFifoItem) : SetupLog where
  dev := { dev with fifo := usbSetupFifoInit dev.fifo }
  pc := .outside
  item := item
  accepted := []
  popped := []

def Ep0Event.logged : Ep0Event → Option UsbSetupPacket
  | .packet token rxLen data =>
      if token = uisTokenSetup ∧ rxLen = 8 then some (.ofData data) else none
  | .busReset => none

def SetupLog.accept (fw : Firmware) (s : SetupLog) (e : Ep0Event) :
    List UsbSetupPacket :=
  match e.logged with
  | some p =>
      if (usbSetupFifoPushIsr fw.usbSetupFifoSize s.dev.fifo
        (UsbSetupFifoItem.view p)).1 then s.accepted ++ [p]
      else s.accepted
  | none => s.accepted

/-- The next access of `usb_setup_fifo_pop`. -/
def popMain (fw : Firmware) (s : SetupLog) : Option SetupLog :=
  match s.pc with
  | .outside => none
  | .readTail => some { s with pc := .readHead s.dev.fifo.tail }
  | .readHead tail =>
      -- empty: the pop returns false
      if tail = s.dev.fifo.head then some { s with pc := .outside }
      else some { s with pc := .copy tail 0 }
  | .copy tail field =>
      some { s with
        item := UsbSetupFifoItem.copyField (s.dev.fifo.entries tail.toNat) s.item
          field
        pc :=
          if h : field.val + 1 < 5 then .copy tail ⟨field.val + 1, h⟩
          else .storeTail tail }
  | .storeTail tail =>
      some { s with
        dev := { s.dev with
          fifo := { s.dev.fifo with tail := ringNext fw.usbSetupFifoSize tail } }
        pc := .outside
        popped := s.popped ++ [s.item] }

inductive SetupLogEvent where
  | pop
  | main
  | isr (e : Ep0Event)

def setupLogStep (fw : Firmware) (s : SetupLog) : SetupLogEvent → Option SetupLog
  | .pop =>
      match s.pc with
      | .outside => some { s with pc := .readTail }
      | .readTail | .readHead _ | .copy _ _ | .storeTail _ => none
  | .main => popMain fw s
  | .isr e =>
      (ep0Step fw s.dev e).map fun dev =>
        { s with dev := dev, accepted := s.accept fw e }

end Ch552e.Ref
