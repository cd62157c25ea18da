import Ch552e.Ref.UartRx
import Ch552e.Ref.UartTx

/-!
# The UART

Both halves of `uart1_ctx_t`, one main program that is in one function of
`uart1.c` at a time, and the whole of `ISR(INT_NO_UART1)`, which serves what was
received and what was sent in one run.

The receiver is a register and a flag. A byte that comes in is put in the
register and raises `U1RI`; one that comes in before the interrupt has looked
takes the place of the one before it.
-/

namespace Ch552e.Ref

open Ch552e.Lib

structure Uart where
  rx : UartRx
  tx : UartTx
  u1ri : Bool
  /-- What a read of `SBUF1` gets. -/
  sbuf1 : UInt8
  /-- Ghost: the bytes that came in. -/
  arrived : List UInt8

def uartInit (rxBuffer txBuffer : Nat → UInt8) (sbuf1 : UInt8) : Uart where
  rx := uartRxInit rxBuffer
  tx := uartTxInit txBuffer
  u1ri := false
  sbuf1 := sbuf1
  arrived := []

/-- `ISR(INT_NO_UART1)`, in one step: no byte comes in, and none is sent, between its
first access and its last. A byte that came in between the read of `SBUF1` and
`U1RI = 0` would have its flag cleared with that of the one before it. -/
def uartIsr (rxSize txSize : Nat) (u : Uart) : Uart :=
  let u :=
    if u.u1ri then
      { u with
        rx := (uartIsrReceive rxSize u.rx u.sbuf1).2
        u1ri := false }
    else u
  if u.tx.u1ti then { u with tx := uartIsrTransmit txSize u.tx } else u

/-- The main program is in none of the functions. -/
def Uart.idle (u : Uart) : Bool :=
  u.rx.pc = .outside && u.tx.pc = .outside && u.tx.pending.isEmpty

/-- The next access of the main program, in the function it is in. -/
def uartMainStep (rxSize txSize : Nat) (u : Uart) : Option Uart :=
  if u.rx.pc = .outside then
    (uartTxStep txSize u.tx .main).map fun tx => { u with tx := tx }
  else
    (uartRxStep rxSize u.rx .main).map fun rx => { u with rx := rx }

inductive UartEvent where
  | call (c : UartCall)
  /-- `uart_read` is called. -/
  | read
  /-- `uart_available` is called. -/
  | available
  | main
  | sent
  | arrived (data : UInt8)
  | isr

def uartStep (rxSize txSize : Nat) (u : Uart) : UartEvent → Option Uart
  | .call c =>
      if u.idle then
        (uartTxStep txSize u.tx (.call c)).map fun tx => { u with tx := tx }
      else none
  | .read =>
      if u.idle then
        (uartRxStep rxSize u.rx .read).map fun rx => { u with rx := rx }
      else none
  | .available =>
      if u.idle then
        (uartRxStep rxSize u.rx .available).map fun rx => { u with rx := rx }
      else none
  | .main => uartMainStep rxSize txSize u
  | .sent => (uartTxStep txSize u.tx .sent).map fun tx => { u with tx := tx }
  | .arrived data =>
      some { u with
        sbuf1 := data
        u1ri := true
        arrived := u.arrived ++ [data] }
  | .isr =>
      if u.u1ri || u.tx.u1ti then some (uartIsr rxSize txSize u) else none

end Ch552e.Ref
