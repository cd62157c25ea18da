import Ch552e.Lib.Run
import Ch552e.Ref.SetupFifo

/-!
# UART reception

`uart_read` and `uart_available` of `uart1.c`, and the receive branch of the
interrupt in `uart1/isr.c`. The roles of the two indices are the other way
round than in the transmit ring: the interrupt fills the cell at `rx_tail`, the
main program reads the cell at `rx_head`.

As in `UartTx.lean` the interrupt comes between any two accesses of the main
program, so its two functions are a program counter (`ReadPc`), one access to
`rx_head`, `rx_tail` or `rx_buffer` a step. C leaves the order of the two reads
in a comparison open; only the main program writes `rx_head`, so it does not
matter that here the head comes first.
-/

namespace Ch552e.Ref

open Ch552e.Lib

/-- Where the main program is in `uart_read` or `uart_available`: the access it
is about to make, with what it has read so far. -/
inductive ReadPc where
  | outside
  | spinHead
  /-- About to compare `rx_head` with `rx_tail`, in the waiting loop. -/
  | spinTail (head : UInt8)
  | readIndex
  | readByte (index : UInt8)
  | readHeadAgain (data : UInt8)
  | storeHead (data head : UInt8)
  | availableHead
  | availableTail (head : UInt8)
deriving DecidableEq

/-- The receive half of `uart1_ctx_t` with its buffer, and the main program. -/
structure UartRx where
  rxHead : UInt8
  rxTail : UInt8
  rxBuffer : Nat → UInt8
  pc : ReadPc
  /-- Ghost: the received bytes that were stored in the ring. -/
  accepted : List UInt8
  /-- Ghost: the bytes `uart_read` has returned. -/
  returned : List UInt8
  /-- Ghost: `uart_available` has returned true, and no `uart_read` has returned
  since. -/
  available : Bool
  /-- Ghost: how often the current `uart_read` found the ring empty. -/
  spins : Nat

/-- The context as it is initialised; the buffer is not. -/
def uartRxInit (rxBuffer : Nat → UInt8) : UartRx where
  rxHead := 0
  rxTail := 0
  rxBuffer := rxBuffer
  pc := .outside
  accepted := []
  returned := []
  available := false
  spins := 0

/-- The receive branch of `ISR(INT_NO_UART1)` with `data` in `SBUF1`: whether
the byte was stored, and the state after. -/
def uartIsrReceive (size : Nat) (s : UartRx) (data : UInt8) : Bool × UartRx :=
  let nextTail := ringNext size s.rxTail
  -- a full buffer drops the byte
  if nextTail = s.rxHead then
    (false, s)
  else
    (true, { s with
      rxBuffer := Function.update s.rxBuffer s.rxTail.toNat data
      rxTail := nextTail
      accepted := s.accepted ++ [data] })

/-- The next access of the main program; `none` where it is in neither
function. -/
def uartReadMain (size : Nat) (s : UartRx) : Option UartRx :=
  match s.pc with
  | .outside => none
  | .spinHead => some { s with pc := .spinTail s.rxHead }
  | .spinTail head =>
      if head = s.rxTail then
        some { s with pc := .spinHead, spins := s.spins + 1 }
      else
        some { s with pc := .readIndex }
  | .readIndex => some { s with pc := .readByte s.rxHead }
  | .readByte index => some { s with pc := .readHeadAgain (s.rxBuffer index.toNat) }
  | .readHeadAgain data => some { s with pc := .storeHead data s.rxHead }
  | .storeHead data head =>
      some { s with
        rxHead := ringNext size head
        pc := .outside
        returned := s.returned ++ [data]
        available := false
        spins := 0 }
  | .availableHead => some { s with pc := .availableTail s.rxHead }
  | .availableTail head =>
      some { s with
        pc := .outside
        available := s.available || head ≠ s.rxTail }

inductive UartRxEvent where
  /-- `uart_read` is called. -/
  | read
  /-- `uart_available` is called. -/
  | available
  | main
  /-- The interrupt is serviced with a byte received. -/
  | received (data : UInt8)

def uartRxStep (size : Nat) (s : UartRx) : UartRxEvent → Option UartRx
  | .read => if s.pc = .outside then some { s with pc := .spinHead } else none
  | .available =>
      if s.pc = .outside then some { s with pc := .availableHead } else none
  | .main => uartReadMain size s
  | .received data => some (uartIsrReceive size s data).2

end Ch552e.Ref
