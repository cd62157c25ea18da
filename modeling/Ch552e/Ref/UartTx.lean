import Ch552e.Lib.Run
import Ch552e.Ref.SetupFifo

/-!
# UART transmission

`uart_write`, `uart_print` and `uart_print_hex` of `uart1.c`, and the transmit
branch of the interrupt in `uart1/isr.c`.

The interrupt can come between any two accesses of the main program to what the
two share, so `uart_write` is a program counter (`WritePc`), and one access to
`tx_head`, `tx_tail`, `tx_busy`, `tx_buffer` or `SBUF1` is one step. What a
read fetched is carried in the program counter.

The transmitter is two flags. A byte stored in `SBUF1` is in flight; some time
later it has been sent, which raises `U1TI`, and while `U1TI` is up the
interrupt can be serviced.
-/

namespace Ch552e.Ref

open Ch552e.Lib

/-- Where the main program is in `uart_write`: the access it is about to make,
with what it has read so far. -/
inductive WritePc where
  | outside
  | readHead (data : UInt8)
  /-- About to compare `next_head` with `tx_tail`, in the waiting loop. -/
  | waitRoom (data nextHead : UInt8)
  | readIndex (data nextHead : UInt8)
  | storeByte (data nextHead index : UInt8)
  | storeHead (nextHead : UInt8)
  | testBusy
  | setBusy
  | readTail
  | readByte (tail : UInt8)
  | storeSbuf1 (byte : UInt8)
  | readTailAgain
  | storeTail (tail : UInt8)
deriving DecidableEq

/-- The transmit half of `uart1_ctx_t` with its buffer, the transmitter, and
the main program. -/
structure UartTx where
  txBusy : Bool
  txHead : UInt8
  txTail : UInt8
  txBuffer : Nat → UInt8
  inFlight : Bool
  u1ti : Bool
  pc : WritePc
  /-- The bytes the current call has still to pass to `uart_write`. -/
  pending : List UInt8
  /-- Ghost: the bytes passed to `uart_write`. -/
  written : List UInt8
  /-- Ghost: the bytes stored in `SBUF1`. -/
  stored : List UInt8
  /-- Ghost: how often `tx_head` and `tx_tail` were moved on. -/
  heads : Nat
  tails : Nat

/-- The context as it is initialised; the buffer is not. -/
def uartTxInit (txBuffer : Nat → UInt8) : UartTx where
  txBusy := false
  txHead := 0
  txTail := 0
  txBuffer := txBuffer
  inFlight := false
  u1ti := false
  pc := .outside
  pending := []
  written := []
  stored := []
  heads := 0
  tails := 0

/-! ## The calls -/

def hexLiteral : List UInt8 :=
  [0x30, 0x31, 0x32, 0x33, 0x34, 0x35, 0x36, 0x37,
    0x38, 0x39, 0x41, 0x42, 0x43, 0x44, 0x45, 0x46]

inductive UartCall where
  | uartWrite (data : UInt8)
  | uartPrint (str : List UInt8)
  | uartPrintHex (value : UInt8)

/-- The bytes a call passes to `uart_write`, one after the other. -/
def UartCall.bytes : UartCall → List UInt8
  | .uartWrite data => [data]
  | .uartPrint str => str.takeWhile fun c => c ≠ 0
  | .uartPrintHex value =>
      [hexLiteral.getD (value >>> 4).toNat 0,
        hexLiteral.getD (value &&& 0b1111).toNat 0]

/-! ## The steps -/

/-- `SBUF1 = b`. -/
def UartTx.storeSbuf1 (s : UartTx) (b : UInt8) : UartTx :=
  { s with
    stored := s.stored ++ [b]
    inFlight := true }

/-- The transmit branch of `ISR(INT_NO_UART1)`. -/
def uartIsrTransmit (size : Nat) (s : UartTx) : UartTx :=
  let s :=
    if s.txHead ≠ s.txTail then
      let s := s.storeSbuf1 (s.txBuffer s.txTail.toNat)
      { s with
        txTail := ringNext size s.txTail
        tails := s.tails + 1 }
    else
      { s with txBusy := false }
  { s with u1ti := false }

/-- The next access of the main program; `none` where it has nothing to
write. -/
def uartMain (size : Nat) (s : UartTx) : Option UartTx :=
  match s.pc with
  | .outside =>
      match s.pending with
      | [] => none
      | data :: rest =>
          some { s with
            pc := .readHead data
            pending := rest
            written := s.written ++ [data] }
  | .readHead data =>
      some { s with pc := .waitRoom data (ringNext size s.txHead) }
  | .waitRoom data nextHead =>
      if nextHead = s.txTail then some s
      else some { s with pc := .readIndex data nextHead }
  | .readIndex data nextHead =>
      some { s with pc := .storeByte data nextHead s.txHead }
  | .storeByte data nextHead index =>
      some { s with
        txBuffer := Function.update s.txBuffer index.toNat data
        pc := .storeHead nextHead }
  | .storeHead nextHead =>
      some { s with
        txHead := nextHead
        heads := s.heads + 1
        pc := .testBusy }
  | .testBusy =>
      if s.txBusy then some { s with pc := .outside }
      else some { s with pc := .setBusy }
  | .setBusy => some { s with txBusy := true, pc := .readTail }
  | .readTail => some { s with pc := .readByte s.txTail }
  | .readByte tail => some { s with pc := .storeSbuf1 (s.txBuffer tail.toNat) }
  | .storeSbuf1 byte => some { s.storeSbuf1 byte with pc := .readTailAgain }
  | .readTailAgain => some { s with pc := .storeTail s.txTail }
  | .storeTail tail =>
      some { s with
        txTail := ringNext size tail
        tails := s.tails + 1
        pc := .outside }

inductive UartTxEvent where
  | call (c : UartCall)
  | main
  | sent
  | isr

def uartTxStep (size : Nat) (s : UartTx) : UartTxEvent → Option UartTx
  | .call c =>
      if s.pc = .outside ∧ s.pending = [] then
        some { s with pending := c.bytes }
      else none
  | .main => uartMain size s
  | .sent =>
      if s.inFlight then some { s with inFlight := false, u1ti := true }
      else none
  | .isr => if s.u1ti then some (uartIsrTransmit size s) else none

end Ch552e.Ref
