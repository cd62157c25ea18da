import Ch552e.Proofs.MainLoop
import Ch552e.Proofs.UartWake

/-!
# What was accepted is printed

Once no more SETUP packets come in, the program prints what is left and then
only waits. `rank` is what it has still to do: a line for each packet in the log,
sixteen for each byte not yet passed to `uart_write` (an access of `uart_write`
apiece, and what the transmitter does), the rest of the call it is in, and the two
events that follow a store to `SBUF1`.

The waiting loops of the program are two, on a full transmit ring and on an empty
log (`waits`). All else lowers the rank (`rank_step`), and as long as it is not 0
there is something else to do: who waits on a full ring waits for an interrupt
that comes (`can_work`).
-/

namespace Ch552e.Proofs

open Ch552e.Lib Ch552e.Lib.Ring Ch552e.Ref Ch552e.Spec

/-! ## The rank -/

/-- The accesses to the end of `uart_write`. -/
def writeRank : WritePc → Nat
  | .outside => 0
  | .readHead _ => 12
  | .waitRoom _ _ => 11
  | .readIndex _ _ => 10
  | .storeByte _ _ _ => 9
  | .storeHead _ => 8
  | .testBusy => 7
  | .setBusy => 6
  | .readTail => 5
  | .readByte _ => 4
  | .storeSbuf1 _ => 3
  | .readTailAgain => 2
  | .storeTail _ => 1

/-- A byte in flight has still to be sent and its interrupt to be served. -/
def lineRank (t : UartTx) : Nat :=
  (if t.inFlight then 2 else 0) + if t.u1ti then 1 else 0

def txRank (t : UartTx) : Nat :=
  16 * t.pending.length + writeRank t.pc +
    3 * (t.written.length - t.stored.length) + lineRank t

def callsRank (calls : List UartCall) : Nat :=
  calls.length + 16 * (calls.flatMap UartCall.bytes).length

/-- The accesses to the end of a pop that finds something. -/
def popRank : PopPc → Nat
  | .outside => 9
  | .readTail => 8
  | .readHead _ => 7
  | .copy _ field => 6 - field.val
  | .storeTail _ => 1

/-- A packet in the log has still to be popped and printed. -/
def itemRank : Nat := 23 + 16 * setupLineLength

def logRank (l : SetupLog) : Nat :=
  itemRank * (l.accepted.length - l.popped.length) +
    if l.dev.fifo.head = l.dev.fifo.tail then 0 else popRank l.pc

def rank (s : MainLoop) : Nat :=
  logRank s.log + callsRank s.calls + txRank s.uart.tx

/-! ## Waiting -/

def txWaits (t : UartTx) : Bool :=
  match t.pc with
  | .waitRoom _ nextHead => nextHead = t.txTail
  | .outside | .readHead _ | .readIndex _ _ | .storeByte _ _ _ | .storeHead _
  | .testBusy | .setBusy | .readTail | .readByte _ | .storeSbuf1 _
  | .readTailAgain | .storeTail _ => false

/-- The main program goes round a loop: it has nothing to print and the log is
empty, or the transmit ring is full. -/
def waits (s : MainLoop) : Bool :=
  if s.uart.idle then
    s.calls.isEmpty && s.log.dev.fifo.head = s.log.dev.fifo.tail
  else txWaits s.uart.tx

/-- The events that get something done for what was accepted. -/
def works (s : MainLoop) : MainLoopEvent → Bool
  | .main => !waits s
  | .sent => true
  | .uart => s.uart.tx.u1ti
  | .usb _ | .arrived _ => false

/-- No more USB events, and the two windows as before. -/
def usbSilent (s : MainLoop) : MainLoopEvent → Bool
  | .usb _ => false
  | .main => unhurriedLoop s .main
  | .uart => unhurriedLoop s .uart
  | .sent => unhurriedLoop s .sent
  | .arrived data => unhurriedLoop s (.arrived data)

variable {c : Build} {k m : Nat} {s s' : MainLoop} {e : MainLoopEvent}

theorem unhurried_of_silent (h : usbSilent s e = true) :
    unhurriedLoop s e = true := by
  cases e with
  | usb _ => exact absurd h (by simp [usbSilent])
  | main | uart | sent | arrived _ => exact h

/-! ## The invariant -/

/-- The two queues and the text between them, and the transmitter awake. -/
structure Alive (k m : Nat) (s : MainLoop) : Prop where
  sends : ∃ q, Sends (2 ^ m) s.uart.tx q
  awake : Awake (2 ^ m) s.uart.tx
  logs : ∃ q, Logs (2 ^ k) s.log q
  prints : Prints s

theorem startAtomic_of_unhurried {t : UartTx} {f : UartTxEvent}
    (h : unhurried t f = true) : startAtomic t f = true := by
  cases f with
  | call _ | main | sent => rfl
  | isr =>
      cases hs : t.pc with
      | readTailAgain | storeTail _ => simp [unhurried, hs] at h
      | _ => simp only [startAtomic, hs]

theorem awake_unhurried {t t' : UartTx} {f : UartTxEvent} {n : Nat}
    (h : Awake n t) (hstep : guarded unhurried (uartTxStep n) t f = some t') :
    Awake n t' := by
  obtain ⟨hok, hstep⟩ := guarded_eq_some hstep
  exact awake_step h (guarded_of (startAtomic_of_unhurried hok) hstep)

theorem alive_step (hk : k ≤ 8) (hm : m ≤ 8)
    (hfifo : c.fw.usbSetupFifoSize = 2 ^ k) (htx : c.uart1TxBufsize = 2 ^ m)
    (h : Alive k m s)
    (hstep : guarded unhurriedLoop (mainLoopStep c) s e = some s') :
    Alive k m s' := by
  obtain ⟨fs, hfs⟩ := mainLoopStep_log (guarded_eq_some hstep).2
  obtain ⟨gs, hgs⟩ := mainLoopStep_uart hstep
  obtain ⟨ts, hts⟩ := runs_part Uart.tx
    (fun _ _ _ hstep => uartStep_tx hstep) hgs
  rw [htx] at hts
  refine ⟨?_, ?_, ?_, prints_step h.prints (guarded_eq_some hstep).2⟩
  · exact runs_inv (I := fun t => ∃ q, Sends (2 ^ m) t q)
      (fun _ _ _ ⟨_, hq⟩ hstep => sends_step hm hq hstep) h.sends hts
  · exact runs_inv (I := Awake (2 ^ m))
      (fun _ _ _ ht hstep => awake_unhurried ht hstep) h.awake hts
  · exact runs_inv (I := fun l => ∃ q, Logs (2 ^ k) l q)
      (fun _ _ _ ⟨_, hq⟩ hstep => logs_step hk hfifo hq hstep) h.logs hfs

theorem alive_init (dev : Ep0) (setupPacket : UsbSetupFifoItem)
    (rxBuffer txBuffer : Nat → UInt8) (sbuf1 : UInt8) :
    Alive k m (mainLoopInit dev setupPacket rxBuffer txBuffer sbuf1) where
  sends := ⟨[], sends_init txBuffer⟩
  awake := awake_init txBuffer
  logs := ⟨[], logs_init (usbEp0Init dev) setupPacket⟩
  prints := prints_init dev setupPacket rxBuffer txBuffer sbuf1

/-! ## The transmitter -/

theorem Sends.stored_le {n : Nat} {t : UartTx} {q : List UInt8}
    (h : Sends n t q) : t.stored.length ≤ t.written.length := by
  have hlen := congrArg List.length h.order
  rw [List.length_append] at hlen
  omega

theorem txRank_write {n j : Nat} {t t' : UartTx} {q' : List UInt8}
    (h : WriteStep n t t') (hsends : Sends j t' q')
    (hquiet : ∀ byte, t.pc = .storeSbuf1 byte → t.inFlight = false) :
    txRank t' + (if txWaits t then 0 else 1) ≤ txRank t := by
  have hle := hsends.stored_le
  cases h with
  | outside hs hp =>
      simp only [List.length_append, List.length_singleton] at hle
      simp only [txRank, txWaits, lineRank, writeRank, hs, hp,
        List.length_append, List.length_cons, List.length_nil, reduceIte,
        Bool.false_eq_true]
      omega
  | full hs hfull => simp [txWaits, hs, hfull]
  | room hs hroom =>
      simp only [txRank, txWaits, lineRank, writeRank, hs, hroom, reduceIte,
        decide_false, Bool.false_eq_true]
      omega
  | storeSbuf1 hs =>
      have hflight := hquiet _ hs
      simp only [List.length_append, List.length_singleton] at hle
      simp only [txRank, txWaits, lineRank, writeRank, hs, hflight,
        List.length_append, List.length_cons, List.length_nil, reduceIte,
        Bool.false_eq_true]
      omega
  | readHead hs | readIndex hs | storeByte hs | storeHead hs | busy hs _
  | idle hs _ | setBusy hs | readTail hs | readByte hs | readTailAgain hs
  | storeTail hs =>
      simp only [txRank, txWaits, lineRank, writeRank, hs, reduceIte,
        Bool.false_eq_true]
      omega

theorem txRank_isr {n j : Nat} {t t' : UartTx} {q' : List UInt8}
    (h : TxStep n t .isr t') (hsends : Sends j t' q') :
    txRank t' + 1 ≤ txRank t := by
  have hle := hsends.stored_le
  cases h with
  | drained hti _ =>
      simp only [txRank, lineRank, hti, reduceIte, Bool.false_eq_true]
      omega
  | sendNext hti _ =>
      simp only [List.length_append, List.length_singleton] at hle
      simp only [txRank, lineRank, hti, List.length_append,
        List.length_singleton]
      simp
      omega

theorem txRank_sent {t : UartTx} (hflight : t.inFlight = true) :
    txRank { t with inFlight := false, u1ti := true } + 1 ≤ txRank t := by
  simp [txRank, lineRank, hflight]
  omega

/-! ## The log -/

theorem Logs.nonempty_iff {n : Nat} {l : SetupLog} {q : List UsbSetupFifoItem}
    (h : Logs n l q) : l.dev.fifo.head ≠ l.dev.fifo.tail ↔ q ≠ [] :=
  not_congr (ring_empty_iff h.ring)

theorem Logs.outstanding {n : Nat} {l : SetupLog} {q : List UsbSetupFifoItem}
    (h : Logs n l q) : l.accepted.length = l.popped.length + q.length := by
  have hlen := congrArg List.length h.order
  rwa [List.length_map, List.length_append] at hlen

theorem callsRank_report (x : UsbSetupFifoItem) :
    callsRank (reportCalls x) + 9 = itemRank := by
  have hline : (lineOf x).length = setupLineLength :=
    Text.length_printLine hexField setupLine rfl
  rw [callsRank, reportCalls_bytes, hline]
  show 14 + 16 * setupLineLength + 9 = itemRank
  rw [itemRank]
  omega

/-- An access of the pop pays for itself where there is something to pop, and for
the calls that print what it has popped. -/
theorem logRank_pop {n : Nat} {fw : Firmware} {l l' : SetupLog}
    {q q' : List UsbSetupFifoItem} (h : PopStep fw l l') (hlogs : Logs n l q)
    (hlogs' : Logs n l' q') :
    logRank l' + callsRank (afterPop l.pc l.item) +
        (if l.dev.fifo.head = l.dev.fifo.tail then 0 else 1) ≤ logRank l := by
  have hhere := hlogs.here
  have hnil : callsRank [] = 0 := rfl
  cases h with
  | readTail hs =>
      simp only [logRank, afterPop, hs, popRank, hnil]
      split <;> omega
  | empty hs hempty =>
      simp only [PopAt, hs] at hhere
      have hsame : l.dev.fifo.head = l.dev.fifo.tail := by rw [← hempty, hhere]
      simp [logRank, afterPop, hs, hnil, hsame]
  | found hs hne =>
      simp only [PopAt, hs] at hhere
      have hdiff : l.dev.fifo.head ≠ l.dev.fifo.tail := by
        rw [← hhere]
        exact hne.symm
      simp [logRank, afterPop, hs, popRank, hnil, hdiff]
  | @copy tail field hs =>
      simp only [PopAt, hs] at hhere
      obtain ⟨_, x, hx, _⟩ := hhere
      have hdiff : l.dev.fifo.head ≠ l.dev.fifo.tail := by
        refine hlogs.nonempty_iff.mpr ?_
        rintro rfl
        exact absurd hx (by simp)
      by_cases hlast : field.val + 1 < 5
      · simp [logRank, afterPop, hs, popRank, hnil, hdiff, hlast]
        omega
      · have hfour : field.val = 4 := by omega
        simp [logRank, afterPop, hs, popRank, hnil, hdiff, hfour]
  | storeTail hs =>
      simp only [PopAt, hs] at hhere
      have hdiff : l.dev.fifo.head ≠ l.dev.fifo.tail := by
        refine hlogs.nonempty_iff.mpr ?_
        rintro rfl
        exact absurd hhere.2 (by simp)
      have hreport := callsRank_report l.item
      have hleft := hlogs'.outstanding
      simp only [List.length_append, List.length_singleton] at hleft
      have hone : l.accepted.length - l.popped.length =
          l.accepted.length - (l.popped.length + 1) + 1 := by omega
      simp only [logRank, afterPop, hs, popRank, hdiff, if_false,
        List.length_append, List.length_singleton]
      rw [hone, Nat.mul_succ]
      split <;> omega

/-! ## Every event -/

/-- What the event gets done lowers the rank. -/
def Pays (s : MainLoop) (e : MainLoopEvent) (s' : MainLoop) : Prop :=
  rank s' + (if works s e then 1 else 0) ≤ rank s

theorem works_idle (hidle : s.uart.idle = true) (hcalls : s.calls = []) :
    works s .main = !decide (s.log.dev.fifo.head = s.log.dev.fifo.tail) := by
  simp [works, waits, hidle, hcalls]

theorem pays_print {call : UartCall} {calls : List UartCall} {uart : Uart}
    (hidle : s.uart.idle = true) (hcalls : s.calls = call :: calls)
    (huart : Build.uartStep c s.uart (.call call) = some uart) :
    Pays s .main { s with uart := uart, calls := calls } := by
  obtain ⟨_, _, hpending⟩ := Uart.idle_iff.mp hidle
  have hworks : works s .main = true := by
    simp [works, waits, hidle, hcalls]
  cases uartStep_event huart with
  | call _ _ htxstep =>
      cases uartTxStep_event htxstep with
      | call _ _ _ =>
          simp only [Pays, rank, callsRank, txRank, lineRank, hcalls, hpending,
            hworks, List.flatMap_cons, List.length_append, List.length_cons,
            List.length_nil]
          simp only [if_true]
          omega

theorem pays_poll (hidle : s.uart.idle = true) (hcalls : s.calls = [])
    (hs : s.log.pc = .outside) :
    Pays s .main { s with log := { s.log with pc := .readTail } } := by
  simp only [Pays, rank, logRank, works_idle hidle hcalls, hs, popRank]
  by_cases hempty : s.log.dev.fifo.head = s.log.dev.fifo.tail
  · simp [hempty]
  · simp only [hempty, decide_false, Bool.not_false, reduceIte]
    omega

theorem pays_pop {log : SetupLog} {q q' : List UsbSetupFifoItem} {n : Nat}
    (hidle : s.uart.idle = true) (hcalls : s.calls = [])
    (hpop : PopStep c.fw s.log log) (hlogs : Logs n s.log q)
    (hlogs' : Logs n log q') :
    Pays s .main
      { s with log := log, calls := afterPop s.log.pc s.log.item } := by
  have hnil : callsRank [] = 0 := rfl
  have hpaid := logRank_pop hpop hlogs hlogs'
  simp only [Pays, rank, works_idle hidle hcalls, hcalls, hnil]
  by_cases hempty : s.log.dev.fifo.head = s.log.dev.fifo.tail
  · simp only [hempty, if_true] at hpaid
    simp [hempty]
    omega
  · simp only [hempty, if_false] at hpaid
    simp [hempty]
    omega

theorem pays_write {uart : Uart} {n : Nat} {q q' : List UInt8}
    (hidle : s.uart.idle = false) (hdeaf : s.uart.rx.pc = .outside)
    (huart : Build.uartStep c s.uart .main = some uart)
    (hsends : Sends n s.uart.tx q) (hsends' : Sends n uart.tx q') :
    Pays s .main { s with uart := uart } := by
  cases uartStep_event huart with
  | fetch hin _ => exact absurd hdeaf hin
  | write _ htxstep =>
      cases uartTxStep_event htxstep with
      | main hwrite =>
          have hquiet : ∀ byte, s.uart.tx.pc = .storeSbuf1 byte →
              s.uart.tx.inFlight = false := by
            intro byte hs
            have hhere := hsends.here
            simp only [At, hs] at hhere
            exact hhere.1.1
          have hpaid := txRank_write hwrite hsends' hquiet
          simp only [Pays, rank, works, waits, hidle]
          cases hwaits : txWaits s.uart.tx with
          | true =>
              simp only [hwaits, if_true] at hpaid
              simp
              omega
          | false =>
              simp only [hwaits] at hpaid
              simp at hpaid ⊢
              omega

theorem pays_uart {uart : Uart} {n : Nat} {q' : List UInt8}
    (huart : Build.uartStep c s.uart .isr = some uart)
    (hsends' : Sends n uart.tx q') : Pays s .uart { s with uart := uart } := by
  cases uartStep_event huart with
  | isr _ =>
      have htx : (uartIsr c.uart1RxBufsize c.uart1TxBufsize s.uart).tx =
          if s.uart.tx.u1ti then uartIsrTransmit c.uart1TxBufsize s.uart.tx
          else s.uart.tx := uartIsr_tx _ _ _
      by_cases hti : s.uart.tx.u1ti = true
      · rw [if_pos hti] at htx
        have htxstep : uartTxStep c.uart1TxBufsize s.uart.tx .isr =
            some (uartIsrTransmit c.uart1TxBufsize s.uart.tx) := if_pos hti
        rw [htx] at hsends'
        have hpaid := txRank_isr (uartTxStep_event htxstep) hsends'
        simp only [Pays, rank, works, hti, htx, if_true]
        omega
      · rw [if_neg hti] at htx
        simp [Pays, rank, works, hti, htx]

theorem pays_sent {uart : Uart}
    (huart : Build.uartStep c s.uart .sent = some uart) :
    Pays s .sent { s with uart := uart } := by
  cases uartStep_event huart with
  | sent htxstep =>
      cases uartTxStep_event htxstep with
      | sent hflight =>
          have hpaid := txRank_sent hflight
          simp only [Pays, rank, works, if_true]
          omega

theorem rank_step (hk : k ≤ 8) (hm : m ≤ 8)
    (hfifo : c.fw.usbSetupFifoSize = 2 ^ k) (htx : c.uart1TxBufsize = 2 ^ m)
    (h : Alive k m s)
    (hstep : guarded usbSilent (mainLoopStep c) s e = some s') :
    Alive k m s' ∧ rank s' + (if works s e then 1 else 0) ≤ rank s := by
  obtain ⟨hsilent, hstep⟩ := guarded_eq_some hstep
  have halive := alive_step hk hm hfifo htx h
    (guarded_of (unhurried_of_silent hsilent) hstep)
  refine ⟨halive, ?_⟩
  obtain ⟨_, hsends⟩ := h.sends
  obtain ⟨_, hlogs⟩ := h.logs
  obtain ⟨_, hsends'⟩ := halive.sends
  obtain ⟨_, hlogs'⟩ := halive.logs
  cases mainLoopStep_event hstep with
  | usb _ => exact absurd hsilent (by simp [usbSilent])
  | print hidle hcalls huart => exact pays_print hidle hcalls huart
  | poll hidle hcalls hs => exact pays_poll hidle hcalls hs
  | pop hidle hcalls hpop => exact pays_pop hidle hcalls hpop hlogs hlogs'
  | write hidle huart =>
      exact pays_write hidle h.prints.deaf huart hsends hsends'
  | uart huart => exact pays_uart huart hsends'
  | sent huart => exact pays_sent huart
  | arrived data huart =>
      cases uartStep_event huart with
      | arrived _ => simp [rank, works]

/-! ## Progress -/

/-- The main program can always go on. -/
theorem mainLoop_total (c : Build) (h : s.uart.rx.pc = .outside) :
    ∃ s', mainLoop c s = some s' := by
  unfold mainLoop
  cases hidle : s.uart.idle with
  | true =>
      obtain ⟨_, hout, hpending⟩ := Uart.idle_iff.mp hidle
      cases hcalls : s.calls with
      | cons call calls =>
          simp [uartStep, uartTxStep, hidle, hout, hpending]
      | nil =>
          cases hs : s.log.pc with
          | outside => simp [setupLogStep, hs]
          | readHead tail =>
              by_cases hempty : tail = s.log.dev.fifo.head <;>
                simp [setupLogStep, popMain, hs, hempty]
          | readTail | copy _ _ | storeTail _ =>
              simp [setupLogStep, popMain, hs]
  | false =>
      simp only [uartStep, uartMainStep, h, uartTxStep]
      cases hs : s.uart.tx.pc with
      | outside =>
          cases hp : s.uart.tx.pending with
          | nil => simp [Uart.idle, h, hs, hp] at hidle
          | cons data rest => simp [uartMain, hs, hp]
      | waitRoom d nextHead =>
          by_cases hfull : nextHead = s.uart.tx.txTail <;>
            simp [uartMain, hs, hfull]
      | testBusy =>
          by_cases hbusy : s.uart.tx.txBusy <;> simp [uartMain, hs, hbusy]
      | readHead _ | readIndex _ _ | storeByte _ _ _ | storeHead _ | setBusy
      | readTail | readByte _ | storeSbuf1 _ | readTailAgain | storeTail _ =>
          simp [uartMain, hs]

/-- Where the transmitter is active and the main program is not between two
accesses that the interrupt keeps out of, the transmitter can go on. -/
theorem active_works (c : Build) (hactive : Active s.uart.tx)
    (hok : unhurried s.uart.tx .isr = true) :
    ∃ e s', guarded usbSilent (mainLoopStep c) s e = some s' ∧
      works s e = true := by
  rcases hactive with hflight | hti
  · obtain ⟨s', hstep⟩ : ∃ s', mainLoopStep c s .sent = some s' := by
      simp [mainLoopStep, uartStep, uartTxStep, hflight]
    have hguard : usbSilent s .sent = true := rfl
    exact ⟨.sent, s', guarded_of hguard hstep, rfl⟩
  · obtain ⟨s', hstep⟩ : ∃ s', mainLoopStep c s .uart = some s' := by
      simp [mainLoopStep, uartStep, hti]
    have hguard : usbSilent s .uart = true := by
      simp [usbSilent, unhurriedLoop, unhurriedUart, hok]
    exact ⟨.uart, s', guarded_of hguard hstep, hti⟩

/-- As long as something is left there is something to do. -/
theorem can_work (hpos : 1 ≤ m) (hm : m ≤ 8) (c : Build) (h : Alive k m s)
    (hrank : rank s ≠ 0) :
    ∃ e s', guarded usbSilent (mainLoopStep c) s e = some s' ∧
      works s e = true := by
  cases hwaits : waits s with
  | false =>
      obtain ⟨s', hstep⟩ := mainLoop_total c h.prints.deaf
      have hguard : usbSilent s .main = true := rfl
      have hworks : works s .main = true := by simp [works, hwaits]
      exact ⟨.main, s', guarded_of hguard hstep, hworks⟩
  | true =>
      obtain ⟨qt, hsends⟩ := h.sends
      obtain ⟨ql, hlogs⟩ := h.logs
      cases hidle : s.uart.idle with
      | true =>
          -- nothing to print, and the log is empty: the transmitter is not
          -- at rest yet
          obtain ⟨_, hout, hpending⟩ := Uart.idle_iff.mp hidle
          simp only [waits, hidle, if_true, Bool.and_eq_true,
            List.isEmpty_iff, decide_eq_true_eq] at hwaits
          obtain ⟨hcalls, hempty⟩ := hwaits
          have hql : ql = [] := (ring_empty_iff hlogs.ring).mp hempty
          have hleft := hlogs.outstanding
          rw [hql, List.length_nil] at hleft
          have hok : unhurried s.uart.tx .isr = true := by
            simp [unhurried, hout]
          refine active_works c ?_ hok
          by_contra hrest
          have hactive : ¬ s.uart.tx.txHead ≠ s.uart.tx.txTail :=
            fun hne => hrest (h.awake.sending (.inl hout) hne).2
          have hqt : qt = [] := (ring_empty_iff hsends.ring).mp
            (not_not.mp hactive)
          have horder := congrArg List.length hsends.order
          simp only [unsent, inHand, hout, hqt, List.append_nil] at horder
          simp only [Active, not_or, Bool.not_eq_true] at hrest
          refine hrank ?_
          simp [rank, logRank, txRank, lineRank, writeRank, callsRank, hcalls,
            hpending, hout, hempty, hleft, horder, hrest.1, hrest.2]
      | false =>
          -- the transmit ring is full
          simp only [waits, hidle] at hwaits
          cases hs : s.uart.tx.pc with
          | waitRoom d nextHead =>
              simp [txWaits, hs] at hwaits
              have hne := h.awake.full hpos hm hs hwaits
              exact active_works c (h.awake.sending (.inr ⟨d, _, hs⟩) hne).2
                (by simp [unhurried, hs])
          | outside | readHead _ | readIndex _ _ | storeByte _ _ _
          | storeHead _ | testBusy | setBusy | readTail | readByte _
          | storeSbuf1 _ | readTailAgain | storeTail _ =>
              simp [txWaits, hs] at hwaits

/-- With nothing left to do all is printed. -/
theorem printed_of_rank (h : Alive k m s) (hrank : rank s = 0) :
    s.uart.tx.stored =
      transcript (s.log.accepted.map UsbSetupFifoItem.view) := by
  obtain ⟨qt, hsends⟩ := h.sends
  obtain ⟨ql, hlogs⟩ := h.logs
  have hle := hsends.stored_le
  have horder := congrArg List.length hsends.order
  have hleft := hlogs.outstanding
  simp only [List.length_append] at horder
  simp only [rank, logRank, txRank, callsRank, Nat.add_eq_zero_iff,
    Nat.mul_eq_zero, List.length_eq_zero_iff] at hrank
  obtain ⟨⟨⟨hitems, _⟩, hcalls, _⟩, ⟨⟨hpending, hpc⟩, hbytes⟩, _⟩ := hrank
  have hql : ql = [] := by
    refine List.length_eq_zero_iff.mp ?_
    have hpos : itemRank ≠ 0 := by decide
    have hnone := hitems.resolve_left hpos
    omega
  have hrest : unsent s.uart.tx qt ++ inHand s.uart.tx = [] := by
    refine List.length_eq_zero_iff.mp ?_
    rw [List.length_append]
    omega
  rw [h.prints.transcript hsends hlogs, hrest, hcalls, hql,
    hpending.resolve_left (by decide)]
  simp

/-! ## Runs -/

section Runs

variable {dev : Ep0} {setupPacket : UsbSetupFifoItem}
  {rxBuffer txBuffer : Nat → UInt8} {sbuf1 : UInt8} {es : List MainLoopEvent}

theorem alive_run (hk : k ≤ 8) (hm : m ≤ 8)
    (hfifo : c.fw.usbSetupFifoSize = 2 ^ k) (htx : c.uart1TxBufsize = 2 ^ m)
    (h : runs (guarded unhurriedLoop (mainLoopStep c))
      (mainLoopInit dev setupPacket rxBuffer txBuffer sbuf1) es = some s) :
    Alive k m s :=
  runs_inv (I := Alive k m)
    (fun _ _ _ hs hstep => alive_step hk hm hfifo htx hs hstep)
    (alive_init dev setupPacket rxBuffer txBuffer sbuf1) h

theorem silent_accepted (h : guarded usbSilent (mainLoopStep c) s e = some s') :
    s'.log.accepted = s.log.accepted := by
  obtain ⟨hsilent, hstep⟩ := guarded_eq_some h
  cases mainLoopStep_event hstep with
  | usb _ => exact absurd hsilent (by simp [usbSilent])
  | print _ _ _ | poll _ _ _ | write _ _ | uart _ | sent _ | arrived _ _ => rfl
  | pop _ _ hpop => cases hpop with | _ => rfl

/-- From any state the program can be in, once no more USB events come: there is a
bound on the events that get something done, whatever their order and whatever
else happens; where no such event is possible any more, and there always is one
before, every packet the log has accepted is printed; and that is reached. -/
theorem mainLoop_drains (hk : k ≤ 8) (hpos : 1 ≤ m) (hm : m ≤ 7)
    (hfifo : c.fw.usbSetupFifoSize = 2 ^ k) (htx : c.uart1TxBufsize = 2 ^ m)
    (h : runs (guarded unhurriedLoop (mainLoopStep c))
      (mainLoopInit dev setupPacket rxBuffer txBuffer sbuf1) es = some s) :
    (∃ bound, ∀ fs s', runs (guarded usbSilent (mainLoopStep c)) s fs = some s' →
        tally (guarded usbSilent (mainLoopStep c)) works s fs ≤ bound) ∧
      ((∀ e, works s e = true →
          guarded usbSilent (mainLoopStep c) s e = none) →
        s.uart.tx.stored =
          transcript (s.log.accepted.map UsbSetupFifoItem.view)) ∧
      ∃ fs s', runs (guarded usbSilent (mainLoopStep c)) s fs = some s' ∧
        s'.log.accepted = s.log.accepted ∧
        s'.uart.tx.stored =
          transcript (s.log.accepted.map UsbSetupFifoItem.view) := by
  have hm8 := Nat.le_succ_of_le hm
  have halive := alive_run hk hm8 hfifo htx h
  refine ⟨⟨rank s, fun fs s' hrun => ?_⟩, ?_, ?_⟩
  · have hle := tally_le works rank
      (fun _ _ _ hs hstep => rank_step hk hm8 hfifo htx hs hstep) halive hrun
    omega
  · intro hstuck
    by_contra hleft
    obtain ⟨e, s', hstep, hworks⟩ := can_work hpos hm8 c halive
      (fun hzero => hleft (printed_of_rank halive hzero))
    rw [hstuck e hworks] at hstep
    exact absurd hstep (by simp)
  · obtain ⟨fs, s', hrun, ⟨hs', haccepted⟩, hzero⟩ := runs_settle rank
      (I := fun t => Alive k m t ∧ t.log.accepted = s.log.accepted)
      (fun t ht hrank => by
        obtain ⟨e, t', hstep, hworks⟩ := can_work hpos hm8 c ht.1 hrank
        obtain ⟨ht', hpaid⟩ := rank_step hk hm8 hfifo htx ht.1 hstep
        rw [hworks, if_pos rfl] at hpaid
        exact ⟨e, t', hstep, ⟨ht', (silent_accepted hstep).trans ht.2⟩, hpaid⟩)
      ⟨halive, rfl⟩
    refine ⟨fs, s', hrun, haccepted, ?_⟩
    rw [printed_of_rank hs' hzero, haccepted]

theorem mainLoop_drains_interrupted :
    ∃ s, runs (guarded unhurriedLoop (mainLoopStep defaultBuild))
        (mainLoopInit powerOn ⟨0, 0, 0, 0, 0⟩ (fun _ => 0) (fun _ => 0) 0)
        greetingInterrupted = some s ∧
      (∃ bound, ∀ fs s',
        runs (guarded usbSilent (mainLoopStep defaultBuild)) s fs = some s' →
          tally (guarded usbSilent (mainLoopStep defaultBuild)) works s fs ≤
            bound) ∧
      ((∀ e, works s e = true →
          guarded usbSilent (mainLoopStep defaultBuild) s e = none) →
        s.uart.tx.stored =
          transcript (s.log.accepted.map UsbSetupFifoItem.view)) ∧
      ∃ fs s',
        runs (guarded usbSilent (mainLoopStep defaultBuild)) s fs = some s' ∧
        s'.log.accepted = s.log.accepted ∧
        s'.uart.tx.stored =
          transcript (s.log.accepted.map UsbSetupFifoItem.view) := by
  have hsome : (runs (guarded unhurriedLoop (mainLoopStep defaultBuild))
      (mainLoopInit powerOn ⟨0, 0, 0, 0, 0⟩ (fun _ => 0) (fun _ => 0) 0)
      greetingInterrupted).isSome := rfl
  obtain ⟨s, hs⟩ := Option.isSome_iff_exists.mp hsome
  exact ⟨s, hs, mainLoop_drains (k := 3) (m := 5) (by decide) (by decide)
    (by decide) rfl rfl hs⟩

end Runs

end Ch552e.Proofs
