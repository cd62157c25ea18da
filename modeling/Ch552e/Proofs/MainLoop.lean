import Ch552e.Proofs.Duplex
import Ch552e.Proofs.SetupLog
import Ch552e.Proofs.Xram
import Ch552e.Spec.Transcript

/-!
# What a terminal sees

The whole program, from the SETUP packets that come in over USB to the bytes
stored in `SBUF1`. Its two queues are verified on their own, and the main program
is what stands between them: `Prints` says that the text of the packets popped is
what was passed to `uart_write` and what the main program has still to pass.

The rest is composition. The log's part of a run is a run of the log and the
UART's part a run of the UART (`mainLoopStep_log`, `mainLoopStep_uart`), so the
two queues hold what is missing, and a terminal reads a part of the transcript
of the accepted packets, in their order.
-/

namespace Ch552e.Proofs

open Ch552e.Lib Ch552e.Lib.Ring Ch552e.Ref Ch552e.Spec

variable {c : Build} {s s' : MainLoop} {e : MainLoopEvent}

/-! ## Steps -/

/-- As `unhurried`: the transmit interrupt keeps out of the two windows. -/
def unhurriedLoop (s : MainLoop) : MainLoopEvent → Bool
  | .uart => unhurriedUart s.uart .isr
  | .main | .usb _ | .sent | .arrived _ => true

/-- The step of the UART alone. -/
def Build.uartStep (c : Build) : Uart → UartEvent → Option Uart :=
  Ref.uartStep c.uart1RxBufsize c.uart1TxBufsize

/-- All that an event can do to the program. -/
inductive LoopStep (c : Build) (s : MainLoop) : MainLoopEvent → MainLoop → Prop
    where
  | print {call : UartCall} {calls : List UartCall} {uart : Uart}
      (hidle : s.uart.idle = true) (hcalls : s.calls = call :: calls)
      (h : Build.uartStep c s.uart (.call call) = some uart) :
      LoopStep c s .main { s with uart := uart, calls := calls }
  | poll (hidle : s.uart.idle = true) (hcalls : s.calls = [])
      (hs : s.log.pc = .outside) :
      LoopStep c s .main { s with log := { s.log with pc := .readTail } }
  | pop {log : SetupLog} (hidle : s.uart.idle = true) (hcalls : s.calls = [])
      (h : PopStep c.fw s.log log) :
      LoopStep c s .main
        { s with log := log, calls := afterPop s.log.pc s.log.item }
  | write {uart : Uart} (hidle : s.uart.idle = false)
      (h : Build.uartStep c s.uart .main = some uart) :
      LoopStep c s .main { s with uart := uart }
  | usb {f : Ep0Event} {dev : Ep0} (h : ep0Step c.fw s.log.dev f = some dev) :
      LoopStep c s (.usb f)
        { s with
          log := { s.log with dev := dev, accepted := s.log.accept c.fw f } }
  | uart {uart : Uart} (h : Build.uartStep c s.uart .isr = some uart) :
      LoopStep c s .uart { s with uart := uart }
  | sent {uart : Uart} (h : Build.uartStep c s.uart .sent = some uart) :
      LoopStep c s .sent { s with uart := uart }
  | arrived (data : UInt8) {uart : Uart}
      (h : Build.uartStep c s.uart (.arrived data) = some uart) :
      LoopStep c s (.arrived data) { s with uart := uart }

theorem mainLoop_step (h : mainLoop c s = some s') : LoopStep c s .main s' := by
  unfold mainLoop at h
  split at h
  · next hidle =>
      split at h
      · next call calls hcalls =>
          obtain ⟨uart, huart, rfl⟩ := Option.map_eq_some_iff.mp h
          exact .print hidle hcalls huart
      · next hcalls =>
          split at h
          · next hs =>
              simp only [setupLogStep, hs, Option.map_some,
                Option.some.injEq] at h
              exact h ▸ .poll hidle hcalls hs
          all_goals
            obtain ⟨log, hlog, rfl⟩ := Option.map_eq_some_iff.mp h
            exact .pop hidle hcalls (popMain_step hlog)
  · next hidle =>
      obtain ⟨uart, huart, rfl⟩ := Option.map_eq_some_iff.mp h
      exact .write (Bool.eq_false_iff.mpr hidle) huart

theorem mainLoopStep_event (h : mainLoopStep c s e = some s') :
    LoopStep c s e s' := by
  cases e with
  | main => exact mainLoop_step h
  | usb f =>
      obtain ⟨log, hlog, rfl⟩ := Option.map_eq_some_iff.mp h
      obtain ⟨dev, hdev, rfl⟩ := Option.map_eq_some_iff.mp hlog
      exact .usb hdev
  | uart =>
      obtain ⟨uart, huart, rfl⟩ := Option.map_eq_some_iff.mp h
      exact .uart huart
  | sent =>
      obtain ⟨uart, huart, rfl⟩ := Option.map_eq_some_iff.mp h
      exact .sent huart
  | arrived data =>
      rw [mainLoopStep] at h
      obtain ⟨uart, huart, rfl⟩ := Option.map_eq_some_iff.mp h
      exact .arrived data huart

/-! ## The two queues -/

theorem popMain_of_step {fw : Firmware} {l l' : SetupLog}
    (h : PopStep fw l l') : popMain fw l = some l' := by
  cases h with
  | readTail hs => simp only [popMain, hs]
  | empty hs hempty => simp only [popMain, hs, hempty, if_true]
  | found hs hne => simp only [popMain, hs, hne, if_false]
  | copy hs => simp only [popMain, hs]
  | storeTail hs => simp only [popMain, hs]

theorem mainLoopStep_log (h : mainLoopStep c s e = some s') :
    ∃ fs, runs (setupLogStep c.fw) s.log fs = some s'.log := by
  cases mainLoopStep_event h with
  | print _ _ _ | write _ _ | uart _ | sent _ | arrived _ _ => exact ⟨[], rfl⟩
  | poll _ _ hs =>
      refine ⟨[.pop], runs_single ?_⟩
      simp only [setupLogStep, hs]
  | pop _ _ hpop => exact ⟨[.main], runs_single (popMain_of_step hpop)⟩
  | @usb f dev hdev =>
      refine ⟨[.isr f], runs_single ?_⟩
      rw [setupLogStep, hdev]
      rfl

theorem mainLoopStep_uart
    (h : guarded unhurriedLoop (mainLoopStep c) s e = some s') :
    ∃ fs, runs (guarded unhurriedUart (Build.uartStep c)) s.uart fs =
      some s'.uart := by
  obtain ⟨hok, h⟩ := guarded_eq_some h
  cases mainLoopStep_event h with
  | poll _ _ _ | pop _ _ _ | usb _ => exact ⟨[], rfl⟩
  | @print call _ _ _ _ huart => exact ⟨[.call call], runs_single huart⟩
  | write _ huart => exact ⟨[.main], runs_single huart⟩
  | uart huart =>
      have hquiet : unhurriedUart s.uart .isr = true := hok
      exact ⟨[.isr], runs_single (guarded_of hquiet huart)⟩
  | sent huart => exact ⟨[.sent], runs_single huart⟩
  | arrived data huart => exact ⟨[.arrived data], runs_single huart⟩

/-! ## The text -/

theorem printHex_bytes (v : UInt8) : (UartCall.uartPrintHex v).bytes = hexText v :=
  forall_byte (P := fun v => (UartCall.uartPrintHex v).bytes = hexText v)
    (by decide +kernel) v

/-- The calls of the inner loop print the line of the packet. -/
theorem reportCalls_bytes (x : UsbSetupFifoItem) :
    (reportCalls x).flatMap UartCall.bytes = lineOf x := by
  simp only [reportCalls, List.flatMap_cons, List.flatMap_nil, printHex_bytes]
  rfl

/-- What was popped is passed to `uart_write` or has still to be. -/
structure Prints (s : MainLoop) : Prop where
  text : transcript s.log.popped =
    s.uart.tx.written ++ s.uart.tx.pending ++ s.calls.flatMap UartCall.bytes
  /-- The program calls neither `uart_read` nor `uart_available`. -/
  deaf : s.uart.rx.pc = .outside

theorem Uart.idle_iff {u : Uart} :
    u.idle = true ↔
      u.rx.pc = .outside ∧ u.tx.pc = .outside ∧ u.tx.pending = [] := by
  simp only [Uart.idle, Bool.and_eq_true, decide_eq_true_eq, List.isEmpty_iff,
    and_assoc]

theorem isrReceive_pc (n : Nat) (r : UartRx) (data : UInt8) :
    (uartIsrReceive n r data).2.pc = r.pc := by
  unfold uartIsrReceive
  dsimp only
  split <;> rfl

/-- The interrupt and the line leave to the main program what is its own. -/
theorem isrTransmit_text (m : Nat) (t : UartTx) :
    (uartIsrTransmit m t).written = t.written ∧
      (uartIsrTransmit m t).pending = t.pending := by
  unfold uartIsrTransmit
  by_cases hempty : t.txHead = t.txTail <;> simp [hempty, UartTx.storeSbuf1]

theorem uartIsr_text (n m : Nat) (u : Uart) :
    (uartIsr n m u).tx.written = u.tx.written ∧
      (uartIsr n m u).tx.pending = u.tx.pending ∧
      (uartIsr n m u).rx.pc = u.rx.pc := by
  rw [uartIsr_tx, uartIsr_rx]
  refine ⟨?_, ?_, ?_⟩
  · split
    · exact (isrTransmit_text m u.tx).1
    · rfl
  · split
    · exact (isrTransmit_text m u.tx).2
    · rfl
  · split
    · exact isrReceive_pc n u.rx u.sbuf1
    · rfl

/-- An access of `uart_write` moves a byte from what is pending to what is
written, or neither. -/
theorem write_text {m : Nat} {t t' : UartTx} (h : WriteStep m t t') :
    t'.written ++ t'.pending = t.written ++ t.pending := by
  cases h with
  | outside hs hp => simp [hp]
  | _ => rfl

theorem prints_step (h : Prints s) (hstep : mainLoopStep c s e = some s') :
    Prints s' := by
  have htext := h.text
  cases mainLoopStep_event hstep with
  | poll _ _ _ | usb _ => exact ⟨htext, h.deaf⟩
  | @print call calls uart hidle hcalls huart =>
      obtain ⟨_, _, hpending⟩ := Uart.idle_iff.mp hidle
      cases uartStep_event huart with
      | call _ _ htx =>
          cases uartTxStep_event htx with
          | call _ _ _ =>
              refine ⟨?_, h.deaf⟩
              rw [htext, hpending, hcalls, List.flatMap_cons]
              simp
  | pop hidle hcalls hpop =>
      obtain ⟨_, _, hpending⟩ := Uart.idle_iff.mp hidle
      rw [hpending, hcalls] at htext
      refine ⟨?_, h.deaf⟩
      cases hpop with
      | readTail hs | empty hs _ | found hs _ | copy hs =>
          simp only [afterPop, hs, hpending]
          exact htext
      | storeTail hs =>
          simp only [afterPop, hs, hpending]
          rw [transcript_append, htext, reportCalls_bytes]
          simp
  | write _ huart =>
      cases uartStep_event huart with
      | fetch hin _ => exact absurd h.deaf hin
      | write _ htx =>
          cases uartTxStep_event htx with
          | main hwrite =>
              refine ⟨?_, h.deaf⟩
              rw [write_text hwrite]
              exact htext
  | uart huart =>
      cases uartStep_event huart with
      | isr _ =>
          obtain ⟨hwritten, hpending, hpc⟩ := uartIsr_text c.uart1RxBufsize
            c.uart1TxBufsize s.uart
          refine ⟨?_, hpc.trans h.deaf⟩
          rw [hwritten, hpending]
          exact htext
  | sent huart =>
      cases uartStep_event huart with
      | sent htx =>
          cases uartTxStep_event htx with
          | sent _ => exact ⟨htext, h.deaf⟩
  | arrived data huart =>
      cases uartStep_event huart with
      | arrived _ => exact ⟨htext, h.deaf⟩

/-- A text made by the program's own calls, broken off anywhere, reads as the
packets whose lines are complete; all of it reads as all of them. -/
theorem report_readable (xs : List UsbSetupFifoItem) {bs : List UInt8}
    (h : bs <+: (greetingCalls ++ xs.flatMap reportCalls).flatMap
      UartCall.bytes) :
    readTranscript bs =
        xs.take ((bs.length - greeting.length) / setupLineLength) ∧
      (bs = (greetingCalls ++ xs.flatMap reportCalls).flatMap UartCall.bytes →
        readTranscript bs = xs) := by
  have htext : (greetingCalls ++ xs.flatMap reportCalls).flatMap UartCall.bytes =
      transcript xs := by
    rw [List.flatMap_append, List.flatMap_assoc, transcript]
    congr 1
    exact List.flatMap_congr fun x _ => reportCalls_bytes x
  rw [htext] at h ⊢
  have hread := readTranscript_cut h
  refine ⟨hread, ?_⟩
  rintro rfl
  rw [hread, length_transcript, Nat.add_sub_cancel_left,
    Nat.mul_div_cancel _ (by decide), List.take_length]

def twoItems : List UsbSetupFifoItem :=
  [⟨0x80, 0x06, 0x0100, 0, 0x0040⟩, ⟨0x00, 0x05, 0x0007, 0, 0⟩]

theorem report_readable_cut :
    readTranscript (((greetingCalls ++ twoItems.flatMap reportCalls).flatMap
      UartCall.bytes).take 150) = twoItems.take 1 := by
  have hread := (report_readable twoItems (List.take_prefix 150 _)).1
  have hlen : (((greetingCalls ++ twoItems.flatMap reportCalls).flatMap
      UartCall.bytes).take 150).length = 150 := by decide +kernel
  rw [hlen] at hread
  exact hread

/-! ## Runs -/

section Runs

variable {k m : Nat} {dev : Ep0} {setupPacket : UsbSetupFifoItem}
  {rxBuffer txBuffer : Nat → UInt8} {sbuf1 : UInt8} {es : List MainLoopEvent}

theorem prints_init (dev : Ep0) (setupPacket : UsbSetupFifoItem)
    (rxBuffer txBuffer : Nat → UInt8) (sbuf1 : UInt8) :
    Prints (mainLoopInit dev setupPacket rxBuffer txBuffer sbuf1) where
  text := rfl
  deaf := rfl

/-- What was stored in `SBUF1`, what is on its way there and what is still in
the log are the transcript of the accepted packets. -/
theorem Prints.transcript {qt : List UInt8} {ql : List UsbSetupFifoItem} {n j : Nat}
    (h : Prints s) (hsends : Sends j s.uart.tx qt) (hlogs : Logs n s.log ql) :
    Spec.transcript (s.log.accepted.map UsbSetupFifoItem.view) =
      s.uart.tx.stored ++ (unsent s.uart.tx qt ++ inHand s.uart.tx) ++
        s.uart.tx.pending ++ s.calls.flatMap UartCall.bytes ++
        ql.flatMap lineOf := by
  rw [hlogs.order, transcript_append, h.text, hsends.order]

/-- A transcript broken off anywhere reads as the packets whose lines are
complete. -/
theorem decodes_cut {bs : List UInt8} {ps : List UsbSetupPacket}
    (h : bs <+: Spec.transcript (ps.map UsbSetupFifoItem.view)) :
    List.Forall₂ Decodes (readTranscript bs)
      (ps.take ((bs.length - greeting.length) / setupLineLength)) := by
  rw [readTranscript_cut h, ← List.map_take]
  exact List.forall₂_map_left_iff.mpr
    (List.forall₂_same.mpr fun p _ => decodes_view p)

/-- From USB to the serial line, in any order of the accesses of the main program
and the interrupts but for the two windows of the transmitter: what was stored in
`SBUF1` is a part of the transcript of the SETUP packets the log accepted, from
its beginning, and a terminal reads off it as many of them as lines fit, each
with the fields the request handler saw. -/
theorem mainLoop_transcript (hk : k ≤ 8) (hm : m ≤ 7)
    (hfifo : c.fw.usbSetupFifoSize = 2 ^ k) (htx : c.uart1TxBufsize = 2 ^ m)
    (h : runs (guarded unhurriedLoop (mainLoopStep c))
      (mainLoopInit dev setupPacket rxBuffer txBuffer sbuf1) es = some s) :
    s.uart.tx.stored <+:
        transcript (s.log.accepted.map UsbSetupFifoItem.view) ∧
      List.Forall₂ Decodes (readTranscript s.uart.tx.stored)
        (s.log.accepted.take ((s.uart.tx.stored.length - greeting.length) /
          setupLineLength)) := by
  have hprints := runs_inv (I := Prints)
    (fun _ _ _ hs hstep => prints_step hs (guarded_eq_some hstep).2)
    (prints_init dev setupPacket rxBuffer txBuffer sbuf1) h
  obtain ⟨fs, hfs⟩ := runs_part MainLoop.log
    (fun _ _ _ hstep => mainLoopStep_log (guarded_eq_some hstep).2) h
  obtain ⟨gs, hgs⟩ := runs_part MainLoop.uart
    (fun _ _ _ hstep => mainLoopStep_uart hstep) h
  obtain ⟨ts, hts⟩ := runs_part Uart.tx
    (fun _ _ _ hstep => uartStep_tx hstep) hgs
  obtain ⟨ql, hlogs⟩ := logs_run hk hfifo hfs
  rw [htx] at hts
  obtain ⟨qt, hsends⟩ := sends_run (Nat.le_succ_of_le hm) hts
  have htext : s.uart.tx.stored <+:
      transcript (s.log.accepted.map UsbSetupFifoItem.view) := by
    rw [hprints.transcript hsends hlogs]
    simp only [List.append_assoc]
    exact List.prefix_append _ _
  exact ⟨htext, decodes_cut htext⟩

/-- A SETUP comes in while the greeting is printed; its first byte is sent, and
the interrupt sends the second one. -/
def greetingInterrupted : List MainLoopEvent :=
  List.replicate 12 .main ++
    .usb (.setup (readConfiguration 255)) :: List.replicate 10 .main ++
    [.sent, .uart, .main]

theorem mainLoop_transcript_interrupted :
    ∃ s, runs (guarded unhurriedLoop (mainLoopStep defaultBuild))
        (mainLoopInit powerOn ⟨0, 0, 0, 0, 0⟩ (fun _ => 0) (fun _ => 0) 0)
        greetingInterrupted = some s ∧
      s.uart.tx.stored = ascii "In" ∧ s.log.accepted.length = 1 ∧
      s.uart.tx.stored <+:
        transcript (s.log.accepted.map UsbSetupFifoItem.view) ∧
      List.Forall₂ Decodes (readTranscript s.uart.tx.stored)
        (s.log.accepted.take ((s.uart.tx.stored.length - greeting.length) /
          setupLineLength)) := by
  have hrun : (runs (guarded unhurriedLoop (mainLoopStep defaultBuild))
      (mainLoopInit powerOn ⟨0, 0, 0, 0, 0⟩ (fun _ => 0) (fun _ => 0) 0)
      greetingInterrupted).map
        (fun s => (s.uart.tx.stored, s.log.accepted.length)) =
          some (ascii "In", 1) := rfl
  obtain ⟨s, hs, hlast⟩ := Option.map_eq_some_iff.mp hrun
  obtain ⟨hstored, haccepted⟩ := Prod.mk.injEq .. ▸ hlast
  exact ⟨s, hs, hstored, haccepted,
    mainLoop_transcript (k := 3) (m := 5) (by decide) (by decide) rfl rfl hs⟩

end Runs

end Ch552e.Proofs
