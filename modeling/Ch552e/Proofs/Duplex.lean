import Ch552e.Lib.Simulation
import Ch552e.Proofs.UartRx
import Ch552e.Proofs.UartTx
import Ch552e.Ref.Uart

/-!
# Both directions at once

One interrupt serves the receiver and the transmitter, and one main program is
in the functions of either. Still neither half notices the other: what the UART
does to one of them is what that half does alone (`uartStep_rx`,
`uartStep_tx`), so all that is known of them alone holds here.

What the halves alone do not say is where a received byte is between the line
and the interrupt. `heard` adds the register to what was stored, and a byte that
came in and is not heard is lost in one of the two ways of `loses`.
-/

namespace Ch552e.Proofs

open Ch552e.Lib Ch552e.Lib.Ring Ch552e.Ref

variable {n m : Nat} {u u' : Uart} {e : UartEvent}

/-! ## The halves -/

/-- As `unhurried`: the transmit interrupt keeps out of the two windows. -/
def unhurriedUart (u : Uart) : UartEvent → Bool
  | .isr => !u.tx.u1ti || unhurried u.tx .isr
  | .call _ | .read | .available | .main | .sent | .arrived _ => true

theorem uartIsr_tx (n m : Nat) (u : Uart) :
    (uartIsr n m u).tx =
      if u.tx.u1ti then uartIsrTransmit m u.tx else u.tx := by
  unfold uartIsr
  by_cases hri : u.u1ri <;> by_cases hti : u.tx.u1ti <;> simp [hri, hti]

theorem uartIsr_rx (n m : Nat) (u : Uart) :
    (uartIsr n m u).rx =
      if u.u1ri then (uartIsrReceive n u.rx u.sbuf1).2 else u.rx := by
  unfold uartIsr
  by_cases hri : u.u1ri <;> by_cases hti : u.tx.u1ti <;> simp [hri, hti]

theorem uartIsr_line (n m : Nat) (u : Uart) :
    (uartIsr n m u).u1ri = false ∧ (uartIsr n m u).sbuf1 = u.sbuf1 ∧
      (uartIsr n m u).arrived = u.arrived := by
  unfold uartIsr
  by_cases hri : u.u1ri <;> by_cases hti : u.tx.u1ti <;> simp [hri, hti]

/-- All that an event can do to the UART, half by half. -/
inductive UartStep (n m : Nat) (u : Uart) : UartEvent → Uart → Prop where
  | call (c : UartCall) {tx : UartTx} (hidle : u.idle = true)
      (h : uartTxStep m u.tx (.call c) = some tx) :
      UartStep n m u (.call c) { u with tx := tx }
  | read {rx : UartRx} (hidle : u.idle = true)
      (h : uartRxStep n u.rx .read = some rx) :
      UartStep n m u .read { u with rx := rx }
  | available {rx : UartRx} (hidle : u.idle = true)
      (h : uartRxStep n u.rx .available = some rx) :
      UartStep n m u .available { u with rx := rx }
  | write {tx : UartTx} (hout : u.rx.pc = .outside)
      (h : uartTxStep m u.tx .main = some tx) :
      UartStep n m u .main { u with tx := tx }
  | fetch {rx : UartRx} (hin : u.rx.pc ≠ .outside)
      (h : uartRxStep n u.rx .main = some rx) :
      UartStep n m u .main { u with rx := rx }
  | sent {tx : UartTx} (h : uartTxStep m u.tx .sent = some tx) :
      UartStep n m u .sent { u with tx := tx }
  | arrived (data : UInt8) :
      UartStep n m u (.arrived data) { u with
        sbuf1 := data
        u1ri := true
        arrived := u.arrived ++ [data] }
  | isr (hpending : u.u1ri = true ∨ u.tx.u1ti = true) :
      UartStep n m u .isr (uartIsr n m u)

theorem uartStep_event (h : uartStep n m u e = some u') : UartStep n m u e u' := by
  cases e with
  | call c =>
      simp only [uartStep] at h
      split at h
      · next hidle =>
          obtain ⟨tx, htx, rfl⟩ := Option.map_eq_some_iff.mp h
          exact .call c hidle htx
      · exact absurd h (by simp)
  | read =>
      simp only [uartStep] at h
      split at h
      · next hidle =>
          obtain ⟨rx, hrx, rfl⟩ := Option.map_eq_some_iff.mp h
          exact .read hidle hrx
      · exact absurd h (by simp)
  | available =>
      simp only [uartStep] at h
      split at h
      · next hidle =>
          obtain ⟨rx, hrx, rfl⟩ := Option.map_eq_some_iff.mp h
          exact .available hidle hrx
      · exact absurd h (by simp)
  | main =>
      simp only [uartStep, uartMainStep] at h
      split at h
      · next hout =>
          obtain ⟨tx, htx, rfl⟩ := Option.map_eq_some_iff.mp h
          exact .write hout htx
      · next hin =>
          obtain ⟨rx, hrx, rfl⟩ := Option.map_eq_some_iff.mp h
          exact .fetch hin hrx
  | sent =>
      obtain ⟨tx, htx, rfl⟩ := Option.map_eq_some_iff.mp h
      exact .sent htx
  | arrived data =>
      obtain rfl := Option.some.inj h
      exact .arrived data
  | isr =>
      simp only [uartStep] at h
      split at h
      · next hpending =>
          obtain rfl := Option.some.inj h
          exact .isr (Bool.or_eq_true_iff.mp hpending)
      · exact absurd h (by simp)

theorem uartStep_rx (h : uartStep n m u e = some u') :
    ∃ fs, runs (uartRxStep n) u.rx fs = some u'.rx := by
  cases uartStep_event h with
  | call _ _ _ | write _ _ | sent _ | arrived _ => exact ⟨[], rfl⟩
  | read _ hrx => exact ⟨[.read], runs_single hrx⟩
  | available _ hrx => exact ⟨[.available], runs_single hrx⟩
  | fetch _ hrx => exact ⟨[.main], runs_single hrx⟩
  | isr _ =>
      rw [uartIsr_rx]
      by_cases hri : u.u1ri
      · rw [if_pos hri]
        exact ⟨[.received u.sbuf1], rfl⟩
      · rw [if_neg hri]
        exact ⟨[], rfl⟩

theorem uartStep_tx (h : guarded unhurriedUart (uartStep n m) u e = some u') :
    ∃ fs, runs (guarded unhurried (uartTxStep m)) u.tx fs = some u'.tx := by
  obtain ⟨hok, h⟩ := guarded_eq_some h
  cases uartStep_event h with
  | read _ _ | available _ _ | fetch _ _ | arrived _ => exact ⟨[], rfl⟩
  | call c _ htx => exact ⟨[.call c], runs_single htx⟩
  | write _ htx => exact ⟨[.main], runs_single htx⟩
  | sent htx => exact ⟨[.sent], runs_single htx⟩
  | isr _ =>
      rw [uartIsr_tx]
      by_cases hti : u.tx.u1ti
      · have hquiet : unhurried u.tx .isr = true := by
          simpa [unhurriedUart, hti] using hok
        rw [if_pos hti]
        refine ⟨[.isr], runs_single (guarded_of hquiet ?_)⟩
        rw [uartTxStep, if_pos hti]
      · rw [if_neg hti]
        exact ⟨[], rfl⟩

/-! ## The line -/

/-- What was stored, and what the register holds for the interrupt. -/
def heard (u : Uart) : List UInt8 :=
  u.rx.accepted ++ if u.u1ri then [u.sbuf1] else []

/-- The two ways a received byte is lost: the next one comes before the
interrupt has looked, or the interrupt finds the ring full. -/
def loses (n : Nat) (u : Uart) : UartEvent → Bool
  | .arrived _ => u.u1ri
  | .isr => u.u1ri && ringNext n u.rx.rxTail = u.rx.rxHead
  | .call _ | .read | .available | .main | .sent => false

theorem uartRxStep_accepted {s s' : UartRx} {f : UartRxEvent}
    (h : uartRxStep n s f = some s') (hf : ∀ data, f ≠ .received data) :
    s'.accepted = s.accepted := by
  cases uartRxStep_event h with
  | dropped data _ | stored data _ => exact absurd rfl (hf data)
  | read _ | available _ => rfl
  | main hread => cases hread with | _ => rfl

/-- What the interrupt does to the bytes on their way. -/
theorem heard_isr (n m : Nat) (u : Uart) :
    heard (uartIsr n m u) =
      if loses n u .isr then u.rx.accepted else heard u := by
  obtain ⟨hri', _, _⟩ := uartIsr_line n m u
  rw [heard, hri', uartIsr_rx]
  by_cases hri : u.u1ri
  · by_cases hfull : ringNext n u.rx.rxTail = u.rx.rxHead
    · simp [hri, hfull, loses, uartIsrReceive]
    · simp [hri, hfull, loses, uartIsrReceive, heard]
  · simp [hri, loses, heard]

/-- An event that does not receive leaves what was heard alone. -/
theorem heard_same {rx : UartRx} {tx : UartTx}
    (h : rx.accepted = u.rx.accepted) :
    heard { u with rx := rx, tx := tx } = heard u := by
  rw [heard, heard, h]

/-- One event, seen from the line. -/
theorem uartStep_line (h : uartStep n m u e = some u') :
    ∃ new, u'.arrived = u.arrived ++ new ∧
      List.Sublist (heard u') (heard u ++ new) ∧
      (heard u').length + (if loses n u e then 1 else 0) =
        (heard u).length + new.length := by
  have hkeep : ∀ (rx : UartRx) (tx : UartTx), rx.accepted = u.rx.accepted →
      ∃ new, u.arrived = u.arrived ++ new ∧
        List.Sublist (heard { u with rx := rx, tx := tx }) (heard u ++ new) ∧
        (heard { u with rx := rx, tx := tx }).length + 0 =
          (heard u).length + new.length := by
    intro rx tx hrx
    refine ⟨[], (List.append_nil _).symm, ?_, ?_⟩
    · rw [heard_same hrx, List.append_nil]
    · rw [heard_same hrx]
      rfl
  cases uartStep_event h with
  | call _ _ _ | write _ _ | sent _ => exact hkeep u.rx _ rfl
  | read _ hrx | available _ hrx | fetch _ hrx =>
      exact hkeep _ u.tx (uartRxStep_accepted hrx (by simp))
  | arrived data =>
      refine ⟨[data], rfl, ?_, ?_⟩
      · by_cases hri : u.u1ri
        · simp [heard, hri]
        · simp [heard, hri]
      · by_cases hri : u.u1ri
        · simp [heard, hri, loses]
        · simp [heard, hri, loses]
  | isr _ =>
      refine ⟨[], ?_, ?_, ?_⟩
      · rw [(uartIsr_line n m u).2.2, List.append_nil]
      · rw [heard_isr, List.append_nil]
        split
        · exact List.sublist_append_left _ _
        · exact List.Sublist.refl _
      · rw [heard_isr]
        by_cases hloses : loses n u .isr = true
        · have hri : u.u1ri = true := by
            simp only [loses, Bool.and_eq_true] at hloses
            exact hloses.1
          simp [heard, hloses, hri]
        · simp [hloses]

/-! ## Runs -/

variable {k j : Nat} {rxBuffer txBuffer : Nat → UInt8} {sbuf1 : UInt8}
  {es : List UartEvent}

theorem Sends.delivered {s : UartTx} {q : List UInt8} (h : Sends n s q) :
    s.stored <+: s.written ∧
      (s.pc = .outside → s.written = s.stored ++
        contents n s.txBuffer s.txTail.toNat s.txHead.toNat) := by
  refine ⟨⟨_, h.order.symm⟩, ?_⟩
  intro hout
  have horder := h.order
  simp only [unsent, inHand, hout, List.append_nil] at horder
  rw [← h.ring.eq_contents]
  exact horder

theorem heard_run (h : runs (uartStep n m) (uartInit rxBuffer txBuffer sbuf1) es =
      some u) :
    List.Sublist (heard u) u.arrived ∧
      u.arrived.length = (heard u).length +
        tally (uartStep n m) (loses n) (uartInit rxBuffer txBuffer sbuf1) es := by
  refine ⟨?_, ?_⟩
  · refine runs_inv (I := fun u => List.Sublist (heard u) u.arrived)
      (fun u e u' hu hstep => ?_) (List.Sublist.refl _) h
    obtain ⟨new, harrived, hsub, _⟩ := uartStep_line hstep
    rw [harrived]
    exact hsub.trans (hu.append_right new)
  · have hbalance := tally_balance (loses n) (fun u => u.arrived.length)
      (fun u => (heard u).length) (fun u e u' hstep => by
        obtain ⟨new, harrived, _, hlen⟩ := uartStep_line hstep
        rw [harrived, List.length_append]
        omega) h
    have hfirst : heard (uartInit rxBuffer txBuffer sbuf1) = [] := rfl
    rw [hfirst] at hbalance
    simpa [uartInit] using hbalance

/-- Both directions of the UART in one run. Whatever the main program and the
transmitter do, what `uart_read` has returned, the ring and the register are, in
this order, what came in but for the bytes lost, and these are as many as came on
top of one the interrupt had not looked at or found the ring full. Where the
transmit interrupt keeps out of the two windows, what is stored in `SBUF1` is what
was written, whatever is received. -/
theorem uart_duplex (hk : k ≤ 7) (hj : j ≤ 7)
    (h : runs (uartStep (2 ^ k) (2 ^ j)) (uartInit rxBuffer txBuffer sbuf1) es =
      some u) :
    (u.rx.accepted = u.rx.returned ++
        contents (2 ^ k) u.rx.rxBuffer u.rx.rxHead.toNat u.rx.rxTail.toNat ∧
      List.Sublist (heard u) u.arrived ∧
      u.arrived.length = (heard u).length + tally (uartStep (2 ^ k) (2 ^ j))
        (loses (2 ^ k)) (uartInit rxBuffer txBuffer sbuf1) es) ∧
      (runs (guarded unhurriedUart (uartStep (2 ^ k) (2 ^ j)))
          (uartInit rxBuffer txBuffer sbuf1) es = some u →
        u.tx.stored <+: u.tx.written ∧
          (u.tx.pc = .outside → u.tx.written = u.tx.stored ++
            contents (2 ^ j) u.tx.txBuffer u.tx.txTail.toNat
              u.tx.txHead.toNat)) := by
  refine ⟨⟨?_, heard_run h⟩, ?_⟩
  · obtain ⟨fs, hfs⟩ := runs_part Uart.rx
      (fun _ _ _ hstep => uartStep_rx hstep) h
    obtain ⟨q, hq⟩ := receives_run (Nat.le_succ_of_le hk) hfs
    rw [← hq.ring.eq_contents]
    exact hq.order
  · intro hquiet
    obtain ⟨fs, hfs⟩ := runs_part Uart.tx
      (fun _ _ _ hstep => uartStep_tx hstep) hquiet
    obtain ⟨q, hq⟩ := sends_run (Nat.le_succ_of_le hj) hfs
    exact hq.delivered

/-- Two bytes come in, the first one lost under the second, while one is sent;
one run of the interrupt serves both directions, and the byte is read. -/
def uartBothWays : List UartEvent :=
  .call (.uartWrite 0x55) :: List.replicate 13 .main ++
    [.arrived 0x41, .sent, .arrived 0x42, .isr, .available, .main, .main, .read] ++
    List.replicate 6 .main

theorem uart_duplex_both :
    ∃ u, runs (guarded unhurriedUart (uartStep (2 ^ 5) (2 ^ 5)))
        (uartInit (fun _ => 0) (fun _ => 0) 0) uartBothWays = some u ∧
      u.rx.returned = [0x42] ∧ u.tx.stored = [0x55] ∧
      (u.rx.accepted = u.rx.returned ++
          contents (2 ^ 5) u.rx.rxBuffer u.rx.rxHead.toNat u.rx.rxTail.toNat ∧
        List.Sublist (heard u) u.arrived ∧
        u.arrived.length = (heard u).length + tally (uartStep (2 ^ 5) (2 ^ 5))
          (loses (2 ^ 5)) (uartInit (fun _ => 0) (fun _ => 0) 0) uartBothWays) ∧
        (runs (guarded unhurriedUart (uartStep (2 ^ 5) (2 ^ 5)))
            (uartInit (fun _ => 0) (fun _ => 0) 0) uartBothWays = some u →
          u.tx.stored <+: u.tx.written ∧
            (u.tx.pc = .outside → u.tx.written = u.tx.stored ++
              contents (2 ^ 5) u.tx.txBuffer u.tx.txTail.toNat
                u.tx.txHead.toNat)) := by
  have hrun : (runs (guarded unhurriedUart (uartStep (2 ^ 5) (2 ^ 5)))
      (uartInit (fun _ => 0) (fun _ => 0) 0) uartBothWays).map
        (fun u => (u.rx.returned, u.tx.stored)) = some ([0x42], [0x55]) := rfl
  obtain ⟨u, hu, hlast⟩ := Option.map_eq_some_iff.mp hrun
  obtain ⟨hreturned, hstored⟩ := Prod.mk.injEq .. ▸ hlast
  exact ⟨u, hu, hreturned, hstored,
    uart_duplex (by decide) (by decide) (runs_of_guarded hu)⟩

end Ch552e.Proofs
