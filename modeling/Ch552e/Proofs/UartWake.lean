import Ch552e.Proofs.UartTx

/-!
# No lost wake-up in the transmitter

Whoever waits on a full ring waits for the interrupt, and the interrupt comes
once a byte is in flight. So the ring must never hold something while the
transmitter rests. The delicate point is between the store of `tx_head` and the
test of `tx_busy`: the interrupt may empty the ring and go idle there, and the
main program then starts the transmitter again, if on a stale byte.

Of the two windows of `unhurried` only the first is closed here
(`startAtomic`), so the ring's contents are not under control and the
invariant does without them: `Awake` speaks of the two indices, `tx_busy` and
the transmitter only.
-/

namespace Ch552e.Proofs

open Ch552e.Lib Ch552e.Ref

/-- No interrupt between the main program's store to `SBUF1` and the store to
`tx_tail` that follows it. -/
def startAtomic (s : UartTx) : UartTxEvent → Bool
  | .isr =>
      match s.pc with
      | .readTailAgain | .storeTail _ => false
      | _ => true
  | .call _ | .main | .sent => true

/-- The transmit interrupt is pending, or will be. -/
def Active (s : UartTx) : Prop := s.inFlight = true ∨ s.u1ti = true

/-- Where the main program is not past its store to `tx_head`: the transmitter
rests on an empty ring only. -/
structure Resting (s : UartTx) : Prop where
  active : s.txBusy = true → Active s
  empty : s.txBusy = false → s.txHead = s.txTail

def AwakeAt (n : Nat) (s : UartTx) : Prop :=
  match s.pc with
  | .outside | .readHead _ | .readIndex _ _ | .storeByte _ _ _ | .storeHead _ =>
      Resting s
  | .waitRoom _ nextHead => Resting s ∧ nextHead = ringNext n s.txHead
  | .testBusy => s.txBusy = true → Active s
  | .setBusy => s.txBusy = false ∧ Quiet s
  | .readTail | .readByte _ | .storeSbuf1 _ => s.txBusy = true ∧ Quiet s
  | .readTailAgain | .storeTail _ => s.txBusy = true ∧ Active s

structure Awake (n : Nat) (s : UartTx) : Prop where
  line : s.inFlight = false ∨ s.u1ti = false
  busy : s.txBusy = false → Quiet s
  here : AwakeAt n s

variable {n k : Nat} {s s' : UartTx}

theorem Active.not_quiet (h : Active s) : ¬ Quiet s := by
  rintro ⟨hflight, hti⟩
  rcases h with h | h
  · simp [hflight] at h
  · simp [hti] at h

theorem Awake.busy_of_active (h : Awake n s) (ha : Active s) :
    s.txBusy = true := by
  by_contra hb
  exact ha.not_quiet (h.busy (by simpa using hb))

/-! ## The transmitter -/

/-- The transmitter may move `tx_tail` and rest, as long as it does so on an
empty ring: the main program relies on no more. -/
theorem AwakeAt.transmit (h : AwakeAt n s) (hw : Active s) (hpc : s'.pc = s.pc)
    (hhead : s'.txHead = s.txHead) (hrest : Resting s')
    (hok : startAtomic s .isr = true ∨ s'.txBusy = s.txBusy ∧ Active s') :
    AwakeAt n s' := by
  have hquiet := hw.not_quiet
  match hs : s.pc with
  | .outside | .readHead _ | .readIndex _ _ | .storeByte _ _ _ | .storeHead _ =>
      simp only [AwakeAt, hpc, hs]
      exact hrest
  | .waitRoom _ _ =>
      simp only [AwakeAt, hpc, hs, hhead] at h ⊢
      exact ⟨hrest, h.2⟩
  | .testBusy =>
      simp only [AwakeAt, hpc, hs]
      exact hrest.active
  | .setBusy | .readTail | .readByte _ | .storeSbuf1 _ =>
      simp only [AwakeAt, hs] at h
      exact absurd h.2 hquiet
  | .readTailAgain | .storeTail _ =>
      simp only [AwakeAt, hpc, hs] at h ⊢
      rcases hok with hok | ⟨hb, ha⟩
      · simp [startAtomic, hs] at hok
      · exact ⟨hb.trans h.1, ha⟩

/-- The interrupt finds the ring empty and lets the transmitter rest. -/
theorem awake_drained (h : Awake n s) (hti : s.u1ti = true)
    (hempty : s.txHead = s.txTail) (hok : startAtomic s .isr = true) :
    Awake n { s with txBusy := false, u1ti := false } := by
  have hflight : s.inFlight = false :=
    h.line.resolve_right fun hl => by simp [hl] at hti
  refine ⟨.inr rfl, fun _ => ⟨hflight, rfl⟩,
    h.here.transmit (.inr hti) rfl rfl ⟨?_, fun _ => hempty⟩ (.inl hok)⟩
  intro hb
  exact absurd hb (by simp)

/-- The interrupt sends on. -/
theorem awake_sendNext (h : Awake n s) (hti : s.u1ti = true)
    (hok : startAtomic s .isr = true) :
    Awake n { s with
      stored := s.stored ++ [s.txBuffer s.txTail.toNat]
      inFlight := true
      txTail := ringNext n s.txTail
      tails := s.tails + 1
      u1ti := false } := by
  have hw : Active s := .inr hti
  have hidle : ¬ s.txBusy = false := by rw [h.busy_of_active hw]; simp
  exact ⟨.inr rfl, fun hb => absurd hb hidle,
    h.here.transmit hw rfl rfl ⟨fun _ => .inl rfl, fun hb => absurd hb hidle⟩
      (.inl hok)⟩

theorem awake_sent (h : Awake n s) (hflight : s.inFlight = true) :
    Awake n { s with inFlight := false, u1ti := true } := by
  have hw : Active s := .inl hflight
  have hidle : ¬ s.txBusy = false := by rw [h.busy_of_active hw]; simp
  exact ⟨.inl rfl, fun hb => absurd hb hidle,
    h.here.transmit hw rfl rfl ⟨fun _ => .inr rfl, fun hb => absurd hb hidle⟩
      (.inr ⟨rfl, .inr rfl⟩)⟩

/-! ## The main program -/

theorem awake_main (h : Awake n s) (hstep : WriteStep n s s') : Awake n s' := by
  have hhere := h.here
  cases hstep with
  | outside hs _ | readIndex hs | storeByte hs =>
      simp only [AwakeAt, hs] at hhere
      exact ⟨h.line, h.busy, hhere.active, hhere.empty⟩
  | readHead hs =>
      simp only [AwakeAt, hs] at hhere
      exact ⟨h.line, h.busy, ⟨hhere.active, hhere.empty⟩, rfl⟩
  | full _ _ => exact h
  | room hs _ =>
      simp only [AwakeAt, hs] at hhere
      exact ⟨h.line, h.busy, hhere.1.active, hhere.1.empty⟩
  | storeHead hs =>
      simp only [AwakeAt, hs] at hhere
      exact ⟨h.line, h.busy, hhere.active⟩
  | busy hs hbusy =>
      simp only [AwakeAt, hs] at hhere
      refine ⟨h.line, h.busy, hhere, ?_⟩
      intro hidle
      exact absurd (show s.txBusy = false from hidle) (by simp [hbusy])
  | idle hs hidle => exact ⟨h.line, h.busy, hidle, h.busy hidle⟩
  | setBusy hs =>
      simp only [AwakeAt, hs] at hhere
      exact ⟨h.line, fun hb => absurd hb (by simp), rfl, hhere.2⟩
  | readTail hs | readByte hs | readTailAgain hs =>
      simp only [AwakeAt, hs] at hhere
      exact ⟨h.line, h.busy, hhere⟩
  | storeSbuf1 hs =>
      simp only [AwakeAt, hs] at hhere
      refine ⟨.inr hhere.2.2, ?_, hhere.1, .inl rfl⟩
      intro hb
      exact absurd (show s.txBusy = false from hb) (by simp [hhere.1])
  | storeTail hs =>
      simp only [AwakeAt, hs] at hhere
      refine ⟨h.line, h.busy, fun _ => hhere.2, ?_⟩
      intro hb
      exact absurd (show s.txBusy = false from hb) (by simp [hhere.1])

/-! ## Runs -/

theorem awake_step {e : UartTxEvent} (h : Awake n s)
    (hstep : guarded startAtomic (uartTxStep n) s e = some s') : Awake n s' := by
  obtain ⟨hok, hstep⟩ := guarded_eq_some hstep
  cases uartTxStep_event hstep with
  | call c hs _ =>
      have hhere := h.here
      simp only [AwakeAt, hs] at hhere
      refine ⟨h.line, h.busy, ?_⟩
      simp only [AwakeAt, hs]
      exact ⟨hhere.active, hhere.empty⟩
  | main hmain => exact awake_main h hmain
  | sent hflight => exact awake_sent h hflight
  | drained hti hempty => exact awake_drained h hti hempty hok
  | sendNext hti _ => exact awake_sendNext h hti hok

theorem awake_init (buf : Nat → UInt8) : Awake n (uartTxInit buf) where
  line := .inl rfl
  busy := fun _ => ⟨rfl, rfl⟩
  here := ⟨fun hb => absurd hb (by simp [uartTxInit]), fun _ => rfl⟩

theorem awake_run {buf : Nat → UInt8} {es : List UartTxEvent}
    (h : runs (guarded startAtomic (uartTxStep n)) (uartTxInit buf) es = some s) :
    Awake n s :=
  runs_inv (I := Awake n) (fun _ _ _ h hstep => awake_step h hstep)
    (awake_init buf) h

/-- In a ring of two cells or more the next index is another one. -/
theorem ringNext_ne (hpos : 1 ≤ k) (hk : k ≤ 8) (i : UInt8) :
    ringNext (2 ^ k) i ≠ i := by
  intro heq
  have hmod := toNat_ringNext hk i
  rw [heq] at hmod
  have htwo : 2 ^ 1 ≤ 2 ^ k := Nat.pow_le_pow_right (by omega) hpos
  have hlt : (i.toNat + 1) % 2 ^ k < 2 ^ k := Nat.mod_lt _ (by omega)
  rcases Nat.lt_or_ge (i.toNat + 1) (2 ^ k) with hin | hwrap
  · rw [Nat.mod_eq_of_lt hin] at hmod
    omega
  · have hlast : i.toNat + 1 = 2 ^ k := by omega
    rw [hlast, Nat.mod_self] at hmod
    omega

/-- Outside `uart_write` and in its waiting loop: a ring that holds something is
being sent. -/
theorem Awake.sending (h : Awake n s)
    (hpc : s.pc = .outside ∨ ∃ d m, s.pc = .waitRoom d m)
    (hnonempty : s.txHead ≠ s.txTail) : s.txBusy = true ∧ Active s := by
  have hrest : Resting s := by
    have hhere := h.here
    rcases hpc with hs | ⟨d, m, hs⟩
    · simpa only [AwakeAt, hs] using hhere
    · simp only [AwakeAt, hs] at hhere
      exact hhere.1
  have hbusy : s.txBusy = true := by
    by_contra hb
    exact hnonempty (hrest.empty (by simpa using hb))
  exact ⟨hbusy, hrest.active hbusy⟩

theorem Awake.full (hpos : 1 ≤ k) (hk : k ≤ 8) (h : Awake (2 ^ k) s)
    {d m : UInt8} (hs : s.pc = .waitRoom d m) (hfull : m = s.txTail) :
    s.txHead ≠ s.txTail := by
  have hhere := h.here
  simp only [AwakeAt, hs] at hhere
  rw [← hfull, hhere.2]
  exact (ringNext_ne hpos hk s.txHead).symm

/-- The events that end the wait for the transmit interrupt. -/
def nextInterrupt (s : UartTx) : List UartTxEvent :=
  if s.u1ti then [.isr] else [.sent, .isr]

/-- Waiting on a full ring, the main program finds room after the next
interrupt, and that interrupt comes. -/
theorem Awake.room (hpos : 1 ≤ k) (hk : k ≤ 8) (h : Awake (2 ^ k) s)
    {d m : UInt8} (hs : s.pc = .waitRoom d m) (hfull : m = s.txTail) :
    ∃ s', runs (guarded startAtomic (uartTxStep (2 ^ k))) s (nextInterrupt s) =
        some s' ∧ s'.pc = .waitRoom d m ∧ m ≠ s'.txTail := by
  have hnonempty := h.full hpos hk hs hfull
  have hactive := (h.sending (.inr ⟨d, m, hs⟩) hnonempty).2
  have hmoved : m ≠ ringNext (2 ^ k) s.txTail := by
    rw [hfull]
    exact (ringNext_ne hpos hk s.txTail).symm
  by_cases hti : s.u1ti = true
  · refine ⟨uartIsrTransmit (2 ^ k) s, ?_, ?_, ?_⟩ <;>
      simp [nextInterrupt, hti, guarded, startAtomic, hs, uartTxStep,
        uartIsrTransmit, hnonempty, UartTx.storeSbuf1, hmoved]
  · have hflight := hactive.resolve_right hti
    refine ⟨uartIsrTransmit (2 ^ k) { s with inFlight := false, u1ti := true },
      ?_, ?_, ?_⟩ <;>
      simp [nextInterrupt, hti, hflight, guarded, startAtomic, hs, uartTxStep,
        uartIsrTransmit, hnonempty, UartTx.storeSbuf1, hmoved]

/-- No lost wake-up, whatever is written and wherever the interrupt comes but
between the two stores of `startAtomic`: while the main program is outside
`uart_write` or waits for room, a ring that holds something is being sent; a
transmitter that is not busy rests; and the wait for room ends with the next
interrupt. -/
theorem uart_wakes {buf : Nat → UInt8} {es : List UartTxEvent} (hpos : 1 ≤ k)
    (hk : k ≤ 7)
    (h : runs (guarded startAtomic (uartTxStep (2 ^ k))) (uartTxInit buf) es =
      some s) :
    (s.pc = .outside ∨ (∃ d m, s.pc = .waitRoom d m) →
        s.txHead ≠ s.txTail → s.txBusy = true ∧ Active s) ∧
      (s.txBusy = false → Quiet s) ∧
      ∀ d m, s.pc = .waitRoom d m → m = s.txTail →
        Active s ∧ ∃ s',
          runs (guarded startAtomic (uartTxStep (2 ^ k))) s (nextInterrupt s) =
            some s' ∧ s'.pc = .waitRoom d m ∧ m ≠ s'.txTail := by
  have hk8 := Nat.le_succ_of_le hk
  have hawake := awake_run h
  refine ⟨hawake.sending, hawake.busy, ?_⟩
  intro d m hs hfull
  have hnonempty := hawake.full hpos hk8 hs hfull
  exact ⟨(hawake.sending (.inr ⟨d, m, hs⟩) hnonempty).2,
    hawake.room hpos hk8 hs hfull⟩

/-- Three bytes for a ring of two cells: the last one waits for room. -/
def uartFull : List UartTxEvent :=
  .call (.uartPrint [0x41, 0x42, 0x43]) :: List.replicate 24 .main

theorem uart_wakes_full :
    ∃ s, runs (guarded startAtomic (uartTxStep (2 ^ 1))) (uartTxInit fun _ => 0)
        uartFull = some s ∧ s.pc = .waitRoom 0x43 s.txTail ∧
      (s.pc = .outside ∨ (∃ d m, s.pc = .waitRoom d m) →
        s.txHead ≠ s.txTail → s.txBusy = true ∧ Active s) ∧
      (s.txBusy = false → Quiet s) ∧
      ∀ d m, s.pc = .waitRoom d m → m = s.txTail →
        Active s ∧ ∃ s',
          runs (guarded startAtomic (uartTxStep (2 ^ 1))) s (nextInterrupt s) =
            some s' ∧ s'.pc = .waitRoom d m ∧ m ≠ s'.txTail := by
  have hrun : (runs (guarded startAtomic (uartTxStep (2 ^ 1)))
      (uartTxInit fun _ => 0) uartFull).map (fun s => (s.pc, s.txTail)) =
        some (.waitRoom 0x43 1, 1) := rfl
  obtain ⟨s, hs, hlast⟩ := Option.map_eq_some_iff.mp hrun
  obtain ⟨hpc, htail⟩ := Prod.mk.injEq .. ▸ hlast
  exact ⟨s, hs, by rw [hpc, htail], uart_wakes (by decide) (by decide) hs⟩

end Ch552e.Proofs
