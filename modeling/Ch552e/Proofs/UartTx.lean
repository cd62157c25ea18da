import Ch552e.Proofs.RingSteps

/-!
# What the transmitter is given

The transmit ring has two consumers, `uart_write` itself and the interrupt, and
`tx_busy` is all that keeps them apart. It does so but for two windows
(`unhurried` names them): between the main program's store to `SBUF1` and its
store to `tx_tail` the interrupt would send the same byte again, and between
the store to `tx_head` and the test of `tx_busy` the interrupt can empty the
ring and go idle, so that the main program starts the transmitter on a ring
with nothing in it.

`Sends` is the invariant where neither happens: what was written is what was
stored in `SBUF1`, then the queue the ring holds, then the byte in hand.
-/

namespace Ch552e.Proofs

open Ch552e.Lib Ch552e.Lib.Ring Ch552e.Ref

def unhurried (s : UartTx) : UartTxEvent → Bool
  | .isr =>
      match s.pc with
      | .readTailAgain | .storeTail _ => false
      | .testBusy => s.txHead ≠ s.txTail
      | _ => true
  | .call _ | .main | .sent => true

def Quiet (s : UartTx) : Prop := s.inFlight = false ∧ s.u1ti = false

def inHand (s : UartTx) : List UInt8 :=
  match s.pc with
  | .readHead data | .waitRoom data _ | .readIndex data _
  | .storeByte data _ _ => [data]
  | .storeHead _ => [s.txBuffer s.txHead.toNat]
  | .outside | .testBusy | .setBusy | .readTail | .readByte _ | .storeSbuf1 _
  | .readTailAgain | .storeTail _ => []

/-- The part of the queue `q` not stored in `SBUF1` yet: the main program
stores before it releases. -/
def unsent (s : UartTx) (q : List UInt8) : List UInt8 :=
  match s.pc with
  | .readTailAgain | .storeTail _ => q.tail
  | .outside | .readHead _ | .waitRoom _ _ | .readIndex _ _ | .storeByte _ _ _
  | .storeHead _ | .testBusy | .setBusy | .readTail | .readByte _
  | .storeSbuf1 _ => q

/-- What holds at each access, of what has been read so far. -/
def At (n : Nat) (s : UartTx) (q : List UInt8) : Prop :=
  match s.pc with
  | .outside | .readHead _ => True
  | .waitRoom _ nextHead => nextHead.toNat = (s.txHead.toNat + 1) % n
  | .readIndex _ nextHead | .storeHead nextHead =>
      nextHead.toNat = (s.txHead.toNat + 1) % n ∧ q.length + 1 < n
  | .storeByte _ nextHead index =>
      nextHead.toNat = (s.txHead.toNat + 1) % n ∧ q.length + 1 < n ∧
        index = s.txHead
  | .testBusy => q ≠ [] ∨ s.txBusy = true
  | .setBusy => q ≠ [] ∧ Quiet s
  | .readTail => q ≠ [] ∧ Quiet s ∧ s.txBusy = true
  | .readByte tail => q ≠ [] ∧ Quiet s ∧ s.txBusy = true ∧ tail = s.txTail
  | .storeSbuf1 byte => Quiet s ∧ s.txBusy = true ∧ q.head? = some byte
  | .readTailAgain => q ≠ []
  | .storeTail tail => q ≠ [] ∧ tail = s.txTail

/-- The invariant, with the queue the ring holds. -/
structure Sends (n : Nat) (s : UartTx) (q : List UInt8) : Prop where
  ring : Holds n s.txBuffer s.txTail.toNat s.txHead.toNat q
  order : s.written = s.stored ++ (unsent s q ++ inHand s)
  count : s.heads = s.tails + q.length
  line : s.inFlight = false ∨ s.u1ti = false
  busy : s.txBusy = false → Quiet s
  here : At n s q

variable {k : Nat} {s s' : UartTx} {q : List UInt8}

/-! ## The transmitter -/

theorem Sends.busy_of_not_quiet {n : Nat} (h : Sends n s q) (hw : ¬ Quiet s) :
    s.txBusy = true := by
  by_contra hb
  exact hw (h.busy (by simpa using hb))

/-- Where the interrupt can come, all of the queue is unsent. -/
theorem unsent_of_unhurried (hok : unhurried s .isr = true) : unsent s q = q := by
  match hs : s.pc with
  | .outside | .readHead _ | .waitRoom _ _ | .readIndex _ _ | .storeByte _ _ _
  | .storeHead _ | .testBusy | .setBusy | .readTail | .readByte _
  | .storeSbuf1 _ => simp only [unsent, hs]
  | .readTailAgain | .storeTail _ => simp [unhurried, hs] at hok

/-- What holds at an access still holds after the transmitter did something
that leaves the main program where it is and the queue no longer than it
was. -/
theorem At.transmit {n : Nat} {q' : List UInt8} (h : At n s q) (hw : ¬ Quiet s)
    (hpc : s'.pc = s.pc) (hhead : s'.txHead = s.txHead)
    (hlen : q'.length ≤ q.length)
    (htest : s.pc = .testBusy → q' ≠ [] ∨ s'.txBusy = true)
    (htail : unhurried s .isr = true ∨ q' = q ∧ s'.txTail = s.txTail) :
    At n s' q' := by
  match hs : s.pc with
  | .outside | .readHead _ => simp only [At, hpc, hs]
  | .waitRoom _ _ =>
      simp only [At, hpc, hs, hhead] at h ⊢
      exact h
  | .readIndex _ _ | .storeHead _ =>
      simp only [At, hpc, hs, hhead] at h ⊢
      exact ⟨h.1, by omega⟩
  | .storeByte _ _ _ =>
      simp only [At, hpc, hs, hhead] at h ⊢
      exact ⟨h.1, by omega, h.2.2⟩
  | .testBusy =>
      simp only [At, hpc, hs]
      exact htest hs
  | .setBusy =>
      simp only [At, hs] at h
      exact absurd h.2 hw
  | .readTail | .readByte _ =>
      simp only [At, hs] at h
      exact absurd h.2.1 hw
  | .storeSbuf1 _ =>
      simp only [At, hs] at h
      exact absurd h.1 hw
  | .readTailAgain | .storeTail _ =>
      rcases htail with hok | ⟨hq, ht⟩
      · simp [unhurried, hs] at hok
      · simp only [At, hpc, hs, hq, ht] at h ⊢
        exact h

/-- The interrupt finds the ring empty and lets the transmitter go idle. -/
theorem sends_drained {n : Nat} (h : Sends n s q) (hti : s.u1ti = true)
    (hempty : s.txHead = s.txTail) (hok : unhurried s .isr = true) :
    Sends n { s with txBusy := false, u1ti := false } q := by
  have hw : ¬ Quiet s := by
    intro hq
    simp [hq.2] at hti
  have hflight : s.inFlight = false :=
    h.line.resolve_right fun hl => by simp [hl] at hti
  refine ⟨h.ring, h.order, h.count, .inr rfl, fun _ => ⟨hflight, rfl⟩,
    h.here.transmit hw rfl rfl (Nat.le_refl _) ?_ (.inl hok)⟩
  intro htest
  simp [unhurried, htest, hempty] at hok

/-- The interrupt sends the front of the queue. -/
theorem sends_sendNext (hk : k ≤ 8) (h : Sends (2 ^ k) s q)
    (hti : s.u1ti = true) (hne : s.txHead ≠ s.txTail)
    (hok : unhurried s .isr = true) :
    ∃ q', Sends (2 ^ k) { s with
      stored := s.stored ++ [s.txBuffer s.txTail.toNat]
      inFlight := true
      txTail := ringNext (2 ^ k) s.txTail
      tails := s.tails + 1
      u1ti := false } q' := by
  have hw : ¬ Quiet s := by
    intro hq
    simp [hq.2] at hti
  have hbusy := h.busy_of_not_quiet hw
  cases q with
  | nil => exact absurd ((ring_empty_iff h.ring).mpr rfl) hne
  | cons x q' =>
      have hfront := h.ring.front
      have hcount := h.count
      have horder := h.order
      rw [unsent_of_unhurried hok] at horder
      rw [List.length_cons] at hcount
      refine ⟨q', ?_, ?_, ?_, .inr rfl, ?_,
        h.here.transmit hw rfl rfl (by simp) (fun _ => .inr hbusy) (.inl hok)⟩
      · exact ring_release hk h.ring
      · show s.written = s.stored ++ [s.txBuffer s.txTail.toNat] ++
          (unsent s q' ++ inHand s)
        rw [unsent_of_unhurried hok, hfront, horder]
        simp
      · show s.heads = s.tails + 1 + q'.length
        omega
      · intro hb
        rw [show s.txBusy = false from hb] at hbusy
        exact absurd hbusy (by simp)

theorem sends_sent {n : Nat} (h : Sends n s q) (hflight : s.inFlight = true) :
    Sends n { s with inFlight := false, u1ti := true } q := by
  have hw : ¬ Quiet s := by
    intro hq
    simp [hq.1] at hflight
  have hbusy := h.busy_of_not_quiet hw
  refine ⟨h.ring, h.order, h.count, .inl rfl, ?_,
    h.here.transmit hw rfl rfl (Nat.le_refl _) (fun _ => .inr hbusy)
      (.inr ⟨rfl, rfl⟩)⟩
  intro hb
  rw [show s.txBusy = false from hb] at hbusy
  exact absurd hbusy (by simp)

/-! ## The main program -/

/-- The wait ends: the ring is not full. -/
theorem sends_room {data nextHead : UInt8} (h : Sends (2 ^ k) s q)
    (hs : s.pc = .waitRoom data nextHead) (hroom : nextHead ≠ s.txTail) :
    Sends (2 ^ k) { s with pc := .readIndex data nextHead } q := by
  have horder := h.order
  have hhere := h.here
  simp only [unsent, inHand, hs] at horder
  simp only [At, hs] at hhere
  have hfull : q.length + 1 ≠ 2 ^ k := by
    intro heq
    exact hroom (UInt8.toNat_inj.mp (hhere.trans (h.ring.full_iff.mpr heq)))
  have hlt := h.ring.room
  exact ⟨h.ring, horder, h.count, h.line, h.busy, hhere, by omega⟩

theorem sends_storeByte {n : Nat} {data nextHead index : UInt8}
    (h : Sends n s q) (hs : s.pc = .storeByte data nextHead index) :
    Sends n { s with
      txBuffer := Function.update s.txBuffer index.toNat data
      pc := .storeHead nextHead } q := by
  have horder := h.order
  have hhere := h.here
  simp only [unsent, inHand, hs] at horder
  simp only [At, hs] at hhere
  obtain ⟨hnext, hroom, rfl⟩ := hhere
  refine ⟨h.ring.store data, ?_, h.count, h.line, h.busy, hnext, hroom⟩
  simpa [unsent, inHand] using horder

/-- The store of `tx_head`: the byte in hand joins the queue. -/
theorem sends_storeHead {n : Nat} {nextHead : UInt8} (h : Sends n s q)
    (hs : s.pc = .storeHead nextHead) :
    Sends n { s with
      txHead := nextHead
      heads := s.heads + 1
      pc := .testBusy } (q ++ [s.txBuffer s.txHead.toNat]) := by
  have horder := h.order
  have hhere := h.here
  simp only [unsent, inHand, hs] at horder
  simp only [At, hs] at hhere
  refine ⟨?_, ?_, ?_, h.line, h.busy, .inl (by simp)⟩
  · simp only [hhere.1]
    exact h.ring.publish hhere.2
  · simpa [unsent, inHand] using horder
  · simp only [List.length_append, List.length_singleton, h.count]
    omega

theorem sends_readByte {n : Nat} {tail : UInt8} (h : Sends n s q)
    (hs : s.pc = .readByte tail) :
    Sends n { s with pc := .storeSbuf1 (s.txBuffer tail.toNat) } q := by
  have horder := h.order
  have hhere := h.here
  simp only [unsent, inHand, hs] at horder
  simp only [At, hs] at hhere
  obtain ⟨hne, hquiet, hb, rfl⟩ := hhere
  refine ⟨h.ring, horder, h.count, h.line, h.busy, hquiet, hb, ?_⟩
  obtain ⟨x, q', rfl⟩ := List.exists_cons_of_ne_nil hne
  rw [h.ring.front]
  rfl

/-- The front of the queue goes out before it is released. -/
theorem sends_storeSbuf1 {n : Nat} {byte : UInt8} (h : Sends n s q)
    (hs : s.pc = .storeSbuf1 byte) :
    Sends n { s with
      stored := s.stored ++ [byte]
      inFlight := true
      pc := .readTailAgain } q := by
  have horder := h.order
  have hhere := h.here
  simp only [unsent, inHand, hs] at horder
  simp only [At, hs] at hhere
  obtain ⟨hquiet, hb, hfront⟩ := hhere
  obtain ⟨q', rfl⟩ := List.head?_eq_some_iff.mp hfront
  refine ⟨h.ring, ?_, h.count, .inr hquiet.2, ?_, by simp [At]⟩
  · simpa [unsent, inHand] using horder
  · intro hf
    rw [show s.txBusy = false from hf] at hb
    exact absurd hb (by simp)

theorem sends_storeTail {tail : UInt8} (hk : k ≤ 8) (h : Sends (2 ^ k) s q)
    (hs : s.pc = .storeTail tail) :
    ∃ q', Sends (2 ^ k) { s with
      txTail := ringNext (2 ^ k) tail
      tails := s.tails + 1
      pc := .outside } q' := by
  have horder := h.order
  have hcount := h.count
  have hhere := h.here
  simp only [unsent, inHand, hs] at horder
  simp only [At, hs] at hhere
  obtain ⟨hne, rfl⟩ := hhere
  obtain ⟨x, q', rfl⟩ := List.exists_cons_of_ne_nil hne
  refine ⟨q', ?_, horder, ?_, h.line, h.busy, trivial⟩
  · exact ring_release hk h.ring
  · rw [List.length_cons] at hcount
    show s.heads = s.tails + 1 + q'.length
    omega

theorem sends_main (hk : k ≤ 8) (h : Sends (2 ^ k) s q)
    (hstep : WriteStep (2 ^ k) s s') : ∃ q', Sends (2 ^ k) s' q' := by
  have horder := h.order
  have hhere := h.here
  cases hstep with
  | outside hs _ =>
      simp only [unsent, inHand, hs] at horder
      refine ⟨q, h.ring, ?_, h.count, h.line, h.busy, trivial⟩
      simp [unsent, inHand, horder]
  | readHead hs =>
      simp only [unsent, inHand, hs] at horder
      exact ⟨q, h.ring, horder, h.count, h.line, h.busy, toNat_ringNext hk _⟩
  | full _ _ => exact ⟨q, h⟩
  | room hs hroom => exact ⟨q, sends_room h hs hroom⟩
  | readIndex hs =>
      simp only [unsent, inHand, hs] at horder
      simp only [At, hs] at hhere
      exact ⟨q, h.ring, horder, h.count, h.line, h.busy, hhere.1, hhere.2, rfl⟩
  | storeByte hs => exact ⟨q, sends_storeByte h hs⟩
  | storeHead hs => exact ⟨_, sends_storeHead h hs⟩
  | busy hs _ =>
      simp only [unsent, inHand, hs] at horder
      exact ⟨q, h.ring, horder, h.count, h.line, h.busy, trivial⟩
  | idle hs hidle =>
      simp only [unsent, inHand, hs] at horder
      simp only [At, hs] at hhere
      have hne : q ≠ [] := hhere.resolve_right (by simp [hidle])
      exact ⟨q, h.ring, horder, h.count, h.line, h.busy, hne, h.busy hidle⟩
  | setBusy hs =>
      simp only [unsent, inHand, hs] at horder
      simp only [At, hs] at hhere
      exact ⟨q, h.ring, horder, h.count, h.line, fun hf => absurd hf (by simp),
        hhere.1, hhere.2, rfl⟩
  | readTail hs =>
      simp only [unsent, inHand, hs] at horder
      simp only [At, hs] at hhere
      exact ⟨q, h.ring, horder, h.count, h.line, h.busy, hhere.1, hhere.2.1,
        hhere.2.2, rfl⟩
  | readByte hs => exact ⟨q, sends_readByte h hs⟩
  | storeSbuf1 hs => exact ⟨q, sends_storeSbuf1 h hs⟩
  | readTailAgain hs =>
      simp only [unsent, inHand, hs] at horder
      simp only [At, hs] at hhere
      exact ⟨q, h.ring, horder, h.count, h.line, h.busy, hhere, rfl⟩
  | storeTail hs => exact sends_storeTail hk h hs

/-! ## Runs -/

theorem sends_step {e : UartTxEvent} (hk : k ≤ 8) (h : Sends (2 ^ k) s q)
    (hstep : guarded unhurried (uartTxStep (2 ^ k)) s e = some s') :
    ∃ q', Sends (2 ^ k) s' q' := by
  obtain ⟨hok, hstep⟩ := guarded_eq_some hstep
  cases uartTxStep_event hstep with
  | call c _ _ =>
      exact ⟨q, h.ring, h.order, h.count, h.line, h.busy, h.here⟩
  | main hmain => exact sends_main hk h hmain
  | sent hflight => exact ⟨q, sends_sent h hflight⟩
  | drained hti hempty => exact ⟨q, sends_drained h hti hempty hok⟩
  | sendNext hti hne => exact sends_sendNext hk h hti hne hok

theorem sends_init (buf : Nat → UInt8) : Sends (2 ^ k) (uartTxInit buf) [] where
  ring := Holds.empty (Nat.two_pow_pos k)
  order := rfl
  count := rfl
  line := .inl rfl
  busy := fun _ => ⟨rfl, rfl⟩
  here := trivial

theorem sends_run {buf : Nat → UInt8} {es : List UartTxEvent} (hk : k ≤ 8)
    (h : runs (guarded unhurried (uartTxStep (2 ^ k))) (uartTxInit buf) es =
      some s) : ∃ q, Sends (2 ^ k) s q :=
  runs_inv (I := fun s => ∃ q, Sends (2 ^ k) s q)
    (fun _ _ _ ⟨_, hq⟩ hstep => sends_step hk hq hstep) ⟨[], sends_init buf⟩ h

/-- As long as the interrupt stays out of the two windows, `SBUF1` is stored
exactly what was written: nothing is lost, repeated or out of order, what is
missing outside `uart_write` is what the ring holds, and the tail never gets
ahead of the head. -/
theorem uart_delivers {buf : Nat → UInt8} {es : List UartTxEvent} (hk : k ≤ 7)
    (h : runs (guarded unhurried (uartTxStep (2 ^ k))) (uartTxInit buf) es =
      some s) :
    s.stored <+: s.written ∧
      (s.pc = .outside → s.written = s.stored ++
        contents (2 ^ k) s.txBuffer s.txTail.toNat s.txHead.toNat) ∧
      s.tails ≤ s.heads ∧ s.heads < s.tails + 2 ^ k := by
  obtain ⟨q, hq⟩ := sends_run (Nat.le_succ_of_le hk) h
  have hcount := hq.count
  have hroom := hq.ring.room
  refine ⟨⟨_, hq.order.symm⟩, ?_, by omega, by omega⟩
  intro hout
  have horder := hq.order
  simp only [unsent, inHand, hout, List.append_nil] at horder
  rw [← hq.ring.eq_contents]
  exact horder

def uartTwoBytes : List UartTxEvent :=
  .call (.uartPrintHex 0x4F) :: List.replicate 20 .main ++ [.sent, .isr, .sent, .isr]

theorem uart_delivers_two_bytes :
    ∃ s, runs (guarded unhurried (uartTxStep (2 ^ 5))) (uartTxInit fun _ => 0)
          uartTwoBytes = some s ∧
      s.stored <+: s.written ∧
      (s.pc = .outside → s.written = s.stored ++
        contents (2 ^ 5) s.txBuffer s.txTail.toNat s.txHead.toNat) ∧
      s.tails ≤ s.heads ∧ s.heads < s.tails + 2 ^ 5 := by
  have hsome : (runs (guarded unhurried (uartTxStep (2 ^ 5)))
      (uartTxInit fun _ => 0) uartTwoBytes).isSome := rfl
  obtain ⟨s, hs⟩ := Option.isSome_iff_exists.mp hsome
  exact ⟨s, hs, uart_delivers (by decide) hs⟩

/-! ## The two windows -/

/-- The byte is sent while the main program is between its stores to `SBUF1`
and `tx_tail`. -/
def uartSentTwice : List UartTxEvent :=
  .call (.uartWrite 0x41) :: List.replicate 11 .main ++
    [.sent, .isr, .main, .main]

/-- The second byte is sent, and the transmitter goes idle, while the main
program is between its store to `tx_head` and its test of `tx_busy`. -/
def uartStartedEmpty : List UartTxEvent :=
  .call (.uartWrite 0x41) :: List.replicate 13 .main ++
    .call (.uartWrite 0x42) :: List.replicate 6 .main ++
    [.sent, .isr, .sent, .isr] ++ List.replicate 7 .main

/-- In either window the interrupt makes the transmitter send a byte that was
not written, and `tx_tail` passes `tx_head`. -/
theorem uart_windows :
    (∃ s, runs (uartTxStep (2 ^ 5)) (uartTxInit fun _ => 0) uartSentTwice =
        some s ∧ ¬ s.stored <+: s.written ∧ ¬ s.tails ≤ s.heads) ∧
      ∃ s, runs (uartTxStep (2 ^ 5)) (uartTxInit fun _ => 0) uartStartedEmpty =
        some s ∧ ¬ s.stored <+: s.written ∧ ¬ s.tails ≤ s.heads := by
  have htwice : (runs (uartTxStep (2 ^ 5)) (uartTxInit fun _ => 0)
      uartSentTwice).map (fun s => (s.written, s.stored, s.heads, s.tails)) =
      some ([0x41], [0x41, 0x41], 1, 2) := rfl
  have hempty : (runs (uartTxStep (2 ^ 5)) (uartTxInit fun _ => 0)
      uartStartedEmpty).map (fun s => (s.written, s.stored, s.heads, s.tails)) =
      some ([0x41, 0x42], [0x41, 0x42, 0], 2, 3) := rfl
  obtain ⟨s, hs, heq⟩ := Option.map_eq_some_iff.mp htwice
  obtain ⟨t, ht, heqt⟩ := Option.map_eq_some_iff.mp hempty
  simp only [Prod.mk.injEq] at heq heqt
  obtain ⟨hw, hst, hh, htl⟩ := heq
  obtain ⟨hw', hst', hh', htl'⟩ := heqt
  refine ⟨⟨s, hs, ?_, by omega⟩, t, ht, ?_, by omega⟩
  · rw [hw, hst]
    decide
  · rw [hw', hst']
    decide

end Ch552e.Proofs
