import Ch552e.Proofs.RingSteps

/-!
# What the receiver hands on

The receive ring has one producer, the interrupt, and one consumer,
`uart_read`. `Receives` is the invariant: what was stored is what was returned
and then the queue the ring holds. The interrupt only adds behind that queue,
so what the main program has found out about its front stays true however
often it is interrupted (`ReadAt.push`).
-/

namespace Ch552e.Proofs

open Ch552e.Lib Ch552e.Lib.Ring Ch552e.Ref

/-- What holds at each access, of what has been read so far. -/
def ReadAt (s : UartRx) (q : List UInt8) : Prop :=
  match s.pc with
  | .outside | .availableHead => s.spins = 0
  | .availableTail head => s.spins = 0 ∧ head = s.rxHead
  | .spinHead => True
  | .spinTail head => head = s.rxHead
  | .readIndex => q ≠ []
  | .readByte index => q ≠ [] ∧ index = s.rxHead
  | .readHeadAgain data => q.head? = some data
  | .storeHead data head => q.head? = some data ∧ head = s.rxHead

/-- The invariant, with the queue the ring holds. -/
structure Receives (n : Nat) (s : UartRx) (q : List UInt8) : Prop where
  ring : Holds n s.rxBuffer s.rxHead.toNat s.rxTail.toNat q
  order : s.accepted = s.returned ++ q
  here : ReadAt s q
  known : s.available = true → q ≠ [] ∧ s.spins = 0

variable {k : Nat} {s s' : UartRx} {q : List UInt8}

/-! ## The interrupt -/

/-- A byte stored behind the queue changes nothing the main program relies
on. -/
theorem ReadAt.push (h : ReadAt s q) (data : UInt8) (hpc : s'.pc = s.pc)
    (hhead : s'.rxHead = s.rxHead) (hspins : s'.spins = s.spins) :
    ReadAt s' (q ++ [data]) := by
  have hfront : ∀ x, q.head? = some x → (q ++ [data]).head? = some x := by
    intro x hx
    rw [List.head?_append, hx]
    rfl
  match hs : s.pc with
  | .spinHead => simp only [ReadAt, hpc, hs]
  | .outside | .availableHead | .availableTail _ | .spinTail _ =>
      simp only [ReadAt, hpc, hs, hhead, hspins] at h ⊢
      exact h
  | .readIndex => simp [ReadAt, hpc, hs]
  | .readByte _ =>
      simp only [ReadAt, hpc, hs, hhead] at h ⊢
      exact ⟨by simp, h.2⟩
  | .readHeadAgain _ =>
      simp only [ReadAt, hpc, hs] at h ⊢
      exact hfront _ h
  | .storeHead _ _ =>
      simp only [ReadAt, hpc, hs, hhead] at h ⊢
      exact ⟨hfront _ h.1, h.2⟩

theorem receives_stored (hk : k ≤ 8) (h : Receives (2 ^ k) s q) (data : UInt8)
    (hroom : ringNext (2 ^ k) s.rxTail ≠ s.rxHead) :
    Receives (2 ^ k) { s with
      rxBuffer := Function.update s.rxBuffer s.rxTail.toNat data
      rxTail := ringNext (2 ^ k) s.rxTail
      accepted := s.accepted ++ [data] } (q ++ [data]) where
  ring := ring_push hk data h.ring hroom
  order := by
    show s.accepted ++ [data] = s.returned ++ (q ++ [data])
    rw [h.order, List.append_assoc]
  here := h.here.push data rfl rfl rfl
  known := fun hav => ⟨by simp, (h.known hav).2⟩

/-! ## The main program -/

/-- The ring is found empty: `uart_available` has not returned true. -/
theorem receives_empty {n : Nat} {head : UInt8} (h : Receives n s q)
    (hs : s.pc = .spinTail head) (hempty : head = s.rxTail) :
    Receives n { s with pc := .spinHead, spins := s.spins + 1 } q := by
  have hhere := h.here
  simp only [ReadAt, hs] at hhere
  have hnil : q = [] := (ring_empty_iff h.ring).mp (by rw [← hempty, hhere])
  exact ⟨h.ring, h.order, trivial, fun hav => absurd hnil (h.known hav).1⟩

theorem receives_found {n : Nat} {head : UInt8} (h : Receives n s q)
    (hs : s.pc = .spinTail head) (hne : head ≠ s.rxTail) :
    Receives n { s with pc := .readIndex } q := by
  have hhere := h.here
  simp only [ReadAt, hs] at hhere
  refine ⟨h.ring, h.order, ?_, h.known⟩
  intro hnil
  exact hne (hhere.trans ((ring_empty_iff h.ring).mpr hnil).symm)

theorem receives_storeHead {data head : UInt8} (hk : k ≤ 8)
    (h : Receives (2 ^ k) s q) (hs : s.pc = .storeHead data head) :
    ∃ q', Receives (2 ^ k) { s with
      rxHead := ringNext (2 ^ k) head
      pc := .outside
      returned := s.returned ++ [data]
      available := false
      spins := 0 } q' := by
  have hhere := h.here
  simp only [ReadAt, hs] at hhere
  obtain ⟨hfront, rfl⟩ := hhere
  obtain ⟨q', rfl⟩ := List.head?_eq_some_iff.mp hfront
  refine ⟨q', ring_release hk h.ring, ?_, rfl, fun hav => absurd hav (by simp)⟩
  simp only [h.order, List.append_assoc]
  rfl

/-- `uart_available` returns: true only where it saw something. -/
theorem receives_availableTail {n : Nat} {head : UInt8} (h : Receives n s q)
    (hs : s.pc = .availableTail head) :
    Receives n { s with
      pc := .outside
      available := s.available || head ≠ s.rxTail } q := by
  have hhere := h.here
  simp only [ReadAt, hs] at hhere
  obtain ⟨hspins, rfl⟩ := hhere
  refine ⟨h.ring, h.order, hspins, ?_⟩
  intro hav
  simp only [Bool.or_eq_true, decide_eq_true_eq] at hav
  rcases hav with hav | hne
  · exact h.known hav
  · refine ⟨fun hnil => hne ?_, hspins⟩
    exact ((ring_empty_iff h.ring).mpr hnil).symm

theorem receives_main (hk : k ≤ 8) (h : Receives (2 ^ k) s q)
    (hstep : ReadStep (2 ^ k) s s') : ∃ q', Receives (2 ^ k) s' q' := by
  have hhere := h.here
  cases hstep with
  | spinHead _ => exact ⟨q, h.ring, h.order, rfl, h.known⟩
  | empty hs hempty => exact ⟨q, receives_empty h hs hempty⟩
  | found hs hne => exact ⟨q, receives_found h hs hne⟩
  | readIndex hs | readHeadAgain hs | availableHead hs =>
      simp only [ReadAt, hs] at hhere
      exact ⟨q, h.ring, h.order, ⟨hhere, rfl⟩, h.known⟩
  | readByte hs =>
      simp only [ReadAt, hs] at hhere
      obtain ⟨hne, rfl⟩ := hhere
      obtain ⟨x, q', rfl⟩ := List.exists_cons_of_ne_nil hne
      refine ⟨x :: q', h.ring, h.order, ?_, h.known⟩
      exact congrArg some h.ring.front.symm
  | storeHead hs => exact receives_storeHead hk h hs
  | availableTail hs => exact ⟨q, receives_availableTail h hs⟩

/-! ## Runs -/

theorem receives_step {e : UartRxEvent} (hk : k ≤ 8) (h : Receives (2 ^ k) s q)
    (hstep : uartRxStep (2 ^ k) s e = some s') :
    ∃ q', Receives (2 ^ k) s' q' := by
  cases uartRxStep_event hstep with
  | read _ => exact ⟨q, h.ring, h.order, trivial, h.known⟩
  | available hs =>
      have hspins := h.here
      simp only [ReadAt, hs] at hspins
      exact ⟨q, h.ring, h.order, hspins, h.known⟩
  | main hread => exact receives_main hk h hread
  | dropped _ _ => exact ⟨q, h⟩
  | stored data hroom => exact ⟨_, receives_stored hk h data hroom⟩

theorem receives_init (buf : Nat → UInt8) :
    Receives (2 ^ k) (uartRxInit buf) [] where
  ring := Holds.empty (Nat.two_pow_pos k)
  order := rfl
  here := rfl
  known := fun h => absurd h (by simp [uartRxInit])

theorem receives_run {buf : Nat → UInt8} {es : List UartRxEvent} (hk : k ≤ 8)
    (h : runs (uartRxStep (2 ^ k)) (uartRxInit buf) es = some s) :
    ∃ q, Receives (2 ^ k) s q :=
  runs_inv (I := fun s => ∃ q, Receives (2 ^ k) s q)
    (fun _ _ _ ⟨_, hq⟩ hstep => receives_step hk hq hstep)
    ⟨[], receives_init buf⟩ h

end Ch552e.Proofs
