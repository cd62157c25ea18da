import Ch552e.Proofs.RingSteps
import Ch552e.Ref.Main
import Ch552e.Ref.Xram
import Mathlib.Algebra.Order.Ring.Nat

/-!
# Which builds keep the xRAM buffers apart

Every write is a write to the event's own buffer as long as the indices are
below the sizes they are wrapped with (`boardStep_confined`). That they are is an
invariant (`Indexed`), but the queue keeps its index in the memory, so it needs
the buffers apart to begin with. Two sizes decide that: nothing checks the SETUP
queue or `rx_buffer` against the address of the object behind it. Of the sizes
that the preprocessor lets pass, the queue fits in front of `rx_buffer` up to 16
entries, and `rx_buffer` in front of `tx_buffer` up to 32 bytes.

Beyond these, a run that only fills the one buffer writes into the other.
-/

namespace Ch552e.Proofs

open Ch552e.Lib Ch552e.Ref

variable {c : Build} {b b' : Board}

/-- In every run, a step changes no byte of a buffer that is not its own. -/
def NonInterfering (c : Build) : Prop :=
  ∀ xram dev item es b e b',
    runs (boardStep c) (boardInit xram dev item) es = some b →
    boardStep c b e = some b' → ∀ buffer, buffer ≠ e.buffer →
    ∀ a, (c.region buffer).Has a → b'.xram a = b.xram a

/-! ## The queue in the memory -/

theorem toBytes_view (p : UsbSetupPacket) {i : Nat} (h : i < 8) :
    (UsbSetupFifoItem.view p).toBytes i = p.bytes ⟨i, h⟩ := by
  simp only [UsbSetupFifoItem.toBytes, UsbSetupFifoItem.view, lowByte_u16le,
    highByte_u16le]
  match i with
  | 0 | 1 | 2 | 3 | 4 | 5 | 6 | 7 => rfl

theorem toBytes_load (xram : Nat → UInt8) (i : Nat) {j : Nat} (h : j < 8) :
    ((loadFifo xram).entries i).toBytes j =
      xram (entriesAddress + (usbSetupFifoItemSize * i + j)) := by
  rw [← Nat.add_assoc]
  exact toBytes_view _ h

section StoreFifo

variable (xram : Nat → UInt8) (fifo : UsbSetupFifo)

theorem storeFifo_head : storeFifo xram fifo usbSetupFifoAddress = fifo.head := by
  rw [storeFifo, storeArray_of_lt (by decide),
    Function.update_of_ne (by decide), Function.update_self]

theorem storeFifo_tail :
    storeFifo xram fifo (usbSetupFifoAddress + 1) = fifo.tail := by
  rw [storeFifo, storeArray_of_lt (by decide), Function.update_self]

theorem storeFifo_before {a : Nat} (h : a < usbSetupFifoAddress) :
    storeFifo xram fifo a = xram a := by
  have hentries : entriesAddress = usbSetupFifoAddress + 2 := rfl
  rw [storeFifo, storeArray_of_lt (by omega),
    Function.update_of_ne (by omega), Function.update_of_ne (by omega)]

theorem storeFifo_entry (i : Nat) {j : Nat} (h : j < 8) :
    storeFifo xram fifo (entriesAddress + (usbSetupFifoItemSize * i + j)) =
      (fifo.entries i).toBytes j := by
  have hdiv : (usbSetupFifoItemSize * i + j) / usbSetupFifoItemSize = i := by
    rw [usbSetupFifoItemSize]
    omega
  have hmod : (usbSetupFifoItemSize * i + j) % usbSetupFifoItemSize = j := by
    rw [usbSetupFifoItemSize]
    omega
  rw [storeFifo, storeArray_add, hdiv, hmod]

end StoreFifo

/-- Every address is in front of the queue, one of its indices, or a byte of
an entry. -/
theorem fifo_address (a : Nat) :
    a < usbSetupFifoAddress ∨ a = usbSetupFifoAddress ∨
      a = usbSetupFifoAddress + 1 ∨
      ∃ i j, j < 8 ∧ a = entriesAddress + (usbSetupFifoItemSize * i + j) := by
  have hentries : entriesAddress = usbSetupFifoAddress + 2 := rfl
  by_cases h : a < entriesAddress
  · omega
  · refine .inr (.inr (.inr
      ⟨(a - entriesAddress) / 8, (a - entriesAddress) % 8, ?_, ?_⟩))
    · exact Nat.mod_lt _ (by decide)
    · rw [usbSetupFifoItemSize, Nat.div_add_mod]
      omega

/-- Storing a queue writes its indices and the entries that are new. -/
theorem storeFifo_eq {xram : Nat → UInt8} {fifo : UsbSetupFifo} {a : Nat}
    (hhead : a ≠ usbSetupFifoAddress) (htail : a ≠ usbSetupFifoAddress + 1)
    (hsame : ∀ i j, a = entriesAddress + (usbSetupFifoItemSize * i + j) →
      j < 8 → fifo.entries i = (loadFifo xram).entries i) :
    storeFifo xram fifo a = xram a := by
  rcases fifo_address a with h | h | h | ⟨i, j, hj, h⟩
  · exact storeFifo_before xram fifo h
  · exact absurd h hhead
  · exact absurd h htail
  · subst h
    rw [storeFifo_entry xram fifo i hj, hsame i j rfl hj, toBytes_load xram i hj]

theorem storeFifo_confined {xram : Nat → UInt8} {fifo : UsbSetupFifo}
    (hsame : ∀ i, c.fw.usbSetupFifoSize ≤ i →
      fifo.entries i = (loadFifo xram).entries i) :
    Confined (c.region .fifo) xram (storeFifo xram fifo) := by
  intro a ha
  have hentries : entriesAddress = usbSetupFifoAddress + 2 := rfl
  simp only [Build.region, Region.Has, usbSetupFifoItemSize, not_and,
    Nat.not_lt] at ha
  refine storeFifo_eq ?_ ?_ fun i j heq hj => hsame i ?_
  · rintro rfl
    have := ha (Nat.le_refl _)
    omega
  · rintro rfl
    have := ha (Nat.le_succ _)
    omega
  · rw [usbSetupFifoItemSize] at heq
    have := ha (by omega)
    omega

/-! ## The indices -/

theorem ringNext_lt {n : Nat} (hn : 0 < n) (i : UInt8) :
    (ringNext n i).toNat < n := by
  have hand : (i.toNat + 1) &&& (n - 1) ≤ n - 1 := Nat.and_le_right
  have hmod : ((i.toNat + 1) &&& (n - 1)) % 2 ^ 8 ≤ (i.toNat + 1) &&& (n - 1) :=
    Nat.mod_le _ _
  rw [ringNext, UInt8.toNat_ofNat']
  omega

/-- What a step of a ring's owner does to the array. -/
def WritesBelow (n : Nat) (buf buf' : Nat → UInt8) : Prop :=
  buf' = buf ∨ ∃ i v, i < n ∧ buf' = Function.update buf i v

theorem storeArray_confined {n base : Nat} {mem cells : Nat → UInt8}
    (h : WritesBelow n (loadArray mem base) cells) :
    Confined ⟨base, n⟩ mem (storeArray mem base cells) := by
  rcases h with rfl | ⟨i, v, hi, rfl⟩
  · rw [storeArray_loadArray]
    exact .refl _ mem
  · rw [storeArray_update]
    exact confined_update ⟨Nat.le_add_right _ _, Nat.add_lt_add_left hi _⟩ v

theorem rx_writes {n : Nat} {s s' : UartRx} {e : UartRxEvent}
    (hs : s.rxTail.toNat < n) (h : uartRxStep n s e = some s') :
    s'.rxTail.toNat < n ∧ WritesBelow n s.rxBuffer s'.rxBuffer := by
  have hn : 0 < n := Nat.lt_of_le_of_lt (Nat.zero_le _) hs
  cases uartRxStep_event h with
  | read _ | available _ | dropped _ _ => exact ⟨hs, .inl rfl⟩
  | main hread =>
      cases hread with
      | spinHead _ | empty _ _ | found _ _ | readIndex _ | readByte _
      | readHeadAgain _ | storeHead _ | availableHead _ | availableTail _ =>
          exact ⟨hs, .inl rfl⟩
  | stored data _ => exact ⟨ringNext_lt hn _, .inr ⟨_, _, hs, rfl⟩⟩

/-- The indices the program counter of `uart_write` carries. -/
def PcBelow (n : Nat) : WritePc → Prop
  | .waitRoom _ nextHead | .readIndex _ nextHead | .storeHead nextHead =>
      nextHead.toNat < n
  | .storeByte _ nextHead index => nextHead.toNat < n ∧ index.toNat < n
  | .outside | .readHead _ | .testBusy | .setBusy | .readTail | .readByte _
  | .storeSbuf1 _ | .readTailAgain | .storeTail _ => True

structure TxBelow (n : Nat) (s : UartTx) : Prop where
  head : s.txHead.toNat < n
  pc : PcBelow n s.pc

theorem tx_main_writes {n : Nat} {s s' : UartTx} (hs : TxBelow n s)
    (h : WriteStep n s s') :
    TxBelow n s' ∧ WritesBelow n s.txBuffer s'.txBuffer := by
  have hn : 0 < n := Nat.lt_of_le_of_lt (Nat.zero_le _) hs.head
  have hpc := hs.pc
  cases h with
  | readHead _ => exact ⟨⟨hs.head, ringNext_lt hn _⟩, .inl rfl⟩
  | full _ _ => exact ⟨hs, .inl rfl⟩
  | room heq _ =>
      rw [heq] at hpc
      exact ⟨⟨hs.head, hpc⟩, .inl rfl⟩
  | readIndex heq =>
      rw [heq] at hpc
      exact ⟨⟨hs.head, hpc, hs.head⟩, .inl rfl⟩
  | storeByte heq =>
      rw [heq] at hpc
      exact ⟨⟨hs.head, hpc.1⟩, .inr ⟨_, _, hpc.2, rfl⟩⟩
  | storeHead heq =>
      rw [heq] at hpc
      exact ⟨⟨hpc, trivial⟩, .inl rfl⟩
  | outside _ _ | busy _ _ | idle _ _ | setBusy _ | readTail _ | readByte _
  | storeSbuf1 _ | readTailAgain _ | storeTail _ =>
      exact ⟨⟨hs.head, trivial⟩, .inl rfl⟩

theorem tx_writes {n : Nat} {s s' : UartTx} {e : UartTxEvent} (hs : TxBelow n s)
    (h : uartTxStep n s e = some s') :
    TxBelow n s' ∧ WritesBelow n s.txBuffer s'.txBuffer := by
  cases uartTxStep_event h with
  | main hwrite => exact tx_main_writes hs hwrite
  | call _ _ _ | sent _ | drained _ _ | sendNext _ _ =>
      exact ⟨⟨hs.head, hs.pc⟩, .inl rfl⟩

theorem push_writes {n : Nat} (fifo : UsbSetupFifo) (packet : UsbSetupFifoItem)
    (h : fifo.head.toNat < n) :
    (usbSetupFifoPushIsr n fifo packet).2.head.toNat < n ∧
      ∀ i, n ≤ i →
        (usbSetupFifoPushIsr n fifo packet).2.entries i = fifo.entries i := by
  have hn : 0 < n := Nat.lt_of_le_of_lt (Nat.zero_le _) h
  unfold usbSetupFifoPushIsr
  dsimp only
  split
  · exact ⟨h, fun _ _ => rfl⟩
  · refine ⟨ringNext_lt hn _, fun i hi => Function.update_of_ne ?_ _ _⟩
    omega

/-- A pop moves the tail on and writes nothing else. -/
theorem pop_writes {fw : Firmware} {s s' : SetupLog} (h : PopStep fw s s') :
    s'.dev.fifo.head = s.dev.fifo.head ∧
      s'.dev.fifo.entries = s.dev.fifo.entries := by
  cases h with
  | readTail _ | empty _ _ | found _ _ | copy _ | storeTail _ => exact ⟨rfl, rfl⟩

/-! ## The invariant -/

/-- Every index is below the size it is wrapped with. -/
structure Indexed (c : Build) (b : Board) : Prop where
  rx : b.rx.rxTail.toNat < c.uart1RxBufsize
  tx : TxBelow c.uart1TxBufsize b.tx
  fifo : (b.xram usbSetupFifoAddress).toNat < c.fw.usbSetupFifoSize

/-- What an event does to the queue in the memory: its index stays below the
size, and it writes in the queue only. -/
theorem fifo_writes (xram : Nat → UInt8) (fifo : UsbSetupFifo)
    (hhead : fifo.head.toNat < c.fw.usbSetupFifoSize)
    (hsame : ∀ i, c.fw.usbSetupFifoSize ≤ i →
      fifo.entries i = (loadFifo xram).entries i) :
    (storeFifo xram fifo usbSetupFifoAddress).toNat < c.fw.usbSetupFifoSize ∧
      Confined (c.region .fifo) xram (storeFifo xram fifo) := by
  refine ⟨?_, storeFifo_confined hsame⟩
  rw [storeFifo_head]
  exact hhead

/-- The part of the invariant that is in registers, and the write. -/
theorem boardStep_confined {e : BoardEvent} (h : Indexed c b)
    (hstep : boardStep c b e = some b') :
    Confined (c.region e.buffer) b.xram b'.xram ∧
      b'.rx.rxTail.toNat < c.uart1RxBufsize ∧ TxBelow c.uart1TxBufsize b'.tx ∧
      (e.buffer = .fifo →
        (b'.xram usbSetupFifoAddress).toNat < c.fw.usbSetupFifoSize) := by
  cases e with
  | ep0Write length data =>
      rw [boardStep] at hstep
      split at hstep
      · next hle =>
          obtain rfl := Option.some.inj hstep
          exact ⟨confined_blit data (Nat.le_refl _) (Nat.add_le_add_left hle _),
            h.rx, h.tx, fun hne => absurd hne (by simp [BoardEvent.buffer])⟩
      · exact absurd hstep (by simp)
  | push packet =>
      obtain rfl := Option.some.inj hstep
      obtain ⟨hhead, hsame⟩ := push_writes (loadFifo b.xram) packet h.fifo
      obtain ⟨hlt, hconfined⟩ := fifo_writes _ _ hhead hsame
      exact ⟨hconfined, h.rx, h.tx, fun _ => hlt⟩
  | pop =>
      obtain ⟨log, hlog, rfl⟩ := Option.map_eq_some_iff.mp hstep
      have hfifo : log.dev.fifo = loadFifo b.xram := by
        cases setupLogStep_event hlog with
        | pop _ => rfl
      obtain ⟨hlt, hconfined⟩ := fifo_writes (c := c) b.xram log.dev.fifo
        (hfifo ▸ h.fifo) (fun i _ => by rw [hfifo])
      exact ⟨hconfined, h.rx, h.tx, fun _ => hlt⟩
  | popMain =>
      obtain ⟨log, hlog, rfl⟩ := Option.map_eq_some_iff.mp hstep
      obtain ⟨hhead, hentries⟩ := pop_writes (popMain_step hlog)
      obtain ⟨hlt, hconfined⟩ := fifo_writes (c := c) b.xram log.dev.fifo
        (hhead ▸ h.fifo) (fun i _ => congrFun hentries i)
      exact ⟨hconfined, h.rx, h.tx, fun _ => hlt⟩
  | rx e =>
      obtain ⟨rx, hrx, rfl⟩ := Option.map_eq_some_iff.mp hstep
      obtain ⟨htail, hwrites⟩ := rx_writes (s := b.loadRx) h.rx hrx
      exact ⟨storeArray_confined hwrites, htail, h.tx,
        fun hne => absurd hne (by simp [BoardEvent.buffer])⟩
  | tx e =>
      obtain ⟨tx, htx, rfl⟩ := Option.map_eq_some_iff.mp hstep
      obtain ⟨hbelow, hwrites⟩ := tx_writes (s := b.loadTx) ⟨h.tx.head, h.tx.pc⟩ htx
      exact ⟨storeArray_confined hwrites, h.rx, hbelow,
        fun hne => absurd hne (by simp [BoardEvent.buffer])⟩

/-! ## Builds that fit -/

/-- The sizes that fit between the addresses. -/
def Fits (c : Build) : Prop :=
  c.fw.usbSetupFifoSize ≤ 16 ∧ c.uart1RxBufsize ≤ 32

theorem apart_of_fits (h : Fits c) {x y : XramBuffer} (hne : x ≠ y) :
    (c.region x).Apart (c.region y) := by
  obtain ⟨hfifo, hrx⟩ := h
  cases x <;> cases y <;>
    first
      | exact absurd rfl hne
      | (simp only [Region.Apart, Build.region, usbEp0BufferAddress,
          usbEp0BufferSize, usbSetupFifoAddress, usbSetupFifoItemSize,
          uart1RxBufferAddress, uart1TxBufferAddress]
         omega)

theorem indexed_init (hc : c.Accepted) (xram : Nat → UInt8) (dev : Ep0)
    (item : UsbSetupFifoItem) : Indexed c (boardInit xram dev item) where
  rx := by
    show 0 < c.uart1RxBufsize
    have := hc.rx_bounds
    omega
  tx := by
    refine ⟨?_, trivial⟩
    show 0 < c.uart1TxBufsize
    have := hc.tx_bounds
    omega
  fifo := by
    have hhead : (boardInit xram dev item).xram usbSetupFifoAddress = 0 :=
      storeFifo_head xram (usbSetupFifoInit (loadFifo xram))
    rw [hhead]
    exact hc.fifo_pos

theorem indexed_step {e : BoardEvent} (hfits : Fits c) (h : Indexed c b)
    (hstep : boardStep c b e = some b') : Indexed c b' := by
  obtain ⟨hconfined, hrx, htx, hfifo⟩ := boardStep_confined h hstep
  refine ⟨hrx, htx, ?_⟩
  by_cases he : e.buffer = .fifo
  · exact hfifo he
  · -- the queue's index is a byte of the queue, which the event does not own
    have hhas : (c.region .fifo).Has usbSetupFifoAddress :=
      Region.has_base (Nat.add_pos_left (by decide) _)
    rw [hconfined.apart (apart_of_fits hfits he) hhas]
    exact h.fifo

theorem nonInterfering_of_fits (hc : c.Accepted) (hfits : Fits c) :
    NonInterfering c := by
  intro xram dev item es b e b' hrun hstep buffer hne a ha
  have hindexed : Indexed c b :=
    runs_inv (fun _ _ _ h hstep => indexed_step hfits h hstep)
      (indexed_init hc xram dev item) hrun
  exact (boardStep_confined hindexed hstep).1.apart
    (apart_of_fits hfits (Ne.symm hne)) ha

/-! ## Builds that do not fit -/

/-- A size the preprocessor accepts is at least twice any smaller power. -/
theorem double_le {n m : Nat} (hn : n &&& (n - 1) = 0) (hpos : n ≠ 0)
    (h : 2 ^ m < n) : ∃ k, n = 2 ^ k ∧ m < k := by
  obtain ⟨k, rfl⟩ := (Nat.and_sub_one_eq_zero_iff_isPowerOfTwo hpos).mp hn
  exact ⟨k, rfl, (Nat.pow_lt_pow_iff_right (by decide)).mp h⟩

/-- Short of the wrap, an index just counts. -/
theorem ringNext_succ {k : Nat} {i : UInt8} (hk : i.toNat + 1 < 2 ^ k)
    (hi : i.toNat + 1 < 2 ^ 8) : (ringNext (2 ^ k) i).toNat = i.toNat + 1 := by
  rw [ringNext, Nat.and_two_pow_sub_one_eq_mod, UInt8.toNat_ofNat',
    Nat.mod_eq_of_lt hk, Nat.mod_eq_of_lt hi]

/-- The SETUP queue after `k` pushes and no pop, in a memory that was zero. -/
structure Pushed (k : Nat) (b : Board) : Prop where
  head : (b.xram usbSetupFifoAddress).toNat = k
  tail : b.xram (usbSetupFifoAddress + 1) = 0
  rest : ∀ a, entriesAddress + usbSetupFifoItemSize * k ≤ a → b.xram a = 0

theorem boardInit_zero (dev : Ep0) (item : UsbSetupFifoItem) (a : Nat) :
    (boardInit (fun _ => 0) dev item).xram a = 0 := by
  show storeFifo (fun _ => 0) (usbSetupFifoInit (loadFifo fun _ => 0)) a = 0
  by_cases hhead : a = usbSetupFifoAddress
  · subst hhead
    exact storeFifo_head _ _
  · by_cases htail : a = usbSetupFifoAddress + 1
    · subst htail
      exact storeFifo_tail _ _
    · exact storeFifo_eq hhead htail fun _ _ _ _ => rfl

theorem pushed_init (dev : Ep0) (item : UsbSetupFifoItem) :
    Pushed 0 (boardInit (fun _ => 0) dev item) where
  head := congrArg UInt8.toNat (boardInit_zero dev item _)
  tail := boardInit_zero dev item _
  rest a _ := boardInit_zero dev item a

/-- A push with room left fills the next entry. -/
theorem pushed_step {k m : Nat} (hsize : c.fw.usbSetupFifoSize = 2 ^ m)
    (hm : k + 1 < 2 ^ m) (hk : k + 1 < 2 ^ 8) (packet : UsbSetupFifoItem)
    (h : Pushed k b) :
    ∃ b', boardStep c b (.push packet) = some b' ∧ Pushed (k + 1) b' ∧
      ∀ j, j < 8 → b'.xram (entriesAddress + (usbSetupFifoItemSize * k + j)) =
        packet.toBytes j := by
  have hhead : (loadFifo b.xram).head.toNat = k := h.head
  have hnext : (ringNext (2 ^ m) (loadFifo b.xram).head).toNat = k + 1 := by
    rw [ringNext_succ (by omega) (by omega), hhead]
  have hroom : ringNext (2 ^ m) (loadFifo b.xram).head ≠ (loadFifo b.xram).tail := by
    intro heq
    have htail : (loadFifo b.xram).tail = 0 := h.tail
    rw [heq, htail] at hnext
    exact absurd hnext (by simp)
  have hpush : (usbSetupFifoPushIsr (2 ^ m) (loadFifo b.xram) packet).2 =
      ⟨ringNext (2 ^ m) (loadFifo b.xram).head, (loadFifo b.xram).tail,
        Function.update (loadFifo b.xram).entries k packet⟩ := by
    unfold usbSetupFifoPushIsr
    dsimp only
    rw [if_neg hroom, hhead]
  rw [boardStep, hsize, hpush]
  generalize hfifo : UsbSetupFifo.mk _ _ _ = fifo
  refine ⟨_, rfl, ⟨?_, ?_, ?_⟩, fun j hj => ?_⟩
  · show (storeFifo b.xram fifo usbSetupFifoAddress).toNat = k + 1
    rw [storeFifo_head, ← hfifo]
    exact hnext
  · show storeFifo b.xram fifo (usbSetupFifoAddress + 1) = 0
    rw [storeFifo_tail, ← hfifo]
    exact h.tail
  · intro a ha
    have hentries : entriesAddress = usbSetupFifoAddress + 2 := rfl
    rw [usbSetupFifoItemSize] at ha
    refine (storeFifo_eq ?_ ?_ fun i j heq hj => ?_).trans (h.rest a ?_)
    · omega
    · omega
    · rw [usbSetupFifoItemSize] at heq
      rw [← hfifo]
      exact Function.update_of_ne (by omega) _ _
    · rw [usbSetupFifoItemSize]
      omega
  · show storeFifo b.xram fifo _ = _
    rw [storeFifo_entry b.xram fifo k hj, ← hfifo]
    exact congrArg (UsbSetupFifoItem.toBytes · j) (Function.update_self _ _ _)

/-- `rx_buffer` after `k` bytes and no read, in a memory that was zero. -/
structure Received (k : Nat) (b : Board) : Prop where
  head : b.rx.rxHead = 0
  tail : b.rx.rxTail.toNat = k
  rest : ∀ a, uart1RxBufferAddress + k ≤ a → b.xram a = 0

theorem received_init (dev : Ep0) (item : UsbSetupFifoItem) :
    Received 0 (boardInit (fun _ => 0) dev item) where
  head := rfl
  tail := rfl
  rest a _ := boardInit_zero dev item a

theorem received_step {k m : Nat} (hsize : c.uart1RxBufsize = 2 ^ m)
    (hm : k + 1 < 2 ^ m) (hk : k + 1 < 2 ^ 8) (data : UInt8)
    (h : Received k b) :
    ∃ b', boardStep c b (.rx (.received data)) = some b' ∧
      Received (k + 1) b' ∧ b'.xram (uart1RxBufferAddress + k) = data := by
  have htail : b.loadRx.rxTail.toNat = k := h.tail
  have hnext : (ringNext (2 ^ m) b.loadRx.rxTail).toNat = k + 1 := by
    rw [ringNext_succ (by omega) (by omega), htail]
  have hroom : ringNext (2 ^ m) b.loadRx.rxTail ≠ b.loadRx.rxHead := by
    intro heq
    have hhead : b.loadRx.rxHead = 0 := h.head
    rw [heq, hhead] at hnext
    exact absurd hnext (by simp)
  have hreceive : (uartIsrReceive (2 ^ m) b.loadRx data).2 =
      { b.loadRx with
        rxBuffer := Function.update b.loadRx.rxBuffer k data
        rxTail := ringNext (2 ^ m) b.loadRx.rxTail
        accepted := b.loadRx.accepted ++ [data] } := by
    unfold uartIsrReceive
    dsimp only
    rw [if_neg hroom, htail]
  have hstore : storeArray b.xram uart1RxBufferAddress
      (Function.update b.loadRx.rxBuffer k data) =
      Function.update b.xram (uart1RxBufferAddress + k) data :=
    storeArray_update _ _ _ _
  rw [boardStep, hsize, uartRxStep, hreceive, Option.map_some]
  refine ⟨_, rfl, ⟨h.head, hnext, fun a ha => ?_⟩, ?_⟩
  · rw [Board.storeRx, hstore]
    dsimp only
    rw [Function.update_of_ne (by omega)]
    exact h.rest a (by omega)
  · rw [Board.storeRx, hstore]
    dsimp only
    rw [Function.update_self]

/-- A packet that asks for one byte. -/
def askOne : UsbSetupFifoItem := ⟨0, 0, 0, 0, 1⟩

theorem pushed_run {n m : Nat} (hsize : c.fw.usbSetupFifoSize = 2 ^ m)
    (hm : n < 2 ^ m) (hn : n < 2 ^ 8) :
    ∃ b, runs (boardStep c) (boardInit (fun _ => 0) powerOn askOne)
      (List.replicate n (.push askOne)) = some b ∧ Pushed n b := by
  refine runs_replicate (fun k b hk hb => ?_) (pushed_init powerOn askOne)
  obtain ⟨b', hstep, hb', _⟩ :=
    pushed_step hsize (by omega) (by omega) askOne hb
  exact ⟨b', hstep, hb'⟩

theorem received_run {n m : Nat} (hsize : c.uart1RxBufsize = 2 ^ m)
    (hm : n < 2 ^ m) (hn : n < 2 ^ 8) :
    ∃ b, runs (boardStep c) (boardInit (fun _ => 0) powerOn askOne)
      (List.replicate n (.rx (.received 1))) = some b ∧ Received n b := by
  refine runs_replicate (fun k b hk hb => ?_) (received_init powerOn askOne)
  obtain ⟨b', hstep, hb', _⟩ := received_step hsize (by omega) (by omega) 1 hb
  exact ⟨b', hstep, hb'⟩

theorem not_nonInterfering {es : List BoardEvent} {e : BoardEvent}
    {xram : Nat → UInt8} {dev : Ep0} {item : UsbSetupFifoItem}
    {buffer : XramBuffer} {a : Nat}
    (hrun : runs (boardStep c) (boardInit xram dev item) es = some b)
    (hstep : boardStep c b e = some b') (hne : buffer ≠ e.buffer)
    (hhas : (c.region buffer).Has a) (hchange : b'.xram a ≠ b.xram a) :
    ¬ NonInterfering c := by
  intro hkeeps
  exact hchange (hkeeps xram dev item es b e b' hrun hstep buffer hne a hhas)

/-- More than 16 entries: the 24th push ends in `rx_buffer`. -/
theorem fifo_reaches_rx (hc : c.Accepted) (h : 16 < c.fw.usbSetupFifoSize) :
    ¬ NonInterfering c := by
  obtain ⟨m, hsize, hm⟩ := double_le (m := 4) hc.fifo hc.fifo_pos.ne' h
  have hpow : 2 ^ 5 ≤ 2 ^ m := Nat.pow_le_pow_right (by decide) hm
  obtain ⟨b, hrun, hpushed⟩ :=
    pushed_run (n := 23) hsize (by omega) (by omega)
  obtain ⟨b', hstep, _, hbytes⟩ :=
    pushed_step hsize (by omega) (by omega) askOne hpushed
  have hrx : 0 < c.uart1RxBufsize := by
    have := hc.rx_bounds
    omega
  have hbefore : b.xram uart1RxBufferAddress = 0 := hpushed.rest _ (by decide)
  have hafter : b'.xram uart1RxBufferAddress = 1 := hbytes 6 (by decide)
  refine not_nonInterfering hrun hstep (show .rxBuffer ≠ _ by decide)
    (Region.has_base hrx) ?_
  show b'.xram uart1RxBufferAddress ≠ b.xram uart1RxBufferAddress
  rw [hbefore, hafter]
  decide

/-- More than 32 bytes: the 33rd goes to `tx_buffer`. -/
theorem rx_reaches_tx (hc : c.Accepted) (h : 32 < c.uart1RxBufsize) :
    ¬ NonInterfering c := by
  have hpos : c.uart1RxBufsize ≠ 0 := by omega
  obtain ⟨m, hsize, hm⟩ := double_le (m := 5) hc.rx hpos h
  have hpow : 2 ^ 6 ≤ 2 ^ m := Nat.pow_le_pow_right (by decide) hm
  obtain ⟨b, hrun, hreceived⟩ :=
    received_run (n := 32) hsize (by omega) (by omega)
  obtain ⟨b', hstep, _, hbyte⟩ :=
    received_step hsize (by omega) (by omega) 1 hreceived
  have htx : 0 < c.uart1TxBufsize := by
    have := hc.tx_bounds
    omega
  have hbefore : b.xram uart1TxBufferAddress = 0 := hreceived.rest _ (by decide)
  have hafter : b'.xram uart1TxBufferAddress = 1 := hbyte
  refine not_nonInterfering hrun hstep (show .txBuffer ≠ _ by decide)
    (Region.has_base htx) ?_
  show b'.xram uart1TxBufferAddress ≠ b.xram uart1TxBufferAddress
  rw [hbefore, hafter]
  decide

/-- Of the builds that the preprocessor accepts, those keep the buffers apart
whose SETUP queue has at most 16 entries and whose `rx_buffer` has at most 32
bytes. -/
theorem nonInterfering_iff (hc : c.Accepted) :
    NonInterfering c ↔
      c.fw.usbSetupFifoSize ≤ 16 ∧ c.uart1RxBufsize ≤ 32 := by
  constructor
  · intro h
    constructor
    · exact Nat.le_of_not_lt fun hlt => fifo_reaches_rx hc hlt h
    · exact Nat.le_of_not_lt fun hlt => rx_reaches_tx hc hlt h
  · exact nonInterfering_of_fits hc

/-- The sizes of `main.c`, which are the defaults of the headers. -/
def defaultBuild : Build := ⟨demo, 32, 32⟩

theorem nonInterfering_iff_default :
    NonInterfering defaultBuild ↔
      defaultBuild.fw.usbSetupFifoSize ≤ 16 ∧
        defaultBuild.uart1RxBufsize ≤ 32 :=
  nonInterfering_iff ⟨by decide, by decide, by decide, by decide, by decide,
    by decide⟩

/-- The defaults with `UART1_RX_BUFSIZE` 64. -/
def wideRx : Build := ⟨demo, 64, 32⟩

/-- `A` and `B` are written, and 34 bytes arrive before the transmitter gets to
the second. -/
def overrun : List BoardEvent :=
  .tx (.call (.uartPrint [0x41, 0x42])) ::
    (List.replicate 20 (.tx .main) ++
      (List.replicate 34 (.rx (.received 0x2A)) ++ [.tx .sent, .tx .isr]))

/-- The build is accepted, and in this run a received byte is sent in place of
one that was written. -/
theorem wideRx_interferes :
    wideRx.Accepted ∧
      ((runs (boardStep wideRx) (boardInit (fun _ => 0) powerOn askOne)
        overrun).map fun b => (b.tx.written, b.tx.stored)) =
        some ([0x41, 0x42], [0x41, 0x2A]) ∧
      ¬ NonInterfering wideRx := by
  have haccepted : wideRx.Accepted :=
    ⟨by decide, by decide, by decide, by decide, by decide, by decide⟩
  exact ⟨haccepted, by decide +kernel, rx_reaches_tx haccepted (by decide)⟩

end Ch552e.Proofs
