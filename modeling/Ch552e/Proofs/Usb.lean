import Ch552e.Proofs.Control
import Ch552e.Ref.Usb

/-!
# What the interrupt makes of the bus

Everything else about endpoint 0 is said of `ep0Step`, one event of the bus and
its handler at a time. Here the interrupt goes on access by access while the bus
does what it likes, and still the device gets to where it would be if each event
had been handled on the spot (`usb_in_order`). What is on the bus splits in what
is done and what waits, at most one transaction and resets behind it (`Behind`).

Two assumptions on the bus are in `unhurriedBus`, both about a reset next to a
transaction. The interrupt looks at the transfer flag first and has no other
record of the order.
-/

namespace Ch552e.Proofs

open Ch552e.Lib Ch552e.Ref Ch552e.Spec

variable {fw : Firmware} {s s' : Usb} {e : UsbEvent}

/-! ## Without the bus -/

def fromTestSuspend (irq : UsbIrq) : Nat := if irq.uifSuspend then 2 else 1

def fromTestBusRst (irq : UsbIrq) : Nat :=
  (if irq.uifBusRst then 3 else 1) + fromTestSuspend irq

/-- How many accesses a run of the interrupt makes. -/
def usbIsrAccesses (irq : UsbIrq) : Nat :=
  (if irq.uifTransfer then 4 else 1) + fromTestBusRst irq

/-- A run of the interrupt that nothing comes in between of is `usbIsr`. -/
theorem usbIsr_accesses (fw : Firmware) (hpc : s.pc = .outside)
    (hreq : s.requested = true) :
    runs (usbStep fw) s (.isr :: List.replicate (usbIsrAccesses s.irq) .access) =
      (usbIsr fw s.irq s.dev).map fun (irq, dev) =>
        { s with irq := irq, dev := dev } := by
  have hisr : usbStep fw s .isr = some { s with pc := .testTransfer } := by
    simp only [usbStep, hpc, hreq, if_true]
  rw [runs_cons, hisr, Option.bind_some]
  obtain ⟨dev, ctrl, udev, en, ⟨transfer, busRst, suspend, intSt⟩, ie, ea, pc, bus⟩ := s
  obtain rfl : pc = .outside := hpc
  cases transfer with
  | false =>
      cases busRst <;> cases suspend <;> rfl
  | true =>
      simp only [usbIsr, if_true]
      cases hdev : usbIsrTransfer fw ⟨true, busRst, suspend, intSt⟩ dev with
      | none =>
          cases busRst <;> cases suspend <;>
            simp [usbIsrAccesses, fromTestBusRst, fromTestSuspend,
              List.replicate, usbStep, usbIsrAccess, hdev]
      | some dev' =>
          cases busRst <;> cases suspend <;>
            simp [usbIsrAccesses, fromTestBusRst, fromTestSuspend,
              List.replicate, usbStep, usbIsrAccess, hdev]

/-! ## All that can happen -/

inductive UsbStep (fw : Firmware) (s : Usb) : UsbEvent → Usb → Prop where
  | transaction (status rxLen : UInt8) (data : Nat → UInt8)
      (hfree : s.busy = false) (hendp : status &&& maskUisEndp = 0) :
      UsbStep fw s (.transaction status rxLen data) { s with
        dev := receive (status &&& maskUisToken) rxLen data s.dev
        irq := { s.irq with uifTransfer := true, usbIntSt := status }
        bus := s.bus ++ [.packet (status &&& maskUisToken) rxLen data] }
  | busReset : UsbStep fw s .busReset { s with
      irq := { s.irq with uifBusRst := true }
      bus := s.bus ++ [.busReset] }
  | suspend : UsbStep fw s .suspend { s with
      irq := { s.irq with uifSuspend := true } }
  | isr (hpc : s.pc = .outside) (hreq : s.requested = true) :
      UsbStep fw s .isr { s with pc := .testTransfer }
  | transfer (hpc : s.pc = .testTransfer) (hflag : s.irq.uifTransfer = true) :
      UsbStep fw s .access { s with pc := .readStatus }
  | noTransfer (hpc : s.pc = .testTransfer) (hflag : s.irq.uifTransfer = false) :
      UsbStep fw s .access { s with pc := .testBusRst }
  | readStatus (hpc : s.pc = .readStatus) :
      UsbStep fw s .access { s with pc := .handlePacket s.irq.usbIntSt }
  | handlePacket {status : UInt8} {dev : Ep0} (hpc : s.pc = .handlePacket status)
      (hdev : usbIsrTransfer fw { s.irq with usbIntSt := status } s.dev = some dev) :
      UsbStep fw s .access { s with dev := dev, pc := .clearTransfer }
  | clearTransfer (hpc : s.pc = .clearTransfer) : UsbStep fw s .access { s with
      irq := { s.irq with uifTransfer := false }
      pc := .testBusRst }
  | busRst (hpc : s.pc = .testBusRst) (hflag : s.irq.uifBusRst = true) :
      UsbStep fw s .access { s with pc := .reset }
  | noBusRst (hpc : s.pc = .testBusRst) (hflag : s.irq.uifBusRst = false) :
      UsbStep fw s .access { s with pc := .testSuspend }
  | reset (hpc : s.pc = .reset) : UsbStep fw s .access { s with
      dev := usbEp0Reset s.dev
      pc := .clearBusRst }
  | clearBusRst (hpc : s.pc = .clearBusRst) : UsbStep fw s .access { s with
      irq := { s.irq with uifBusRst := false }
      pc := .testSuspend }
  | suspended (hpc : s.pc = .testSuspend) (hflag : s.irq.uifSuspend = true) :
      UsbStep fw s .access { s with pc := .clearSuspend }
  | notSuspended (hpc : s.pc = .testSuspend) (hflag : s.irq.uifSuspend = false) :
      UsbStep fw s .access { s with pc := .outside }
  | clearSuspend (hpc : s.pc = .clearSuspend) : UsbStep fw s .access { s with
      irq := { s.irq with uifSuspend := false }
      pc := .outside }

theorem usbIsrAccess_step (h : usbIsrAccess fw s = some s') :
    UsbStep fw s .access s' := by
  cases hpc : s.pc with
  | outside =>
      simp only [usbIsrAccess, hpc] at h
      exact absurd h (by simp)
  | testTransfer =>
      simp only [usbIsrAccess, hpc] at h
      obtain rfl := Option.some.inj h
      cases hflag : s.irq.uifTransfer with
      | true => exact .transfer hpc hflag
      | false => exact .noTransfer hpc hflag
  | readStatus =>
      simp only [usbIsrAccess, hpc] at h
      obtain rfl := Option.some.inj h
      exact .readStatus hpc
  | handlePacket status =>
      simp only [usbIsrAccess, hpc] at h
      obtain ⟨dev, hdev, rfl⟩ := Option.map_eq_some_iff.mp h
      exact .handlePacket hpc hdev
  | clearTransfer =>
      simp only [usbIsrAccess, hpc] at h
      obtain rfl := Option.some.inj h
      exact .clearTransfer hpc
  | testBusRst =>
      simp only [usbIsrAccess, hpc] at h
      obtain rfl := Option.some.inj h
      cases hflag : s.irq.uifBusRst with
      | true => exact .busRst hpc hflag
      | false => exact .noBusRst hpc hflag
  | reset =>
      simp only [usbIsrAccess, hpc] at h
      obtain rfl := Option.some.inj h
      exact .reset hpc
  | clearBusRst =>
      simp only [usbIsrAccess, hpc] at h
      obtain rfl := Option.some.inj h
      exact .clearBusRst hpc
  | testSuspend =>
      simp only [usbIsrAccess, hpc] at h
      obtain rfl := Option.some.inj h
      cases hflag : s.irq.uifSuspend with
      | true => exact .suspended hpc hflag
      | false => exact .notSuspended hpc hflag
  | clearSuspend =>
      simp only [usbIsrAccess, hpc] at h
      obtain rfl := Option.some.inj h
      exact .clearSuspend hpc

theorem usbStep_event (h : usbStep fw s e = some s') : UsbStep fw s e s' := by
  cases e with
  | transaction status rxLen data =>
      simp only [usbStep] at h
      split at h
      · exact absurd h (by simp)
      · next hno =>
          obtain ⟨hfree, hendp⟩ := not_or.mp hno
          obtain rfl := Option.some.inj h
          exact .transaction status rxLen data (Bool.eq_false_iff.mpr hfree)
            (not_not.mp hendp)
  | busReset =>
      obtain rfl := Option.some.inj h
      exact .busReset
  | suspend =>
      obtain rfl := Option.some.inj h
      exact .suspend
  | isr =>
      cases hpc : s.pc with
      | outside =>
          simp only [usbStep, hpc] at h
          split at h
          · next hreq =>
              obtain rfl := Option.some.inj h
              exact .isr hpc hreq
          · exact absurd h (by simp)
      | testTransfer | readStatus | handlePacket _ | clearTransfer | testBusRst
      | reset | clearBusRst | testSuspend | clearSuspend =>
          simp only [usbStep, hpc] at h
          exact absurd h (by simp)
  | access => exact usbIsrAccess_step h

/-! ## What waits -/

/-- No transaction is completed while a reset has still to be served, and none
but those the device answers. No reset begins behind a transaction that came
after the interrupt had looked for one, before it looks for the reset. -/
def unhurriedBus (s : Usb) : UsbEvent → Bool
  | .transaction status rxLen data =>
      !s.irq.uifBusRst &&
        responds s.dev (.packet (status &&& maskUisToken) rxLen data)
  | .busReset =>
      match s.pc with
      | .testBusRst => !s.irq.uifTransfer
      | .outside | .testTransfer | .readStatus | .handlePacket _ | .clearTransfer
      | .reset | .clearBusRst | .testSuspend | .clearSuspend => true
  | .suspend | .isr | .access => true

/-- A transaction waits for its handler. -/
def unhandled (s : Usb) : Bool :=
  match s.pc with
  | .clearTransfer => false
  | .outside | .testTransfer | .readStatus | .handlePacket _ | .testBusRst | .reset
  | .clearBusRst | .testSuspend | .clearSuspend => s.irq.uifTransfer

/-- A reset waits to be served. -/
def unreset (s : Usb) : Bool :=
  match s.pc with
  | .clearBusRst => false
  | .outside | .testTransfer | .readStatus | .handlePacket _ | .clearTransfer
  | .testBusRst | .reset | .testSuspend | .clearSuspend => s.irq.uifBusRst

/-- What the place in the interrupt says of the flags and the device. -/
def PcSays (s : Usb) : Prop :=
  match s.pc with
  | .outside | .testTransfer | .testSuspend | .clearSuspend => True
  | .readStatus | .clearTransfer => s.irq.uifTransfer = true
  | .handlePacket status =>
      s.irq.uifTransfer = true ∧ status = s.irq.usbIntSt
  | .testBusRst => s.irq.uifTransfer = true → s.irq.uifBusRst = false
  | .reset => s.irq.uifTransfer = false ∧ s.irq.uifBusRst = true
  | .clearBusRst => s.irq.uifTransfer = false ∧ s.irq.uifBusRst = true ∧
      usbEp0Reset s.dev = s.dev

/-- The device, next to one at `d` that has handled all but what waits. -/
inductive Handing (s : Usb) (d : Ep0) : List Ep0Event → Prop where
  | nothing (hflag : unhandled s = false) (hdev : s.dev = d) : Handing s d []
  | packet (rxLen : UInt8) (data : Nat → UInt8) (hflag : unhandled s = true)
      (hresp : responds d (.packet (s.irq.usbIntSt &&& maskUisToken) rxLen data) =
        true)
      (hdev : s.dev = receive (s.irq.usbIntSt &&& maskUisToken) rxLen data d) :
      Handing s d [.packet (s.irq.usbIntSt &&& maskUisToken) rxLen data]

/-- The registers as `usb_init` leaves them, and the interrupts enabled. -/
structure SetUp (s : Usb) : Prop where
  ctrl : s.usbCtrl &&& bUcIntBusy ≠ 0
  enabled : s.usbIntEn = bUieTransfer ||| bUieBusRst
  ieUsb : s.ieUsb = true
  ea : s.ea = true

theorem setUp_step (h : SetUp s) (hstep : UsbStep fw s e s') : SetUp s' := by
  cases hstep <;> exact ⟨h.ctrl, h.enabled, h.ieUsb, h.ea⟩

/-- What waits at a device that stands at `d`. -/
structure Waiting (s : Usb) (packets : List Ep0Event) (resets : Nat) (d : Ep0) :
    Prop where
  handing : Handing s d packets
  flag : unreset s = true ↔ 0 < resets
  pc : PcSays s
  endpoint : s.irq.uifTransfer = true → s.irq.usbIntSt &&& maskUisEndp = 0

/-- What the handlers get done in a step: nothing, the packet that waits, or all
the resets that do. -/
inductive Served (fw : Firmware) (s : Usb) (e : UsbEvent) (d : Ep0) :
    List Ep0Event → Ep0 → Prop where
  | nothing (hnone : s.handled e = none) : Served fw s e d [] d
  | packet {token rxLen : UInt8} {data : Nat → UInt8} {d' : Ep0}
      (hhandled : s.handled e = some ((receive token rxLen data d).buffered token))
      (hresp : responds d (.packet token rxLen data) = true)
      (hstep : ep0Step fw d (.packet token rxLen data) = some d') :
      Served fw s e d [.packet token rxLen data] d'
  | resets (hnone : s.handled e = none) (k : Nat) :
      Served fw s e d (List.replicate (k + 1) .busReset) (usbEp0Reset d)

section Step

variable {start d : Ep0} {done packets : List Ep0Event} {resets : Nat}

/-- Where the interrupt goes on and serves nothing. -/
theorem Waiting.move {irq : UsbIrq} {pc : UsbIsrPc}
    (h : Waiting s packets resets d) (hst : irq.usbIntSt = s.irq.usbIntSt)
    (hflag : irq.uifTransfer = true → s.irq.uifTransfer = true)
    (hpacket : unhandled { s with irq := irq, pc := pc } = unhandled s)
    (hreset : unreset { s with irq := irq, pc := pc } = unreset s)
    (hpc : PcSays { s with irq := irq, pc := pc }) :
    Waiting { s with irq := irq, pc := pc } packets resets d where
  handing := by
    cases h.handing with
    | nothing hnone hdev => exact .nothing (hpacket.trans hnone) hdev
    | packet rxLen data hsome hresp hdev =>
        rw [← hst] at hresp hdev ⊢
        exact .packet rxLen data (hpacket.trans hsome) hresp hdev
  flag := hreset ▸ h.flag
  pc := hpc
  endpoint := fun hup => hst ▸ h.endpoint (hflag hup)

theorem runs_resets (fw : Firmware) (d : Ep0) (k : Nat) :
    runs (guarded responds (ep0Step fw)) d (List.replicate (k + 1) .busReset) =
      some (usbEp0Reset d) := by
  induction k generalizing d with
  | zero => rfl
  | succ k ih => exact ih (usbEp0Reset d)

theorem Served.runs {handled : List Ep0Event} {d' : Ep0}
    (h : Served fw s e d handled d') :
    runs (guarded responds (ep0Step fw)) d handled = some d' := by
  cases h with
  | nothing _ => rfl
  | packet _ hresp hstep => exact runs_single (guarded_of hresp hstep)
  | resets _ k => exact runs_resets fw d k

theorem Waiting.idle (h : Waiting s packets resets d)
    (hnone : unhandled s = false) : packets = [] ∧ s.dev = d := by
  cases h.handing with
  | nothing _ hdev => exact ⟨rfl, hdev⟩
  | packet _ _ hsome _ _ => exact absurd (hsome.symm.trans hnone) (by simp)

theorem unhandled_of_down (h : s.irq.uifTransfer = false) :
    unhandled s = false := by
  unfold unhandled
  split
  · rfl
  all_goals exact h

theorem unreset_of_down (h : s.irq.uifBusRst = false) : unreset s = false := by
  unfold unreset
  split
  · rfl
  all_goals exact h

theorem Waiting.no_resets (h : Waiting s packets resets d)
    (hnone : unreset s = false) : resets = 0 := by
  refine Nat.eq_zero_of_not_pos fun hpos => ?_
  rw [h.flag.mpr hpos] at hnone
  exact absurd hnone (by simp)

theorem waiting_transaction {status rxLen : UInt8} {data : Nat → UInt8}
    (h : Waiting s packets resets d) (hregs : SetUp s) (hfree : s.busy = false)
    (hendp : status &&& maskUisEndp = 0)
    (hok : unhurriedBus s (.transaction status rxLen data) = true) :
    packets = [] ∧ resets = 0 ∧ Waiting { s with
      dev := receive (status &&& maskUisToken) rxLen data s.dev
      irq := { s.irq with uifTransfer := true, usbIntSt := status }
      bus := s.bus ++ [.packet (status &&& maskUisToken) rxLen data] }
      [.packet (status &&& maskUisToken) rxLen data] 0 d := by
  obtain ⟨hquiet, hresp⟩ := Bool.and_eq_true_iff.mp hok
  have hbusRst : s.irq.uifBusRst = false := by simpa using hquiet
  have htransfer : s.irq.uifTransfer = false := by
    have hctrl := hregs.ctrl
    simpa [Usb.busy, hctrl] using hfree
  obtain ⟨rfl, rfl⟩ := h.idle (unhandled_of_down htransfer)
  obtain rfl := h.no_resets (unreset_of_down hbusRst)
  have hpc := h.pc
  have hreset : ∀ t : Usb, t.irq.uifBusRst = false → (unreset t = true ↔ 0 < 0) := by
    intro t ht
    rw [unreset_of_down ht]
    simp
  refine ⟨rfl, rfl, .packet rxLen data ?_ hresp rfl, hreset _ hbusRst, ?_,
    fun _ => hendp⟩
  · cases hs : s.pc with
    | clearTransfer => simp [PcSays, hs, htransfer] at hpc
    | _ => rfl
  · cases hs : s.pc with
    | reset | clearBusRst => simp [PcSays, hs, hbusRst] at hpc
    | handlePacket => simp [PcSays, hs, htransfer] at hpc
    | testBusRst => exact fun _ => hbusRst
    | _ => trivial

theorem handing_busReset (h : Handing s d packets)
    (hsame : unhandled { s with
      irq := { s.irq with uifBusRst := true }
      bus := s.bus ++ [.busReset] } = unhandled s) :
    Handing { s with
      irq := { s.irq with uifBusRst := true }
      bus := s.bus ++ [.busReset] } d packets := by
  cases h with
  | nothing hnone heq => exact .nothing (hsame.trans hnone) heq
  | packet rxLen data hsome hresp heq =>
      exact .packet rxLen data (hsame.trans hsome) hresp heq

/-- A reset on top of one that is served and not yet cleared. -/
theorem waiting_busReset_served (h : Waiting s packets resets d)
    (hclear : s.pc = .clearBusRst) :
    packets = [] ∧ resets = 0 ∧ Waiting { s with
      irq := { s.irq with uifBusRst := true }
      bus := s.bus ++ [.busReset] } [] 0 (usbEp0Reset d) := by
  have hpc := h.pc
  simp only [PcSays, hclear] at hpc
  obtain ⟨htransfer, hbusRst, hsame⟩ := hpc
  obtain ⟨rfl, rfl⟩ := h.idle (unhandled_of_down htransfer)
  obtain rfl := h.no_resets (by simp only [unreset, hclear])
  rw [hsame]
  refine ⟨rfl, rfl, handing_busReset h.handing ?_, ?_, ?_, h.endpoint⟩
  · simp only [unhandled, hclear]
  · simp [unreset, hclear]
  · simp only [PcSays, hclear]
    exact ⟨htransfer, trivial, hsame⟩

theorem waiting_busReset (h : Waiting s packets resets d)
    (hclear : s.pc ≠ .clearBusRst) (hok : unhurriedBus s .busReset = true) :
    Waiting { s with
      irq := { s.irq with uifBusRst := true }
      bus := s.bus ++ [.busReset] } packets (resets + 1) d := by
  have hpc := h.pc
  refine ⟨handing_busReset h.handing rfl, ⟨fun _ => Nat.succ_pos _, fun _ => ?_⟩, ?_,
    h.endpoint⟩
  · cases hs : s.pc with
    | clearBusRst => exact absurd hs hclear
    | _ => rfl
  · cases hs : s.pc with
    | clearBusRst => exact absurd hs hclear
    | testBusRst =>
        have hdown : s.irq.uifTransfer = false := by
          simpa [unhurriedBus, hs] using hok
        exact fun hup => absurd (hup.symm.trans hdown) (by simp)
    | outside | testTransfer | testSuspend | clearSuspend => trivial
    | readStatus | clearTransfer | handlePacket _ =>
        simp only [PcSays, hs] at hpc
        exact hpc
    | reset =>
        simp only [PcSays, hs] at hpc
        exact ⟨hpc.1, rfl⟩

theorem waiting_handlePacket {status : UInt8} {dev : Ep0}
    (h : Waiting s packets resets d) (hs : s.pc = .handlePacket status)
    (hdev : usbIsrTransfer fw { s.irq with usbIntSt := status } s.dev = some dev) :
    Served fw s .access d packets dev ∧
      Waiting { s with dev := dev, pc := .clearTransfer } [] resets dev := by
  have hpc := h.pc
  simp only [PcSays, hs] at hpc
  obtain ⟨hup, rfl⟩ := hpc
  have hreset : unreset { s with dev := dev, pc := .clearTransfer } = unreset s := by
    simp only [unreset, hs]
  refine ⟨?_, .nothing rfl rfl, hreset ▸ h.flag, hup, h.endpoint⟩
  cases h.handing with
  | nothing hnone _ =>
      simp only [unhandled, hs, hup] at hnone
      exact absurd hnone (by simp)
  | packet rxLen data _ hresp heq =>
      refine .packet ?_ hresp ?_
      · simp only [Usb.handled, hs, if_pos (h.endpoint hup), heq]
      · rw [ep0Step, ← heq, ← hdev, usbIsrTransfer, usbIsrTransferWith,
          if_pos (h.endpoint hup)]

theorem waiting_reset (h : Waiting s packets resets d) (hs : s.pc = .reset) :
    packets = [] ∧ (∃ k, resets = k + 1) ∧
      Waiting { s with dev := usbEp0Reset s.dev, pc := .clearBusRst } [] 0
        (usbEp0Reset d) := by
  have hpc := h.pc
  simp only [PcSays, hs] at hpc
  obtain ⟨htransfer, hbusRst⟩ := hpc
  obtain ⟨rfl, rfl⟩ := h.idle (unhandled_of_down htransfer)
  have hpos : 0 < resets := h.flag.mp (by simp only [unreset, hs, hbusRst])
  refine ⟨rfl, Nat.exists_eq_add_one_of_ne_zero (Nat.ne_of_gt hpos),
    .nothing htransfer rfl, ?_, ⟨htransfer, hbusRst, rfl⟩, h.endpoint⟩
  simp [unreset]

/-- What waited and what came is what was done and what waits now. -/
theorem waiting_step (h : Waiting s packets resets d) (hregs : SetUp s)
    (hstep : guarded unhurriedBus (usbStep fw) s e = some s') :
    ∃ came handled packets' resets' d', s'.bus = s.bus ++ came ∧
      packets ++ List.replicate resets .busReset ++ came =
        handled ++ (packets' ++ List.replicate resets' .busReset) ∧
      Served fw s e d handled d' ∧ Waiting s' packets' resets' d' := by
  obtain ⟨hok, hstep⟩ := guarded_eq_some hstep
  have hpc := h.pc
  have hstays : s'.bus = s.bus → s.handled e = none →
      Waiting s' packets resets d →
      ∃ came handled packets' resets' d', s'.bus = s.bus ++ came ∧
        packets ++ List.replicate resets .busReset ++ came =
          handled ++ (packets' ++ List.replicate resets' .busReset) ∧
        Served fw s e d handled d' ∧ Waiting s' packets' resets' d' :=
    fun hbus hnone h' =>
      ⟨[], [], packets, resets, d, by simp [hbus], by simp, .nothing hnone, h'⟩
  cases usbStep_event hstep with
  | transaction status rxLen data hfree hendp =>
      obtain ⟨rfl, rfl, h'⟩ := waiting_transaction h hregs hfree hendp hok
      exact ⟨_, [], _, 0, d, rfl, by simp, .nothing rfl, h'⟩
  | busReset =>
      by_cases hclear : s.pc = .clearBusRst
      · obtain ⟨rfl, rfl, h'⟩ := waiting_busReset_served h hclear
        exact ⟨_, [.busReset], [], 0, _, rfl, rfl, .resets rfl 0, h'⟩
      · refine ⟨_, [], packets, _, d, rfl, ?_, .nothing rfl,
          waiting_busReset h hclear hok⟩
        rw [List.nil_append, List.append_assoc, ← List.replicate_succ']
  | handlePacket hs hdev =>
      obtain ⟨hserved, h'⟩ := waiting_handlePacket h hs hdev
      exact ⟨[], packets, [], resets, _, by simp, by simp, hserved, h'⟩
  | reset hs =>
      obtain ⟨rfl, ⟨k, rfl⟩, h'⟩ := waiting_reset h hs
      have hnone : s.handled .access = none := by simp only [Usb.handled, hs]
      exact ⟨[], _, [], 0, _, by simp, by simp, .resets hnone k, h'⟩
  | suspend => exact hstays rfl rfl (h.move rfl id rfl rfl hpc)
  | isr hs _ =>
      exact hstays rfl rfl (h.move rfl id (by simp only [unhandled, hs])
        (by simp only [unreset, hs]) trivial)
  | transfer hs hflag =>
      exact hstays rfl (by simp only [Usb.handled, hs]) (h.move rfl id
        (by simp only [unhandled, hs]) (by simp only [unreset, hs]) hflag)
  | noTransfer hs hflag =>
      have hlooked : PcSays { s with pc := .testBusRst } :=
        fun hup => absurd (hup.symm.trans hflag) (by simp)
      exact hstays rfl (by simp only [Usb.handled, hs]) (h.move rfl id
        (by simp only [unhandled, hs]) (by simp only [unreset, hs]) hlooked)
  | readStatus hs =>
      simp only [PcSays, hs] at hpc
      exact hstays rfl (by simp only [Usb.handled, hs]) (h.move rfl id
        (by simp only [unhandled, hs]) (by simp only [unreset, hs]) ⟨hpc, rfl⟩)
  | clearTransfer hs =>
      have hcleared : PcSays { s with
          irq := { s.irq with uifTransfer := false }
          pc := .testBusRst } := fun hup => absurd hup (by simp)
      exact hstays rfl (by simp only [Usb.handled, hs]) (h.move rfl
        (fun hup => absurd hup (by simp)) (by simp only [unhandled, hs])
        (by simp only [unreset, hs]) hcleared)
  | busRst hs hflag =>
      have hdown : s.irq.uifTransfer = false := by
        simp only [PcSays, hs] at hpc
        cases hup : s.irq.uifTransfer with
        | false => rfl
        | true => exact absurd (hflag.symm.trans (hpc hup)) (by simp)
      exact hstays rfl (by simp only [Usb.handled, hs]) (h.move rfl id
        (by simp only [unhandled, hs]) (by simp only [unreset, hs]) ⟨hdown, hflag⟩)
  | noBusRst hs _ | clearBusRst hs | suspended hs _ | notSuspended hs _
  | clearSuspend hs =>
      exact hstays rfl (by simp only [Usb.handled, hs]) (h.move rfl id
        (by simp only [unhandled, hs]) (by simp only [unreset, hs]) trivial)

/-- `start` has got through what is done; the rest waits. -/
structure Behind (fw : Firmware) (start : Ep0) (s : Usb)
    (done packets : List Ep0Event) (resets : Nat) (d : Ep0) : Prop extends
    Waiting s packets resets d where
  bus : s.bus = done ++ packets ++ List.replicate resets .busReset
  run : runs (guarded responds (ep0Step fw)) start done = some d

theorem behind_step (h : Behind fw start s done packets resets d) (hregs : SetUp s)
    (hstep : guarded unhurriedBus (usbStep fw) s e = some s') :
    ∃ done' packets' resets' d',
      Behind fw start s' done' packets' resets' d' := by
  obtain ⟨came, handled, packets', resets', d', hcame, hrest, hserved, h'⟩ :=
    waiting_step h.toWaiting hregs hstep
  refine ⟨done ++ handled, packets', resets', d', h', ?_, ?_⟩
  · rw [hcame, h.bus, List.append_assoc done, List.append_assoc done, hrest]
    simp only [List.append_assoc]
  · rw [runs_append, h.run]
    exact hserved.runs

end Step

/-! ## To the end of the interrupt -/

/-- The bus is silent: only the interrupt goes on. -/
def busSilent (_ : Usb) : UsbEvent → Bool
  | .isr | .access => true
  | .transaction _ _ _ | .busReset | .suspend => false

/-- Another run of the interrupt, its entry included, if it is requested. -/
def again (irq : UsbIrq) : Nat :=
  if irq.uifTransfer || irq.uifBusRst then 1 + usbIsrAccesses irq else 0

/-- The accesses that are left until no flag is up. -/
def accessesLeft (s : Usb) : Nat :=
  match s.pc with
  | .outside => again s.irq
  | .testTransfer => usbIsrAccesses s.irq
  | .readStatus => 3 + fromTestBusRst s.irq
  | .handlePacket _ => 2 + fromTestBusRst s.irq
  | .clearTransfer => 1 + fromTestBusRst s.irq
  | .testBusRst => fromTestBusRst s.irq +
      again { s.irq with uifBusRst := false, uifSuspend := false }
  | .reset => 2 + fromTestSuspend s.irq +
      again { s.irq with uifBusRst := false, uifSuspend := false }
  | .clearBusRst => 1 + fromTestSuspend s.irq +
      again { s.irq with uifBusRst := false, uifSuspend := false }
  | .testSuspend => fromTestSuspend s.irq + again { s.irq with uifSuspend := false }
  | .clearSuspend => 1 + again { s.irq with uifSuspend := false }

theorem accessesLeft_le (s : Usb) : accessesLeft s ≤ 12 := by
  obtain ⟨dev, ctrl, udev, en, ⟨transfer, busRst, suspend, intSt⟩, ie, ea, pc, bus⟩ := s
  cases pc <;> cases transfer <;> cases busRst <;> cases suspend <;>
    simp [accessesLeft, again, usbIsrAccesses, fromTestBusRst, fromTestSuspend]

theorem requested_of (h : SetUp s) :
    s.requested = (s.irq.uifTransfer || s.irq.uifBusRst) := by
  rw [Usb.requested, h.ea, h.ieUsb, h.enabled]
  cases s.irq.uifTransfer <;> cases s.irq.uifBusRst <;>
    cases s.irq.uifSuspend <;> rfl

theorem bus_silent (hsilent : busSilent s e = true) (h : UsbStep fw s e s') :
    s'.bus = s.bus := by
  cases h with
  | transaction _ _ _ _ _ | busReset | suspend =>
      exact absurd hsilent (by simp [busSilent])
  | _ => rfl

theorem accessesLeft_step (hregs : SetUp s) (hsilent : busSilent s e = true)
    (h : UsbStep fw s e s') : accessesLeft s' + 1 = accessesLeft s := by
  have hreqs := requested_of hregs
  obtain ⟨dev, ctrl, udev, en, ⟨transfer, busRst, suspend, intSt⟩, ie, ea, pc, bus⟩ := s
  cases h with
  | transaction _ _ _ _ _ | busReset | suspend => exact absurd hsilent (by simp [busSilent])
  | isr hpc hreq =>
      obtain rfl : pc = _ := hpc
      have hup : (transfer || busRst) = true := hreqs.symm.trans hreq
      simp only [accessesLeft, again, hup, if_true]
      omega
  | transfer hpc hflag | noTransfer hpc hflag =>
      obtain rfl : pc = _ := hpc
      obtain rfl : transfer = _ := hflag
      cases busRst <;> cases suspend <;> rfl
  | readStatus hpc | handlePacket hpc _ | clearTransfer hpc | reset hpc
  | clearBusRst hpc | clearSuspend hpc =>
      obtain rfl : pc = _ := hpc
      cases transfer <;> cases busRst <;> cases suspend <;> rfl
  | busRst hpc hflag | noBusRst hpc hflag =>
      obtain rfl : pc = _ := hpc
      obtain rfl : busRst = _ := hflag
      cases transfer <;> cases suspend <;> rfl
  | suspended hpc hflag | notSuspended hpc hflag =>
      obtain rfl : pc = _ := hpc
      obtain rfl : suspend = _ := hflag
      cases transfer <;> cases busRst <;> rfl

/-- As long as a flag is up the interrupt has something to do. -/
theorem can_serve {d : Ep0} {packets : List Ep0Event} {resets : Nat}
    (hregs : SetUp s) (h : Waiting s packets resets d)
    (hfw : ∀ e, responds d e = true → ∃ d', ep0Step fw d e = some d')
    (hleft : accessesLeft s ≠ 0) :
    ∃ e s', guarded busSilent (usbStep fw) s e = some s' := by
  cases hs : s.pc with
  | outside =>
      have hup : (s.irq.uifTransfer || s.irq.uifBusRst) = true := by
        by_contra hdown
        simp only [accessesLeft, hs, again, if_neg hdown] at hleft
        exact hleft rfl
      have hstep : usbStep fw s .isr = some { s with pc := .testTransfer } := by
        simp only [usbStep, hs, requested_of hregs, hup, if_true]
      exact ⟨.isr, _, hstep⟩
  | handlePacket status =>
      have hpc := h.pc
      simp only [PcSays, hs] at hpc
      obtain ⟨hup, rfl⟩ := hpc
      cases h.handing with
      | nothing hnone _ =>
          simp only [unhandled, hs, hup] at hnone
          exact absurd hnone (by simp)
      | packet rxLen data _ hresp heq =>
          obtain ⟨d', hd'⟩ := hfw _ hresp
          have hdev : usbIsrTransfer fw s.irq s.dev = some d' := by
            rw [usbIsrTransfer, usbIsrTransferWith, if_pos (h.endpoint hup), heq]
            exact hd'
          have hstep : usbStep fw s .access =
              some { s with dev := d', pc := .clearTransfer } := by
            simp only [usbStep, usbIsrAccess, hs, hdev, Option.map_some]
          exact ⟨.access, _, hstep⟩
  | testTransfer | readStatus | clearTransfer | testBusRst | reset | clearBusRst
  | testSuspend | clearSuspend =>
      refine ⟨.access, ?_⟩
      simp only [guarded, busSilent, if_true, usbStep, usbIsrAccess, hs]
      exact ⟨_, rfl⟩

theorem flags_of_settled (h : accessesLeft s = 0) :
    s.irq.uifTransfer = false ∧ s.irq.uifBusRst = false := by
  obtain ⟨dev, ctrl, udev, en, ⟨transfer, busRst, suspend, intSt⟩, ie, ea, pc, bus⟩ := s
  cases pc <;> cases transfer <;> cases busRst <;> cases suspend <;>
    simp [accessesLeft, again, usbIsrAccesses, fromTestBusRst, fromTestSuspend] at h ⊢

theorem outside_of_settled (h : accessesLeft s = 0) : s.serving = false := by
  obtain ⟨dev, ctrl, udev, en, ⟨transfer, busRst, suspend, intSt⟩, ie, ea, pc, bus⟩ := s
  cases pc <;> cases transfer <;> cases busRst <;> cases suspend <;>
    simp [accessesLeft, again, usbIsrAccesses, fromTestBusRst, fromTestSuspend,
      Usb.serving] at h ⊢

/-! ## Runs -/

section Runs

variable {s₀ : Usb} {es : List UsbEvent}

theorem waiting_init (s₀ : Usb) :
    Waiting (usbStart s₀) [] 0 (usbEp0Init s₀.dev) where
  handing := .nothing rfl rfl
  flag := ⟨fun hup => absurd hup (by simp [unreset, usbStart, usbInit]),
    fun hpos => absurd hpos (Nat.lt_irrefl _)⟩
  pc := trivial
  endpoint := fun hup => absurd hup (by simp [usbStart, usbInit])

theorem behind_init (fw : Firmware) (s₀ : Usb) :
    Behind fw (usbEp0Init s₀.dev) (usbStart s₀) [] [] 0 (usbEp0Init s₀.dev) where
  toWaiting := waiting_init s₀
  bus := rfl
  run := rfl

theorem setUp_init (s₀ : Usb) : SetUp (usbStart s₀) := by
  refine ⟨?_, rfl, rfl, rfl⟩
  show (bUcDevPuEn ||| bUcIntBusy ||| bUcDmaEn) &&& bUcIntBusy ≠ 0
  decide

theorem behind_run
    (h : runs (guarded unhurriedBus (usbStep fw)) (usbStart s₀) es = some s) :
    SetUp s ∧ ∃ done packets resets d,
      Behind fw (usbEp0Init s₀.dev) s done packets resets d := by
  refine runs_inv (I := fun s => SetUp s ∧ ∃ done packets resets d,
    Behind fw (usbEp0Init s₀.dev) s done packets resets d) ?_
    ⟨setUp_init s₀, [], [], 0, _, behind_init fw s₀⟩ h
  rintro s e s' ⟨hregs, _, _, _, _, hb⟩ hstep
  exact ⟨setUp_step hregs (usbStep_event (guarded_eq_some hstep).2),
    behind_step hb hregs hstep⟩

/-- With no flag up everything is done. -/
theorem Behind.settled {start d : Ep0} {done packets : List Ep0Event} {resets : Nat}
    (h : Behind fw start s done packets resets d)
    (htransfer : s.irq.uifTransfer = false) (hbusRst : s.irq.uifBusRst = false) :
    runs (guarded responds (ep0Step fw)) start s.bus = some s.dev := by
  obtain ⟨rfl, rfl⟩ := h.idle (unhandled_of_down htransfer)
  obtain rfl := h.no_resets (unreset_of_down hbusRst)
  have hbus : s.bus = done := by simpa using h.bus
  rw [hbus]
  exact h.run

/-- However the accesses of the interrupt, the transactions, the resets and the
suspends come, but for a reset too close to a transaction: each transaction that
the hardware acknowledged and each reset is handled, once and in the order of the
bus, as if on the spot. At most one transaction waits, which the device has
received, and behind it resets; with no flag up nothing does. -/
theorem usb_in_order
    (h : runs (guarded unhurriedBus (usbStep fw)) (usbStart s₀) es = some s) :
    (∃ done packets resets d,
        s.bus = done ++ packets ++ List.replicate resets .busReset ∧
        runs (guarded responds (ep0Step fw)) (usbEp0Init s₀.dev) done = some d ∧
        Handing s d packets ∧ (s.irq.uifTransfer = false → packets = []) ∧
        (s.irq.uifBusRst = false → resets = 0)) ∧
      (s.irq.uifTransfer = false → s.irq.uifBusRst = false →
        runs (guarded responds (ep0Step fw)) (usbEp0Init s₀.dev) s.bus =
          some s.dev) := by
  obtain ⟨_, done, packets, resets, d, hb⟩ := behind_run h
  refine ⟨⟨done, packets, resets, d, hb.bus, hb.run, hb.handing, ?_, ?_⟩,
    fun htransfer hbusRst => hb.settled htransfer hbusRst⟩
  · exact fun htransfer => (hb.idle (unhandled_of_down htransfer)).1
  · exact fun hbusRst => hb.no_resets (unreset_of_down hbusRst)

/-- Reset values, and everything else 0. -/
def usbPowerOn : Usb where
  dev := powerOn
  usbCtrl := 0x06
  udevCtrl := 0x80
  usbIntEn := 0
  irq := ⟨false, false, false, 0⟩
  ieUsb := false
  ea := false
  pc := .outside
  bus := []

def setupTransaction (bytes : List UInt8) : UsbEvent :=
  .transaction uisTokenSetup 8 fun i => bytes.getD i 0

/-- A bus reset while the handler of a SETUP is about to run, another one before
the flag of the first is cleared, and a SETUP before the interrupt returns. -/
def resetsAround : List UsbEvent :=
  [setupTransaction [0x00, 0x05, 0x07, 0x00, 0x00, 0x00, 0x00, 0x00], .isr,
    .access, .access, .busReset, .access, .access, .access, .access, .busReset,
    .access, .suspend,
    setupTransaction [0x80, 0x06, 0x00, 0x02, 0x00, 0x00, 0xff, 0x00], .access]

theorem usb_in_order_around :
    ∃ s, runs (guarded unhurriedBus (usbStep demo)) (usbStart usbPowerOn)
        resetsAround = some s ∧
      s.bus.length = 4 ∧ s.irq.uifTransfer = true ∧
      ((∃ done packets resets d,
          s.bus = done ++ packets ++ List.replicate resets .busReset ∧
          runs (guarded responds (ep0Step demo)) (usbEp0Init usbPowerOn.dev) done =
            some d ∧
          Handing s d packets ∧ (s.irq.uifTransfer = false → packets = []) ∧
          (s.irq.uifBusRst = false → resets = 0)) ∧
        (s.irq.uifTransfer = false → s.irq.uifBusRst = false →
          runs (guarded responds (ep0Step demo)) (usbEp0Init usbPowerOn.dev) s.bus =
            some s.dev)) := by
  have hrun : (runs (guarded unhurriedBus (usbStep demo)) (usbStart usbPowerOn)
      resetsAround).map (fun s => (s.bus.length, s.irq.uifTransfer)) =
        some (4, true) := rfl
  obtain ⟨s, hs, hlast⟩ := Option.map_eq_some_iff.mp hrun
  obtain ⟨hlength, htransfer⟩ := Prod.mk.injEq .. ▸ hlast
  exact ⟨s, hs, hlength, htransfer, usb_in_order hs⟩

/-- Why the bus has to keep them apart: a SETUP that comes in while a reset
waits is handled first, and the reset undoes it. -/
example :
    (runs (usbStep demo) (usbStart usbPowerOn)
      (.busReset ::
        setupTransaction [0x00, 0x05, 0x07, 0x00, 0x00, 0x00, 0x00, 0x00] ::
        .isr :: List.replicate 8 .access)).map (fun s => s.dev.state) =
      some .init := rfl

variable {tree : Tree}

theorem presents_run (hs : Serves fw tree)
    (hdev : (fw.code fw.usbGetDeviceDescriptor).toNat < usbEp0BufferSize)
    {start d : Ep0} {done : List Ep0Event}
    (h : runs (guarded responds (ep0Step fw)) (usbEp0Init start) done = some d) :
    ∃ c, runs (controlStep (descriptors fw tree)) .fresh done = some c ∧
      Presents fw tree d c := by
  have hrel := presents_runs hs hdev start done
  rw [h] at hrel
  generalize runs (controlStep (descriptors fw tree)) .fresh done = b at hrel
  cases hrel with
  | some hdc => exact ⟨_, rfl, hdc⟩

theorem handles_of_serves (hs : Serves fw tree)
    (hdev : (fw.code fw.usbGetDeviceDescriptor).toNat < usbEp0BufferSize)
    {d : Ep0} {c : Control} (hdc : Presents fw tree d c) (e : Ep0Event)
    (hresp : responds d e = true) : ∃ d', ep0Step fw d e = some d' := by
  have hok : c.face.allows e = true := by rw [← hdc.face, ← responds_face, hresp]
  obtain ⟨d', hd', _⟩ := presents_event hs hdev hdc e hok
  exact ⟨d', hd'⟩

/-- The interrupt on its way through what was on the bus. -/
structure Serving (fw : Firmware) (start : Ep0) (bus : List Ep0Event) (s : Usb) :
    Prop where
  regs : SetUp s
  bus : s.bus = bus
  behind : ∃ done packets resets d, Behind fw start s done packets resets d

theorem serving_step {start : Ep0} {bus : List Ep0Event}
    (h : Serving fw start bus s)
    (hstep : guarded busSilent (usbStep fw) s e = some s') :
    Serving fw start bus s' ∧ accessesLeft s' + 1 ≤ accessesLeft s := by
  obtain ⟨hsilent, hstep⟩ := guarded_eq_some hstep
  obtain ⟨_, _, _, _, hb⟩ := h.behind
  have hevent := usbStep_event hstep
  have hok : unhurriedBus s e = true := by
    cases e with
    | transaction _ _ _ | busReset | suspend =>
        exact absurd hsilent (by simp [busSilent])
    | isr | access => rfl
  exact ⟨⟨setUp_step h.regs hevent, (bus_silent hsilent hevent).trans h.bus,
    behind_step hb h.regs (guarded_of hok hstep)⟩,
    Nat.le_of_eq (accessesLeft_step h.regs hsilent hevent)⟩

/-- From the registers and flags to the pipe. Whenever no flag is up, the bus
sees the pipe after everything that was on the bus. From anywhere, the interrupt
makes at most twelve accesses while the bus is silent, and stops nowhere else. -/
theorem usb_shows_control (hs : Serves fw tree)
    (hdev : (fw.code fw.usbGetDeviceDescriptor).toNat < usbEp0BufferSize)
    (h : runs (guarded unhurriedBus (usbStep fw)) (usbStart s₀) es = some s) :
    (s.irq.uifTransfer = false → s.irq.uifBusRst = false →
        some (faceOf s.dev) =
          (runs (controlStep (descriptors fw tree)) .fresh s.bus).map
            Control.face) ∧
      ∀ fs s', runs (guarded busSilent (usbStep fw)) s fs = some s' →
        fs.length ≤ 12 ∧ s'.bus = s.bus ∧
          ((∃ e s'', guarded busSilent (usbStep fw) s' e = some s'') ∨
            some (faceOf s'.dev) =
              (runs (controlStep (descriptors fw tree)) .fresh s.bus).map
                Control.face) := by
  have hface : ∀ t, runs (guarded responds (ep0Step fw)) (usbEp0Init s₀.dev) s.bus =
      some t → some (faceOf t) =
        (runs (controlStep (descriptors fw tree)) .fresh s.bus).map
          Control.face := by
    intro t ht
    obtain ⟨c, hc, htc⟩ := presents_run hs hdev ht
    rw [hc, htc.face]
    rfl
  obtain ⟨hregs, hbehind⟩ := behind_run h
  refine ⟨fun htransfer hbusRst => ?_, fun fs s' hrun => ?_⟩
  · obtain ⟨_, _, _, _, hb⟩ := hbehind
    exact hface _ (hb.settled htransfer hbusRst)
  · obtain ⟨hserving, hlen⟩ := length_le accessesLeft
      (fun _ _ _ ht hstep => serving_step ht hstep)
      (⟨hregs, rfl, hbehind⟩ : Serving fw (usbEp0Init s₀.dev) s.bus s) hrun
    obtain ⟨hregs', hbus, _, _, _, _, hb⟩ := hserving
    have hle := accessesLeft_le s
    refine ⟨by omega, hbus, ?_⟩
    by_cases hleft : accessesLeft s' = 0
    · obtain ⟨htransfer, hbusRst⟩ := flags_of_settled hleft
      exact .inr (hface _ (hbus ▸ hb.settled htransfer hbusRst))
    · obtain ⟨k, _, hdk⟩ := presents_run hs hdev hb.run
      exact .inl (can_serve hregs' hb.toWaiting (handles_of_serves hs hdev hdk)
        hleft)

theorem usb_shows_control_around :
    ∃ s, runs (guarded unhurriedBus (usbStep demo)) (usbStart usbPowerOn)
        resetsAround = some s ∧
      ((s.irq.uifTransfer = false → s.irq.uifBusRst = false →
          some (faceOf s.dev) =
            (runs (controlStep (descriptors demo demoTree)) .fresh s.bus).map
              Control.face) ∧
        ∀ fs s', runs (guarded busSilent (usbStep demo)) s fs = some s' →
          fs.length ≤ 12 ∧ s'.bus = s.bus ∧
            ((∃ e s'', guarded busSilent (usbStep demo) s' e = some s'') ∨
              some (faceOf s'.dev) =
                (runs (controlStep (descriptors demo demoTree)) .fresh s.bus).map
                  Control.face)) := by
  have hsome : (runs (guarded unhurriedBus (usbStep demo)) (usbStart usbPowerOn)
      resetsAround).isSome := rfl
  obtain ⟨s, hs⟩ := Option.isSome_iff_exists.mp hsome
  exact ⟨s, hs, usb_shows_control demo_serves (by decide) hs⟩

end Runs

end Ch552e.Proofs
