import Ch552e.Proofs.Drain
import Ch552e.Proofs.Usb
import Ch552e.Ref.System

/-!
# The program and its interrupts

In `MainLoop.lean` a handler runs the moment its event is on the bus. Here a
packet lies in the buffer for a while and the main program goes on, and it makes
no difference (`system_refines`): what waits has not touched the queue, and the
main program touches nothing else of endpoint 0.
-/

namespace Ch552e.Proofs

open Ch552e.Lib Ch552e.Lib.Ring Ch552e.Ref Ch552e.Spec

/-! ## Endpoint 0 apart from its queue -/

section Queue

variable {fw : Firmware} {tree : Tree} {s : Usb} {d : Ep0} {k : Control}
  {packets : List Ep0Event} {resets : Nat}

theorem receive_withFifo (token rxLen : UInt8) (data : Nat → UInt8) (d : Ep0)
    (f : UsbSetupFifo) :
    receive token rxLen data { d with fifo := f } =
      { receive token rxLen data d with fifo := f } := by
  unfold receive
  split <;> rfl

theorem responds_withFifo (d : Ep0) (f : UsbSetupFifo) (e : Ep0Event) :
    responds { d with fifo := f } e = responds d e := by
  cases e <;> rfl

theorem Handing.withFifo (h : Handing s d packets) (f : UsbSetupFifo) :
    Handing { s with dev := { s.dev with fifo := f } } { d with fifo := f }
      packets := by
  cases h with
  | nothing hflag hdev => exact .nothing hflag (by rw [hdev])
  | packet rxLen data hflag hresp hdev =>
      refine .packet rxLen data hflag ((responds_withFifo _ _ _).trans hresp) ?_
      rw [receive_withFifo, hdev]

/-- What the main program does to the queue changes nothing of what waits. -/
theorem Waiting.withFifo (h : Waiting s packets resets d) (f : UsbSetupFifo) :
    Waiting { s with dev := { s.dev with fifo := f } } packets resets
      { d with fifo := f } where
  handing := h.handing.withFifo f
  flag := h.flag
  pc := by
    have hpc := h.pc
    cases hs : s.pc with
    | clearBusRst =>
        simp only [PcSays, hs] at hpc ⊢
        obtain ⟨htransfer, hbusRst, hsame⟩ := hpc
        refine ⟨htransfer, hbusRst, ?_⟩
        show { usbEp0Reset s.dev with fifo := f } = _
        rw [hsame]
    | outside | testTransfer | testSuspend | clearSuspend =>
        simp only [PcSays]
    | readStatus | clearTransfer | handlePacket _ | testBusRst | reset =>
        simp only [PcSays, hs] at hpc ⊢
        exact hpc
  endpoint := h.endpoint

theorem Waiting.fifo (h : Waiting s packets resets d) : s.dev.fifo = d.fifo := by
  cases h.handing with
  | nothing _ hdev => rw [hdev]
  | packet _ _ _ _ hdev => rw [hdev, receive_fifo]

theorem Follows.withFifo {rest : List (List UInt8)} (h : Follows fw tree d rest)
    (f : UsbSetupFifo) : Follows fw tree { d with fifo := f } rest := by
  cases h with
  | last hstate => exact .last hstate
  | stream hstate htracks hle hshort hrest =>
      exact .stream hstate htracks hle hshort hrest

theorem Presents.withFifo (h : Presents fw tree d k) (f : UsbSetupFifo) :
    Presents fw tree { d with fifo := f } k where
  address := h.address
  small := h.small
  configuration := h.configuration
  stage := by
    have hstage := h.stage
    cases hk : k.stage with
    | reading packet data1 rest first =>
        rw [hk] at hstage
        exact ⟨hstage.1, hstage.2.1, hstage.2.2.withFifo f⟩
    | idle | stalled | addressing _ | configuring _ | statusOut =>
        rw [hk] at hstage
        exact hstage

/-- What is in the buffer is logged as what came in. -/
theorem logged_buffered (token rxLen : UInt8) (data : Nat → UInt8) (d : Ep0) :
    ((receive token rxLen data d).buffered token).logged =
      (Ep0Event.packet token rxLen data).logged := by
  by_cases hsetup : token = uisTokenSetup ∧ rxLen = 8
  · obtain ⟨rfl, rfl⟩ := hsetup
    exact congrArg some (copySetupPacket_receive data d)
  · have hbuffered : ¬ (token = uisTokenSetup ∧
        (receive token rxLen data d).usbRxLen = 8) := by
      rintro ⟨rfl, hlen⟩
      exact hsetup ⟨rfl, hlen⟩
    rw [Ep0.buffered, Ep0Event.logged, Ep0Event.logged, if_neg hsetup,
      if_neg hbuffered]

end Queue

/-! ## The main program apart from the bus -/

section Main

variable {c : Build} {s t : MainLoop} {dev : Ep0} {e : MainLoopEvent}

/-- The program with another endpoint 0. -/
def withDev (s : MainLoop) (dev : Ep0) : MainLoop :=
  { s with log := { s.log with dev := dev } }

/-- What an event is on the bus. -/
def onBus : MainLoopEvent → Option Ep0Event
  | .usb e => some e
  | .main | .uart | .sent | .arrived _ => none

theorem withDev_self (h : dev.fifo = s.log.dev.fifo) :
    withDev s { dev with fifo := s.log.dev.fifo } = withDev s dev := by
  rw [← h]

theorem popMain_withDev (fw : Firmware) (l : SetupLog)
    (hfifo : dev.fifo = l.dev.fifo) :
    popMain fw { l with dev := dev } =
      (popMain fw l).map fun m =>
        { m with dev := { dev with fifo := m.dev.fifo } } := by
  have hsame : { dev with fifo := l.dev.fifo } = dev := by rw [← hfifo]
  cases hs : l.pc with
  | outside => simp only [popMain, hs, Option.map_none]
  | readTail => simp only [popMain, hs, Option.map_some, hsame, hfifo]
  | readHead tail =>
      by_cases hempty : tail = l.dev.fifo.head <;>
        simp only [popMain, hs, hfifo, hempty, if_true, if_false, Option.map_some,
          hsame]
  | copy tail field => simp only [popMain, hs, Option.map_some, hsame, hfifo]
  | storeTail tail => simp only [popMain, hs, Option.map_some, hfifo]

theorem mainLoop_withDev (hfifo : dev.fifo = s.log.dev.fifo) :
    mainLoop c (withDev s dev) =
      (mainLoop c s).map fun t =>
        withDev t { dev with fifo := t.log.dev.fifo } := by
  have hsame := withDev_self hfifo
  have hidle : (withDev s dev).uart.idle = s.uart.idle := rfl
  have hcalls : (withDev s dev).calls = s.calls := rfl
  have hpc : (withDev s dev).log.pc = s.log.pc := rfl
  unfold mainLoop
  rw [hidle, hcalls, hpc]
  cases s.uart.idle with
  | true =>
      simp only [if_true]
      cases hs : s.calls with
      | cons call calls =>
          simp only [Option.map_map]
          refine Option.map_congr fun uart _ => ?_
          exact congrArg (fun t : MainLoop => { t with uart := uart, calls := calls })
            hsame.symm
      | nil =>
          cases hs' : s.log.pc with
          | outside =>
              simp only [setupLogStep, hpc, hs', Option.map_some]
              exact congrArg (fun t : MainLoop => some { t with
                log := { t.log with pc := .readTail }
                calls := [] }) hsame.symm
          | readTail | readHead _ | copy _ _ | storeTail _ =>
              have hpop := popMain_withDev c.fw s.log hfifo
              simp only [setupLogStep]
              rw [withDev, hpop]
              simp only [Option.map_map]
              rfl
  | false =>
      simp only [Bool.false_eq_true, if_false, Option.map_map]
      refine Option.map_congr fun uart _ => ?_
      exact congrArg (fun t : MainLoop => { t with uart := uart }) hsame.symm

theorem mainLoopStep_withDev (hown : onBus e = none)
    (hfifo : dev.fifo = s.log.dev.fifo) :
    mainLoopStep c (withDev s dev) e =
      (mainLoopStep c s e).map fun t =>
        withDev t { dev with fifo := t.log.dev.fifo } := by
  have hsame := withDev_self hfifo
  cases e with
  | main => exact mainLoop_withDev hfifo
  | usb _ => exact absurd hown (by simp [onBus])
  | uart | sent | arrived _ =>
      simp only [mainLoopStep, Option.map_map]
      refine Option.map_congr fun uart _ => ?_
      exact congrArg (fun t : MainLoop => { t with uart := uart }) hsame.symm

theorem mainLoopStep_dev (hown : onBus e = none)
    (h : mainLoopStep c s e = some t) :
    t.log.dev = { s.log.dev with fifo := t.log.dev.fifo } := by
  cases mainLoopStep_event h with
  | usb _ => exact absurd hown (by simp [onBus])
  | print _ _ _ | poll _ _ _ | write _ _ | uart _ | sent _ | arrived _ _ => rfl
  | pop _ _ hpop => cases hpop with | _ => rfl

end Main

/-! ## Steps -/

/-- All that an event can do: one of the program's own, or one of the bus and its
interrupt. -/
inductive SystemStep (c : Build) (s : System) : SystemEvent → System → Prop where
  | main {p : MainLoop} (hp : mainLoopStep c s.prog .main = some p) :
      SystemStep c s .main (s.withProg p)
  | uart {p : MainLoop} (hp : mainLoopStep c s.prog .uart = some p) :
      SystemStep c s .uart (s.withProg p)
  | sent {p : MainLoop} (hp : mainLoopStep c s.prog .sent = some p) :
      SystemStep c s .sent (s.withProg p)
  | arrived {data : UInt8} {p : MainLoop}
      (hp : mainLoopStep c s.prog (.arrived data) = some p) :
      SystemStep c s (.arrived data) (s.withProg p)
  | usb {f : UsbEvent} {u : Usb} (hu : usbStep c.fw s.usb f = some u) :
      SystemStep c s (.usb f) (s.withUsb u (s.accept c.fw f))

theorem systemStep_event {c : Build} {s s' : System} {e : SystemEvent}
    (h : systemStep c s e = some s') : SystemStep c s e s' := by
  cases e with
  | main =>
      rw [systemStep] at h
      split at h
      · exact absurd h (by simp)
      · obtain ⟨p, hp, rfl⟩ := Option.map_eq_some_iff.mp h
        exact .main hp
  | uart =>
      rw [systemStep] at h
      split at h
      · exact absurd h (by simp)
      · obtain ⟨p, hp, rfl⟩ := Option.map_eq_some_iff.mp h
        exact .uart hp
  | sent =>
      obtain ⟨p, hp, rfl⟩ := Option.map_eq_some_iff.mp h
      exact .sent hp
  | arrived data =>
      rw [systemStep] at h
      obtain ⟨p, hp, rfl⟩ := Option.map_eq_some_iff.mp h
      exact .arrived hp
  | usb f =>
      obtain ⟨u, hu, rfl⟩ := Option.map_eq_some_iff.mp h
      exact .usb hu

/-- The assumptions on the bus, and the two windows of the transmitter. -/
def unhurriedSystem (s : System) : SystemEvent → Bool
  | .uart => unhurriedUart s.prog.uart .isr
  | .usb e => unhurriedBus s.usb e
  | .main | .sent | .arrived _ => true

/-- As `unhurriedLoop`, where the bus completes only what endpoint 0 answers. -/
def attended (s : MainLoop) : MainLoopEvent → Bool
  | .uart => unhurriedLoop s .uart
  | .usb e => responds s.log.dev e
  | .main | .sent | .arrived _ => true

/-- Next to the program whose handlers ran at once: it has got through `fs`, and
what else was on the bus waits. -/
structure Trails (c : Build) (start : MainLoop) (s : System) (t : MainLoop)
    (fs : List MainLoopEvent) (packets : List Ep0Event) (resets : Nat) :
    Prop where
  run : runs (guarded attended (mainLoopStep c)) start fs = some t
  bus : s.usb.bus =
    fs.filterMap onBus ++ (packets ++ List.replicate resets .busReset)
  waiting : Waiting s.usb packets resets t.log.dev
  regs : SetUp s.usb
  prog : s.prog = withDev t s.usb.dev

section Step

variable {c : Build} {s s' : System} {t start : MainLoop} {fs : List MainLoopEvent}
  {packets : List Ep0Event} {resets : Nat} {e : SystemEvent}

theorem trails_own {f : MainLoopEvent} {p : MainLoop}
    (h : Trails c start s t fs packets resets) (hown : onBus f = none)
    (hok : attended t f = true) (hstep : mainLoopStep c s.prog f = some p) :
    ∃ t', Trails c start (s.withProg p) t' (fs ++ [f]) packets resets := by
  rw [h.prog, mainLoopStep_withDev hown h.waiting.fifo] at hstep
  obtain ⟨t', ht', rfl⟩ := Option.map_eq_some_iff.mp hstep
  refine ⟨t', ?_, ?_, ?_, ⟨h.regs.ctrl, h.regs.enabled, h.regs.ieUsb, h.regs.ea⟩,
    rfl⟩
  · rw [runs_append, h.run]
    exact runs_single (guarded_of hok ht')
  · rw [List.filterMap_append, List.filterMap_cons_none hown, List.filterMap_nil,
      List.append_nil]
    exact h.bus
  · rw [mainLoopStep_dev hown ht']
    exact h.waiting.withFifo _

theorem accept_congr {fw : Firmware} {l m : SetupLog} {f g : Ep0Event}
    (hlogged : f.logged = g.logged) (hfifo : l.dev.fifo = m.dev.fifo)
    (haccepted : l.accepted = m.accepted) : l.accept fw f = m.accept fw g := by
  rw [SetupLog.accept, SetupLog.accept, hlogged, hfifo, haccepted]

theorem attended_resets (c : Build) (t : MainLoop) (k : Nat) :
    runs (guarded attended (mainLoopStep c)) t
        (List.replicate (k + 1) (.usb .busReset)) =
      some (withDev t (usbEp0Reset t.log.dev)) := by
  induction k generalizing t with
  | zero => rfl
  | succ k ih => exact ih (withDev t (usbEp0Reset t.log.dev))

/-- What the handlers do in a step is one step, or more, of the program. -/
theorem served_runs {f : UsbEvent} {handled : List Ep0Event} {d' : Ep0}
    (h : Trails c start s t fs packets resets)
    (hserved : Served c.fw s.usb f t.log.dev handled d') :
    runs (guarded attended (mainLoopStep c)) t (handled.map .usb) =
      some { t with
        log := { t.log with dev := d', accepted := s.accept c.fw f } } := by
  have haccepted : s.prog.log.accepted = t.log.accepted := by
    rw [h.prog]
    rfl
  cases hserved with
  | nothing hnone =>
      have hsame : s.accept c.fw f = t.log.accepted := by
        rw [System.accept, hnone]
        exact haccepted
      rw [hsame]
      rfl
  | @packet token rxLen data d' hhandled hresp hstep =>
      have hsame : s.accept c.fw f = t.log.accept c.fw (.packet token rxLen data) := by
        rw [System.accept, hhandled]
        exact accept_congr (logged_buffered _ _ _ _)
          ((congrArg Ep0.fifo s.shared).trans h.waiting.fifo) haccepted
      have hloop : mainLoopStep c t (.usb (.packet token rxLen data)) = some { t with
          log := { t.log with
            dev := d'
            accepted := t.log.accept c.fw (.packet token rxLen data) } } := by
        simp only [mainLoopStep, setupLogStep, hstep, Option.map_some]
      rw [hsame]
      exact runs_single (guarded_of hresp hloop)
  | resets hnone k =>
      have hsame : s.accept c.fw f = t.log.accepted := by
        rw [System.accept, hnone]
        exact haccepted
      rw [hsame, List.map_replicate]
      exact attended_resets c t k

theorem trails_usb {f : UsbEvent} {u : Usb}
    (h : Trails c start s t fs packets resets)
    (hstep : guarded unhurriedBus (usbStep c.fw) s.usb f = some u) :
    ∃ t' fs' packets' resets',
      Trails c start (s.withUsb u (s.accept c.fw f)) t' fs' packets' resets' := by
  obtain ⟨came, handled, packets', resets', d', hcame, hrest, hserved, h'⟩ :=
    waiting_step h.waiting h.regs hstep
  have hbus : (handled.map MainLoopEvent.usb).filterMap onBus = handled := by
    rw [List.filterMap_map]
    exact List.filterMap_some
  refine ⟨{ t with
      log := { t.log with dev := d', accepted := s.accept c.fw f } },
    fs ++ handled.map .usb, packets', resets', ?_, ?_, h',
    setUp_step h.regs (usbStep_event (guarded_eq_some hstep).2), ?_⟩
  · rw [runs_append, h.run]
    exact served_runs h hserved
  · show u.bus = _
    rw [hcame, h.bus, List.append_assoc, hrest, List.filterMap_append, hbus,
      List.append_assoc]
  · rw [System.withUsb, h.prog]
    rfl

theorem trails_step (h : Trails c start s t fs packets resets)
    (hstep : guarded unhurriedSystem (systemStep c) s e = some s') :
    ∃ t' fs' packets' resets', Trails c start s' t' fs' packets' resets' := by
  obtain ⟨hok, hstep⟩ := guarded_eq_some hstep
  have hown : ∀ f p, onBus f = none → attended t f = true →
      mainLoopStep c s.prog f = some p →
      ∃ t' fs' packets' resets',
        Trails c start (s.withProg p) t' fs' packets' resets' := by
    intro f p hf hokay hp
    obtain ⟨t', h'⟩ := trails_own h hf hokay hp
    exact ⟨t', _, packets, resets, h'⟩
  cases systemStep_event hstep with
  | main hp => exact hown .main _ rfl rfl hp
  | uart hp =>
      have hquiet : attended t .uart = true := by
        rw [unhurriedSystem, h.prog] at hok
        exact hok
      exact hown .uart _ rfl hquiet hp
  | sent hp => exact hown .sent _ rfl rfl hp
  | @arrived data _ hp => exact hown (.arrived data) _ rfl rfl hp
  | usb hu => exact trails_usb h (guarded_of hok hu)

end Step

/-! ## Runs -/

section Runs

variable {c : Build} {s : System} {usb : Usb} {setupPacket : UsbSetupFifoItem}
  {rxBuffer txBuffer : Nat → UInt8} {sbuf1 : UInt8} {es : List SystemEvent}

theorem trails_init (c : Build) (usb : Usb) (setupPacket : UsbSetupFifoItem)
    (rxBuffer txBuffer : Nat → UInt8) (sbuf1 : UInt8) :
    Trails c (mainLoopInit usb.dev setupPacket rxBuffer txBuffer sbuf1)
      (systemStart usb setupPacket rxBuffer txBuffer sbuf1)
      (mainLoopInit usb.dev setupPacket rxBuffer txBuffer sbuf1) [] [] 0 where
  run := rfl
  bus := rfl
  waiting := waiting_init _
  regs := setUp_init _
  prog := rfl

theorem trails_run
    (h : runs (guarded unhurriedSystem (systemStep c))
      (systemStart usb setupPacket rxBuffer txBuffer sbuf1) es = some s) :
    ∃ t fs packets resets,
      Trails c (mainLoopInit usb.dev setupPacket rxBuffer txBuffer sbuf1) s t fs
        packets resets := by
  refine runs_inv (I := fun s => ∃ t fs packets resets,
    Trails c (mainLoopInit usb.dev setupPacket rxBuffer txBuffer sbuf1) s t fs
      packets resets) ?_
    ⟨_, _, _, _, trails_init c usb setupPacket rxBuffer txBuffer sbuf1⟩ h
  rintro s e s' ⟨_, _, _, _, ht⟩ hstep
  exact trails_step ht hstep

/-- With no flag up nothing waits. -/
theorem Trails.settled {start t : MainLoop} {fs : List MainLoopEvent}
    {packets : List Ep0Event} {resets : Nat}
    (h : Trails c start s t fs packets resets)
    (htransfer : s.usb.irq.uifTransfer = false)
    (hbusRst : s.usb.irq.uifBusRst = false) :
    s.prog = t ∧ s.usb.bus = fs.filterMap onBus := by
  obtain ⟨rfl, hdev⟩ := h.waiting.idle (unhandled_of_down htransfer)
  obtain rfl := h.waiting.no_resets (unreset_of_down hbusRst)
  have hbus := h.bus
  rw [List.replicate_zero, List.append_nil, List.append_nil] at hbus
  refine ⟨?_, hbus⟩
  rw [h.prog, hdev]
  rfl

/-- The main program with its two interrupts, the bus and the line, in any order
but for a reset too close to a transaction and the two windows of the
transmitter, is the program in which every event of the bus is handled on the
spot, up to one transaction and the resets that wait: it has printed, popped and
accepted the same, and with no flag up it is in the same state. -/
theorem system_refines
    (h : runs (guarded unhurriedSystem (systemStep c))
      (systemStart usb setupPacket rxBuffer txBuffer sbuf1) es = some s) :
    ∃ fs t packets resets,
      runs (guarded attended (mainLoopStep c))
          (mainLoopInit usb.dev setupPacket rxBuffer txBuffer sbuf1) fs = some t ∧
        s.usb.bus =
          fs.filterMap onBus ++ (packets ++ List.replicate resets .busReset) ∧
        Handing s.usb t.log.dev packets ∧ s.prog = withDev t s.usb.dev ∧
        (s.usb.irq.uifTransfer = false → s.usb.irq.uifBusRst = false →
          s.prog = t ∧ s.usb.bus = fs.filterMap onBus) := by
  obtain ⟨t, fs, packets, resets, ht⟩ := trails_run h
  exact ⟨fs, t, packets, resets, ht.run, ht.bus, ht.waiting.handing, ht.prog,
    fun htransfer hbusRst => ht.settled htransfer hbusRst⟩

/-- A packet waits while the greeting is printed; a byte is sent, another comes in
and a reset begins while its handler runs; then the UART interrupt, and a packet
that waits. -/
def busyBus : List SystemEvent :=
  List.replicate 22 .main ++
    [.usb (setupTransaction [0x80, 0x06, 0x00, 0x02, 0x00, 0x00, 0xff, 0x00]),
      .main, .usb .isr, .usb .access, .sent, .usb .access, .usb .access,
      .arrived 0x41, .usb .busReset] ++
    List.replicate 5 (.usb .access) ++
    [.uart, .main,
      .usb (setupTransaction [0x00, 0x05, 0x07, 0x00, 0x00, 0x00, 0x00, 0x00]),
      .main]

def busyStart : System :=
  systemStart usbPowerOn ⟨0, 0, 0, 0, 0⟩ (fun _ => 0) (fun _ => 0) 0

theorem system_refines_busy :
    ∃ s, runs (guarded unhurriedSystem (systemStep defaultBuild)) busyStart busyBus =
        some s ∧
      s.usb.bus.length = 3 ∧ s.usb.irq.uifTransfer = true ∧
      ∃ fs t packets resets,
        runs (guarded attended (mainLoopStep defaultBuild))
            (mainLoopInit usbPowerOn.dev ⟨0, 0, 0, 0, 0⟩ (fun _ => 0) (fun _ => 0) 0)
            fs = some t ∧
          s.usb.bus =
            fs.filterMap onBus ++ (packets ++ List.replicate resets .busReset) ∧
          Handing s.usb t.log.dev packets ∧ s.prog = withDev t s.usb.dev ∧
          (s.usb.irq.uifTransfer = false → s.usb.irq.uifBusRst = false →
            s.prog = t ∧ s.usb.bus = fs.filterMap onBus) := by
  have hrun : (runs (guarded unhurriedSystem (systemStep defaultBuild)) busyStart
      busyBus).map (fun s => (s.usb.bus.length, s.usb.irq.uifTransfer)) =
        some (3, true) := rfl
  obtain ⟨s, hs, hlast⟩ := Option.map_eq_some_iff.mp hrun
  obtain ⟨hlength, htransfer⟩ := Prod.mk.injEq .. ▸ hlast
  exact ⟨s, hs, hlength, htransfer, system_refines hs⟩

end Runs

end Ch552e.Proofs
