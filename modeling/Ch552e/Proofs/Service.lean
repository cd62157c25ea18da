import Ch552e.Proofs.Device
import Ch552e.Proofs.Session

/-!
# The chip serves the host

`endpoint0_serves_host` for all of it: while the host goes through its session the
main program prints, bytes come and go on the line, and the USB interrupt handles
each token in its own time. A step of the peripheral is now a token and anything
else before and after it, until no flag is up, which is when the host is answered
again.

Both directions are needed. Whatever the host gets through is what it would get
through at the pipe (`settled_round`), and what it can do there it can do here, as
the interrupt alone gets any token done (`can_round`).
-/

namespace Ch552e.Proofs

open Ch552e.Lib Ch552e.Ref Ch552e.Spec

/-! ## A token in its own time -/

def onUsb : HostToken → UsbEvent
  | .setup p =>
      .transaction uisTokenSetup 8 fun i => if h : i < 8 then p.bytes ⟨i, h⟩ else 0
  | .tokenIn => .transaction uisTokenIn 0 fun _ => 0
  | .statusOut => .transaction uisTokenOut 0 fun _ => 0
  | .busReset => .busReset

/-- Anything but a token, with the two windows of the transmitter. -/
def meanwhile (s : System) : SystemEvent → Bool
  | .uart => unhurriedSystem s .uart
  | .usb f =>
      match f with
      | .transaction _ _ _ | .busReset => false
      | .suspend | .isr | .access => true
  | .main | .sent | .arrived _ => true

/-- No flag is up. -/
def Answering (s : System) : Prop :=
  s.usb.irq.uifTransfer = false ∧ s.usb.irq.uifBusRst = false

section Machine

variable {σ : Type} (step : σ → SystemEvent → Option σ) (view : σ → System)

/-- From one state in which the host is answered to the next. -/
def Round (s : σ) (token : HostToken) (s' : σ) : Prop :=
  ∃ before after m n,
    runs (guarded (fun s => meanwhile (view s)) step) s before = some m ∧
      guarded (fun s => unhurriedSystem (view s)) step m (.usb (onUsb token)) =
        some n ∧
      runs (guarded (fun s => meanwhile (view s)) step) n after = some s' ∧
      Answering (view s')

def machine : Peripheral σ where
  face s := faceOf (view s).usb.dev
  step := Round step view

end Machine

/-! ## One machine as another -/

section Alike

variable {σ τ : Type} {step : σ → SystemEvent → Option σ} {view : σ → System}
  {step' : τ → SystemEvent → Option τ} {view' : τ → System} {R : σ → τ → Prop}

/-- Two machines take the same events, and a host and the assumptions see the same
of them. -/
structure MachinesAlike (step : σ → SystemEvent → Option σ) (view : σ → System)
    (step' : τ → SystemEvent → Option τ) (view' : τ → System) (R : σ → τ → Prop) :
    Prop where
  next : ∀ {s t}, R s t → ∀ e, Option.Rel R (step s e) (step' t e)
  face : ∀ {s t}, R s t → faceOf (view s).usb.dev = faceOf (view' t).usb.dev
  irq : ∀ {s t}, R s t → (view s).usb.irq = (view' t).usb.irq
  unhurried : ∀ {s t}, R s t → ∀ e,
    unhurriedSystem (view s) e = unhurriedSystem (view' t) e

theorem MachinesAlike.swap (h : MachinesAlike step view step' view' R) :
    MachinesAlike step' view' step view fun t s => R s t where
  next hts e := rel_swap (h.next hts e)
  face hts := (h.face hts).symm
  irq hts := (h.irq hts).symm
  unhurried hts e := (h.unhurried hts e).symm

theorem MachinesAlike.followedBy (h : MachinesAlike step view step' view' R) :
    FollowedBy (machine step view) (machine step' view') R where
  face hst := h.face hst
  step := by
    rintro s t token s' hst ⟨before, after, m, n, hbefore, htoken, hafter, hdown⟩
    have hmeanwhile : ∀ s t e, R s t →
        Option.Rel R (guarded (fun s => meanwhile (view s)) step s e)
          (guarded (fun t => meanwhile (view' t)) step' t e) := by
      intro s t e hst
      refine guarded_rel ?_ (h.next hst e)
      cases e with
      | uart => exact h.unhurried hst .uart
      | main | sent | arrived _ | usb _ => rfl
    obtain ⟨m', hm', hmm'⟩ := rel_left (runs_rel hmeanwhile hst before) hbefore
    have hunhurried : Option.Rel R
        (guarded (fun s => unhurriedSystem (view s)) step m (.usb (onUsb token)))
        (guarded (fun t => unhurriedSystem (view' t)) step' m' (.usb (onUsb token))) :=
      guarded_rel (h.unhurried hmm' _) (h.next hmm' _)
    obtain ⟨n', hn', hnn'⟩ := rel_left hunhurried htoken
    obtain ⟨t', ht', hst'⟩ := rel_left (runs_rel hmeanwhile hnn' after) hafter
    have hdown' : Answering (view' t') := by
      rw [Answering, ← h.irq hst']
      exact hdown
    exact ⟨t', ⟨before, after, m', n', hm', hn', ht', hdown'⟩, hst'⟩

end Alike

/-! ## The system and the pipe -/

section System

variable {c : Build} {tree : Tree} {s s' : System} {start : MainLoop} {usb : Usb}
  {setupPacket : UsbSetupFifoItem} {rxBuffer txBuffer : Nat → UInt8} {sbuf1 : UInt8}
  {e : SystemEvent} {token : HostToken} {k : Control}

/-- A state that the system can be in, next to the program whose handlers run at
once. -/
def Reached (c : Build) (start : MainLoop) (s : System) : Prop :=
  ∃ t fs packets resets, Trails c start s t fs packets resets

theorem unhurried_of_meanwhile (h : meanwhile s e = true) :
    unhurriedSystem s e = true := by
  cases e with
  | uart => exact h
  | usb f =>
      cases f with
      | transaction _ _ _ | busReset => exact absurd h (by simp [meanwhile])
      | suspend | isr | access => rfl
  | main | sent | arrived _ => rfl

theorem reached_step (h : Reached c start s)
    (hstep : guarded unhurriedSystem (systemStep c) s e = some s') :
    Reached c start s' := by
  obtain ⟨t, fs, packets, resets, ht⟩ := h
  exact trails_step ht hstep

/-- Meanwhile nothing is on the bus. -/
theorem meanwhile_step (h : Reached c start s)
    (hstep : guarded meanwhile (systemStep c) s e = some s') :
    Reached c start s' ∧ s'.usb.bus = s.usb.bus := by
  obtain ⟨hok, hstep⟩ := guarded_eq_some hstep
  refine ⟨reached_step h (guarded_of (unhurried_of_meanwhile hok) hstep), ?_⟩
  cases systemStep_event hstep with
  | main _ | uart _ | sent _ | arrived _ => rfl
  | usb hu =>
      cases usbStep_event hu with
      | transaction _ _ _ _ _ | busReset => exact absurd hok (by simp [meanwhile])
      | _ => rfl

theorem meanwhile_run {es : List SystemEvent} (h : Reached c start s)
    (hrun : runs (guarded meanwhile (systemStep c)) s es = some s') :
    Reached c start s' ∧ s'.usb.bus = s.usb.bus :=
  runs_inv (I := fun t => Reached c start t ∧ t.usb.bus = s.usb.bus)
    (fun _ _ _ ht hstep =>
      have hnext := meanwhile_step ht.1 hstep
      ⟨hnext.1, hnext.2.trans ht.2⟩) ⟨h, rfl⟩ hrun

theorem token_bus
    (hstep : systemStep c s (.usb (onUsb token)) = some s') :
    s'.usb.bus = s.usb.bus ++ [token.event] := by
  cases systemStep_event hstep with
  | usb hu =>
      have hevent := usbStep_event hu
      cases token with
      | setup _ | tokenIn | statusOut =>
          cases hevent with | transaction _ _ _ _ _ => rfl
      | busReset => cases hevent with | busReset => rfl

/-- The host is answered, and sees the pipe after all that was on the bus. -/
structure Settled (c : Build) (tree : Tree) (start : MainLoop) (s : System)
    (k : Control) : Prop where
  reached : Reached c start s
  answering : Answering s
  pipe : runs (controlStep (descriptors c.fw tree)) .fresh s.usb.bus = some k

theorem Settled.face (hs : Serves c.fw tree)
    (hdev : (c.fw.code c.fw.usbGetDeviceDescriptor).toNat < usbEp0BufferSize)
    (h : Settled c tree (mainLoopInit usb.dev setupPacket rxBuffer txBuffer sbuf1) s
      k) : faceOf s.usb.dev = k.face := by
  obtain ⟨t, fs, packets, resets, ht⟩ := h.reached
  have hface := ht.face hs hdev h.answering.1 h.answering.2
  rw [h.pipe] at hface
  exact Option.some.inj hface

/-- With no flag up there is a state of the pipe. -/
theorem settled_of_reached (hs : Serves c.fw tree)
    (hdev : (c.fw.code c.fw.usbGetDeviceDescriptor).toNat < usbEp0BufferSize)
    (h : Reached c (mainLoopInit usb.dev setupPacket rxBuffer txBuffer sbuf1) s)
    (hdown : Answering s) :
    ∃ k, Settled c tree (mainLoopInit usb.dev setupPacket rxBuffer txBuffer sbuf1) s
      k := by
  obtain ⟨t, fs, packets, resets, ht⟩ := h
  obtain ⟨k, hk, _⟩ := ht.presents hs hdev
  obtain ⟨_, hbus⟩ := ht.settled hdown.1 hdown.2
  exact ⟨k, ⟨t, fs, packets, resets, ht⟩, hdown, hbus ▸ hk⟩

/-- Whatever comes before and after the token, the pipe takes it. -/
theorem settled_round (hs : Serves c.fw tree)
    (hdev : (c.fw.code c.fw.usbGetDeviceDescriptor).toNat < usbEp0BufferSize)
    (h : Settled c tree (mainLoopInit usb.dev setupPacket rxBuffer txBuffer sbuf1) s
      k)
    (hround : (machine (systemStep c) id).step s token s') :
    ∃ k', (pipe (descriptors c.fw tree)).step k token k' ∧
      Settled c tree (mainLoopInit usb.dev setupPacket rxBuffer txBuffer sbuf1) s'
        k' := by
  obtain ⟨before, after, m, n, hbefore, htoken, hafter, hdown⟩ := hround
  obtain ⟨hm, hmbus⟩ := meanwhile_run h.reached hbefore
  have hn := reached_step hm htoken
  have hnbus := token_bus (guarded_eq_some htoken).2
  obtain ⟨hs', hsbus⟩ := meanwhile_run hn hafter
  obtain ⟨k', hk'⟩ := settled_of_reached hs hdev hs' hdown
  refine ⟨k', ?_, hk'⟩
  have hpipe := hk'.pipe
  rw [hsbus, hnbus, hmbus, runs_append, h.pipe, Option.bind_some, runs_cons] at hpipe
  obtain ⟨k'', hstep, hlast⟩ := Option.bind_eq_some_iff.mp hpipe
  obtain rfl := Option.some.inj hlast
  exact hstep

/-- The interrupt gets done what is on the bus. -/
theorem can_settle (hs : Serves c.fw tree)
    (hdev : (c.fw.code c.fw.usbGetDeviceDescriptor).toNat < usbEp0BufferSize)
    (h : Reached c (mainLoopInit usb.dev setupPacket rxBuffer txBuffer sbuf1) s) :
    ∃ es s', runs (guarded meanwhile (systemStep c)) s es = some s' ∧
      Answering s' := by
  have hnext : ∀ s, Reached c
        (mainLoopInit usb.dev setupPacket rxBuffer txBuffer sbuf1) s →
      accessesLeft s.usb ≠ 0 →
      ∃ e s', guarded meanwhile (systemStep c) s e = some s' ∧
        Reached c (mainLoopInit usb.dev setupPacket rxBuffer txBuffer sbuf1) s' ∧
        accessesLeft s'.usb < accessesLeft s.usb := by
    intro s hreached hleft
    obtain ⟨t, fs, packets, resets, ht⟩ := hreached
    obtain ⟨k, _, hk⟩ := ht.presents hs hdev
    obtain ⟨f, u, hu⟩ := can_serve ht.regs ht.waiting
      (handles_of_serves hs hdev hk) hleft
    obtain ⟨hsilent, hu⟩ := guarded_eq_some hu
    have hok : meanwhile s (.usb f) = true := by
      cases f with
      | transaction _ _ _ | busReset | suspend =>
          exact absurd hsilent (by simp [busSilent])
      | isr | access => rfl
    have hstep : systemStep c s (.usb f) =
        some (s.withUsb u (s.accept c.fw f)) := by
      rw [systemStep, hu]
      rfl
    have hgo := guarded_of hok hstep
    have hless := accessesLeft_step ht.regs hsilent (usbStep_event hu)
    exact ⟨_, _, hgo, (meanwhile_step ⟨t, fs, packets, resets, ht⟩ hgo).1,
      Nat.lt_of_succ_le (Nat.le_of_eq hless)⟩
  obtain ⟨es, s', hrun, _, hleft⟩ :=
    runs_settle (fun s => accessesLeft s.usb) hnext h
  exact ⟨es, s', hrun, flags_of_settled hleft⟩

/-- A token that the pipe takes is one the bus can complete. -/
theorem can_token (hs : Serves c.fw tree)
    (hdev : (c.fw.code c.fw.usbGetDeviceDescriptor).toNat < usbEp0BufferSize)
    (h : Settled c tree (mainLoopInit usb.dev setupPacket rxBuffer txBuffer sbuf1) s
      k) (hok : k.face.allows token.event = true) :
    ∃ n, guarded unhurriedSystem (systemStep c) s (.usb (onUsb token)) = some n := by
  have hresp : responds s.usb.dev token.event = true := by
    rw [responds_face, h.face hs hdev, hok]
  obtain ⟨htransfer, hbusRst⟩ := h.answering
  have hfree : s.usb.busy = false := by
    rw [Usb.busy, htransfer]
    rfl
  have hgo : ∀ status rxLen data,
      onUsb token = .transaction status rxLen data → status &&& maskUisEndp = 0 →
      responds s.usb.dev (.packet (status &&& maskUisToken) rxLen data) = true →
      ∃ n, guarded unhurriedSystem (systemStep c) s (.usb (onUsb token)) =
        some n := by
    intro status rxLen data htoken hendp hresp
    have hunhurried : unhurriedSystem s (.usb (onUsb token)) = true := by
      rw [htoken, unhurriedSystem, unhurriedBus, hbusRst, hresp]
      rfl
    have hsome : (usbStep c.fw s.usb (onUsb token)).isSome = true := by
      rw [htoken, usbStep, if_neg (by simp [hfree, hendp])]
      rfl
    obtain ⟨u, hu⟩ := Option.isSome_iff_exists.mp hsome
    have hstep : systemStep c s (.usb (onUsb token)) =
        some (s.withUsb u (s.accept c.fw (onUsb token))) := by
      rw [systemStep, hu]
      rfl
    exact ⟨_, guarded_of hunhurried hstep⟩
  cases token with
  | setup p => exact hgo _ _ _ rfl (by decide) hresp
  | tokenIn => exact hgo _ _ _ rfl (by decide) hresp
  | statusOut => exact hgo _ _ _ rfl (by decide) hresp
  | busReset =>
      have hunhurried : unhurriedSystem s (.usb .busReset) = true := by
        simp only [unhurriedSystem, unhurriedBus, htransfer]
        cases s.usb.pc <;> rfl
      exact ⟨_, guarded_of hunhurried rfl⟩

theorem can_round (hs : Serves c.fw tree)
    (hdev : (c.fw.code c.fw.usbGetDeviceDescriptor).toNat < usbEp0BufferSize)
    (h : Settled c tree (mainLoopInit usb.dev setupPacket rxBuffer txBuffer sbuf1) s
      k) {k' : Control}
    (hstep : (pipe (descriptors c.fw tree)).step k token k') :
    ∃ s', (machine (systemStep c) id).step s token s' ∧
      Settled c tree (mainLoopInit usb.dev setupPacket rxBuffer txBuffer sbuf1) s'
        k' := by
  obtain ⟨n, hn⟩ := can_token hs hdev h (guarded_eq_some hstep).1
  obtain ⟨after, s', hafter, hdown⟩ := can_settle hs hdev
    (reached_step h.reached hn)
  have hround : (machine (systemStep c) id).step s token s' :=
    ⟨[], after, s, n, rfl, hn, hafter, hdown⟩
  obtain ⟨k'', hk'', hsettled⟩ := settled_round hs hdev h hround
  obtain rfl := oneWay_pipe _ hstep hk''
  exact ⟨s', hround, hsettled⟩

theorem system_followed (hs : Serves c.fw tree)
    (hdev : (c.fw.code c.fw.usbGetDeviceDescriptor).toNat < usbEp0BufferSize) :
    FollowedBy (machine (systemStep c) id) (pipe (descriptors c.fw tree))
        (Settled c tree (mainLoopInit usb.dev setupPacket rxBuffer txBuffer sbuf1)) ∧
      FollowedBy (pipe (descriptors c.fw tree)) (machine (systemStep c) id)
        fun k s => Settled c tree
          (mainLoopInit usb.dev setupPacket rxBuffer txBuffer sbuf1) s k :=
  ⟨⟨fun h => h.face hs hdev, fun h hround => settled_round hs hdev h hround⟩,
    ⟨fun h => (h.face hs hdev).symm, fun h hstep => can_round hs hdev h hstep⟩⟩

end System

/-! ## The chip -/

section Chip

variable {c : Build} {tree : Tree} {usb : Usb} {setupPacket : UsbSetupFifoItem}
  {sbuf1 : UInt8} {es : List SystemEvent} {b : Device}

theorem device_alike (hfits : Fits c)
    (hdev : (c.fw.code c.fw.usbGetDeviceDescriptor).toNat ≤ usbEp0BufferSize) :
    MachinesAlike (deviceStep c) Device.load (systemStep c) id (Depicts c) where
  next h e := depicts_step hfits hdev h e
  face {b s} h := by
    have hprog : faceOf b.load.prog.log.dev = faceOf s.prog.log.dev :=
      congrArg (fun x => x.1.face) (seen_load h)
    rw [b.load.shared, s.shared] at hprog
    exact hprog
  irq h := congrArg (fun x => x.2.1) (seen_load h)
  unhurried h e := unhurried_load h e

/-- All of it together serves the host: the handlers, the interrupts, the main
program and the queues, on one memory. For every build that the preprocessor lets
pass and whose queues fit between the addresses, every program whose hooks describe
a tree and whose device descriptor is shorter than a packet, and from every state
in which the host is answered: in whatever order everything else comes, the host
gets what it asks for, and it can get all of it. -/
theorem chip_serves_host (hs : Serves c.fw tree)
    (hdev : (c.fw.code c.fw.usbGetDeviceDescriptor).toNat < usbEp0BufferSize)
    (hc : c.Accepted) (hfits : Fits c)
    (h : runs (guarded (fun b => unhurriedSystem b.load) (deviceStep c))
      (deviceStart usb setupPacket sbuf1) es = some b)
    (hdown : Answering b.load) (cs : List HostCommand) :
    ServesHost (machine (deviceStep c) Device.load) (descriptors c.fw tree) b cs := by
  have halike := device_alike hfits (Nat.le_of_lt hdev)
  have hnext : ∀ b s e, Depicts c b s → Option.Rel (Depicts c)
      (guarded (fun b => unhurriedSystem b.load) (deviceStep c) b e)
      (guarded unhurriedSystem (systemStep c) s e) :=
    fun b s e hbs => guarded_rel (halike.unhurried hbs e) (halike.next hbs e)
  obtain ⟨s, hrun, hbs⟩ := rel_left
    (runs_rel hnext (depicts_init usb setupPacket sbuf1 hc hfits) es) h
  have hanswering : Answering s := by
    have hirq : b.load.usb.irq = s.usb.irq := halike.irq hbs
    rw [Answering, ← hirq]
    exact hdown
  obtain ⟨k, hk⟩ := settled_of_reached hs hdev (trails_run hrun) hanswering
  obtain ⟨hsystem, hpipe⟩ := system_followed hs hdev
  exact servesHost_of_pipe (halike.followedBy.trans hsystem)
    (hpipe.trans halike.swap.followedBy) ⟨s, hbs, hk⟩ ⟨s, hk, hbs⟩ cs

/-- The greeting half printed, and a read of the configuration begun. -/
def readBegun : List SystemEvent :=
  List.replicate 22 .main ++
    [.usb (setupTransaction [0x80, 0x06, 0x00, 0x02, 0x00, 0x00, 0xff, 0x00]),
      .main, .usb .isr] ++
    List.replicate 6 (.usb .access)

theorem chip_serves_host_demo :
    ∃ b, runs (guarded (fun b => unhurriedSystem b.load) (deviceStep defaultBuild))
        (deviceStart usbPowerOn ⟨0, 0, 0, 0, 0⟩ 0) readBegun = some b ∧
      Answering b.load ∧
      ServesHost (machine (deviceStep defaultBuild) Device.load)
        (descriptors demo demoTree) b demoSession := by
  have hrun : (runs (guarded (fun b => unhurriedSystem b.load)
      (deviceStep defaultBuild)) (deviceStart usbPowerOn ⟨0, 0, 0, 0, 0⟩ 0)
      readBegun).map (fun b => (b.load.usb.irq.uifTransfer, b.load.usb.irq.uifBusRst)) =
        some (false, false) := rfl
  obtain ⟨b, hb, hlast⟩ := Option.map_eq_some_iff.mp hrun
  obtain ⟨htransfer, hbusRst⟩ := Prod.mk.injEq .. ▸ hlast
  have hdown : Answering b.load := ⟨htransfer, hbusRst⟩
  exact ⟨b, hb, hdown, chip_serves_host (c := defaultBuild) demo_serves (by decide)
    ⟨by decide, by decide, by decide, by decide, by decide, by decide⟩
    ⟨by decide, by decide⟩ hb hdown demoSession⟩

end Chip

end Ch552e.Proofs
