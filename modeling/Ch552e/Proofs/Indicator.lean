import Ch552e.Proofs.Device
import Ch552e.Proofs.Handshake

/-!
# The indicator

`main` clears P1.4 and `usb_ep0_stall` sets it; nothing else writes it. So it tells
whether the endpoint has ever answered with STALL, whatever else has happened
since, and that is not a fact about `usb_ep0_stall` alone: none of the dozen other
stores to `UEP0_CTRL` may leave a STALL in it.
-/

namespace Ch552e.Proofs

open Ch552e.Lib Ch552e.Ref Ch552e.Spec

variable {fw : Firmware} {s s' r : Ep0} {p : UsbSetupPacket}

/-! ## The handlers -/

/-- Either the indicator is left as it is and the endpoint does not begin to stall,
or this is what `usb_ep0_stall` leaves. -/
inductive Lamp (s s' : Ep0) : Prop where
  | kept (hlamp : s'.p1_4 = s.p1_4)
      (hstall : s'.tRes = uepTResStall → s.tRes = uepTResStall)
  | stalled (t : Ep0) (ht : s' = usbEp0Stall t)

theorem lamp_of_ack (hlamp : s'.p1_4 = s.p1_4) (hack : s'.tRes = uepTResAck) :
    Lamp s s' :=
  .kept hlamp fun hstall => absurd (hack.symm.trans hstall) (by decide)

theorem lamp_of_nak (hlamp : s'.p1_4 = s.p1_4) (hnak : s'.tRes = uepTResNak) :
    Lamp s s' :=
  .kept hlamp fun hstall => absurd (hnak.symm.trans hstall) (by decide)

theorem lamp_of_same (hlamp : s'.p1_4 = s.p1_4) (hctrl : s'.uep0Ctrl = s.uep0Ctrl) :
    Lamp s s' :=
  .kept hlamp fun hstall => by
    rw [Ep0.tRes, ← hctrl]
    exact hstall

theorem tRes_stall (t : Ep0) : (usbEp0Stall t).tRes = uepTResStall := by
  show (uepRResStall ||| uepTResStall) &&& maskUepTRes = uepTResStall
  decide

/-- Before its handler a packet is received and logged. -/
theorem Lamp.of_same (h : Lamp r s') (hlamp : r.p1_4 = s.p1_4)
    (hctrl : r.uep0Ctrl = s.uep0Ctrl) : Lamp s s' := by
  cases h with
  | kept hkept hstall =>
      refine .kept (hkept.trans hlamp) fun hup => ?_
      rw [Ep0.tRes, ← hctrl]
      exact hstall hup
  | stalled t ht => exact .stalled t ht

theorem prepare_lamp {length : UInt8}
    (h : usbEp0PrepareDescriptor fw s = some (length, r)) : r.p1_4 = s.p1_4 := by
  rw [usbEp0PrepareDescriptor_frame h]

theorem lamp_setup (h : SetupStep fw p s s') : Lamp s s' := by
  cases h with
  | address _ | device _ | configuration _ =>
      exact lamp_of_ack rfl (armFirst_ctrl ..).2.1
  | zero _ _ => exact lamp_of_nak rfl (awaitStatusOut_ctrl _).1
  | stream _ _ length r hprep =>
      have hlamp : r.p1_4 = (startConfigStream fw p s).p1_4 := prepare_lamp hprep
      exact lamp_of_ack hlamp (armFirst_ctrl ..).2.1
  | rejected _ => exact .stalled s rfl

theorem lamp_in (h : InStep fw s s') : Lamp s s' := by
  cases h with
  | address _ | configuration _ =>
      exact lamp_of_nak rfl (listening_of_ctrl rfl rfl).1
  | finished _ => exact lamp_of_nak rfl (awaitStatusOut_ctrl s).1
  | short _ _ r hprep _ =>
      have hlamp : r.p1_4 = s.p1_4 := prepare_lamp hprep
      exact lamp_of_nak hlamp (awaitStatusOut_ctrl r).1
  | zlp _ _ r hprep _ | next _ _ _ r hprep _ =>
      have hlamp : r.p1_4 = s.p1_4 := prepare_lamp hprep
      exact lamp_of_ack hlamp (armNext_ctrl _ _ rfl).2
  | ignored _ => exact lamp_of_same rfl rfl

theorem lamp_out {length : UInt8} (h : OutStep s length s') : Lamp s s' := by
  cases h with
  | stalled _ _ => exact .stalled s rfl
  | finished _ _ => exact lamp_of_nak rfl (listening_of_ctrl rfl rfl).1
  | ignored _ => exact lamp_of_same rfl rfl

theorem lamp_receive (token rxLen : UInt8) (data : Nat → UInt8) (s : Ep0) :
    Lamp s (receive token rxLen data s) := by
  unfold receive
  split <;> exact lamp_of_same rfl rfl

theorem lamp_event {e : Ep0Event} (h : ep0Step fw s e = some s') : Lamp s s' := by
  cases ep0Step_event h with
  | setup _ _ h => exact (lamp_setup h).of_same rfl rfl
  | malformed _ _ _ => exact .stalled _ rfl
  | tokenIn _ _ _ h => exact lamp_in h
  | tokenOut _ _ _ h => exact (lamp_out h).of_same rfl rfl
  | other => exact lamp_of_same rfl rfl
  | busReset => exact lamp_of_nak rfl (listening_of_ctrl rfl rfl).1

/-! ## All of it -/

section System

variable {c : Build} {u u' : Usb} {t t' : System} {f : UsbEvent} {e : SystemEvent}

theorem lamp_usb (h : usbStep fw u f = some u') : Lamp u.dev u'.dev := by
  cases usbStep_event h with
  | transaction status rxLen data _ _ => exact lamp_receive _ _ _ _
  | @handlePacket status dev _ hdev =>
      unfold usbIsrTransfer usbIsrTransferWith at hdev
      dsimp only at hdev
      split at hdev
      · rw [← ep0Step_buffered] at hdev
        exact lamp_event hdev
      · obtain rfl := Option.some.inj hdev
        exact lamp_of_same rfl rfl
  | reset _ => exact lamp_of_nak rfl (listening_of_ctrl rfl rfl).1
  | _ => exact lamp_of_same rfl rfl

theorem lamp_system (h : systemStep c t e = some t') :
    Lamp t.usb.dev t'.usb.dev := by
  have hown : ∀ g p, onBus g = none → mainLoopStep c t.prog g = some p →
      Lamp t.usb.dev (t.withProg p).usb.dev := by
    intro g p hg hp
    have hdev : (t.withProg p).usb.dev =
        { t.usb.dev with fifo := p.log.dev.fifo } := by
      rw [← t.shared]
      exact mainLoopStep_dev hg hp
    rw [hdev]
    exact lamp_of_same rfl rfl
  cases systemStep_event h with
  | main hp => exact hown .main _ rfl hp
  | uart hp => exact hown .uart _ rfl hp
  | sent hp => exact hown .sent _ rfl hp
  | @arrived data _ hp => exact hown (.arrived data) _ rfl hp
  | usb hu => exact lamp_usb hu

theorem stall_face (s : Ep0) : (faceOf s).onIn = .stall ↔ s.tRes = uepTResStall := by
  simp only [faceOf]
  split
  · next hack => simp [hack, uepTResAck, uepTResStall]
  · split <;> simp_all

/-- In every run of all of it, in any order: the indicator is on exactly if it was
on before, which `main` sees to that it was not, or the endpoint has answered with
STALL at some time since. And what makes the endpoint answer with STALL is
`usb_ep0_stall`. -/
theorem indicator_tells_stalls {usb : Usb} {setupPacket : UsbSetupFifoItem}
    {rxBuffer txBuffer : Nat → UInt8} {sbuf1 : UInt8} {es : List SystemEvent}
    (h : runs (systemStep c) (systemStart usb setupPacket rxBuffer txBuffer sbuf1) es =
      some t) :
    (t.usb.dev.p1_4 = true ↔ usb.dev.p1_4 = true ∨
      ∃ fs t', fs <+: es ∧
        runs (systemStep c) (systemStart usb setupPacket rxBuffer txBuffer sbuf1) fs =
          some t' ∧
        (faceOf t'.usb.dev).onIn = .stall) ∧
      ∀ e t', systemStep c t e = some t' → (faceOf t'.usb.dev).onIn = .stall →
        (faceOf t.usb.dev).onIn = .stall ∨ ∃ d, t'.usb.dev = usbEp0Stall d := by
  simp only [stall_face]
  refine ⟨runs_latch (fun t => t.usb.dev.p1_4 = true)
    (fun t => t.usb.dev.tRes = uepTResStall) ?_ ?_ h, ?_⟩
  · intro hstall
    have hnak : (systemStart usb setupPacket rxBuffer txBuffer
        sbuf1).usb.dev.tRes = uepTResNak := (listening_of_ctrl rfl rfl).1
    exact absurd (hnak.symm.trans hstall) (by decide)
  · intro t e t' hon hstep
    cases lamp_system hstep with
    | kept hlamp hstall =>
        rw [hlamp]
        exact ⟨.inl, fun h => h.elim id fun hup => hon (hstall hup)⟩
    | stalled d hd =>
        rw [hd]
        exact iff_of_true rfl (.inr (tRes_stall d))
  · intro e t' hstep hup
    cases lamp_system hstep with
    | kept _ hstall => exact .inl (hstall hup)
    | stalled d hd => exact .inr ⟨d, hd⟩

/-- An address begun, a string that there is not, and the address again: the device
is past the STALL and the indicator is on. -/
def refusedBetween : List SystemEvent :=
  [setupTransaction [0x00, 0x05, 0x07, 0x00, 0x00, 0x00, 0x00, 0x00],
    setupTransaction [0x80, 0x06, 0x00, 0x03, 0x00, 0x00, 0xff, 0x00],
    setupTransaction [0x00, 0x05, 0x07, 0x00, 0x00, 0x00, 0x00, 0x00]].flatMap
    fun e => .usb e :: .main :: .usb .isr :: List.replicate 6 (.usb .access)

theorem indicator_tells_stalls_between :
    ∃ s, runs (systemStep defaultBuild) busyStart refusedBetween = some s ∧
      (faceOf s.usb.dev).onIn = .ack (true, []) ∧ s.usb.dev.p1_4 = true ∧
      (s.usb.dev.p1_4 = true ↔ usbPowerOn.dev.p1_4 = true ∨
        ∃ fs t', fs <+: refusedBetween ∧
          runs (systemStep defaultBuild) busyStart fs = some t' ∧
          (faceOf t'.usb.dev).onIn = .stall) ∧
      ∀ e t', systemStep defaultBuild s e = some t' →
        (faceOf t'.usb.dev).onIn = .stall →
          (faceOf s.usb.dev).onIn = .stall ∨ ∃ d, t'.usb.dev = usbEp0Stall d := by
  have hrun : (runs (systemStep defaultBuild) busyStart refusedBetween).map
      (fun s => ((faceOf s.usb.dev).onIn, s.usb.dev.p1_4)) =
        some (.ack (true, []), true) := rfl
  obtain ⟨s, hs, hlast⟩ := Option.map_eq_some_iff.mp hrun
  obtain ⟨hface, hlamp⟩ := Prod.mk.injEq .. ▸ hlast
  exact ⟨s, hs, hface, hlamp, indicator_tells_stalls hs⟩

end System

end Ch552e.Proofs
