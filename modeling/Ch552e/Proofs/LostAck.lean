import Ch552e.Proofs.Transfer

/-!
# A lost ACK at the end of a control read

When the ACK of the last data packet is lost, the host goes on to the status
stage and the device does not: no IN completes, so the device is still in its
data stage when the empty OUT comes. A device survives that if the OUT is let
in and ends the transfer.

This one never does. `usb_ep0_handle_out` looks for `USB_STATE_WAIT_STATUS_OUT`
alone, and that state is entered by the IN that is missing. What the host sees
differs (`lostAck_stuck`): a data stage of one packet still has the R_RES = ACK
of its SETUP, so the OUT is acknowledged and then ignored, and a later packet
is armed with R_RES = NAK, so the OUT is not taken at all. Either way the packet
stays armed.
-/

namespace Ch552e.Proofs

open Ch552e.Lib Ch552e.Ref Ch552e.Spec

variable {fw : Firmware} {tree : Tree} {p : UsbSetupPacket} {s s' last : Ep0}

/-- `s` is the state from which a host that reads request `p`, sent to a
device in `s₀`, gets the last packet it will ask for. -/
def LastPacket (fw : Firmware) (p : UsbSetupPacket) (s₀ s : Ep0) : Prop :=
  ∃ s₁ n sent last, ep0Step fw s₀ (.setup p) = some s₁ ∧
    hostRead fw n p.wLength.toNat s₁ = some (sent ++ [s], last)

/-- With no IN completed in `s`, the status OUT gets in and ends the transfer,
with nothing left to send. -/
def SurvivesLostAck (fw : Firmware) (s : Ep0) : Prop :=
  ∃ t, statusOut fw s = some t ∧ t.state = .idle ∧ t.tRes = uepTResNak

/-- The states of a data stage. -/
def sendsData : UsbEp0State → Bool
  | .sendDeviceDescriptor | .sendConfigurationDescriptor
  | .sendConfigurationZlp => true
  | .init | .waitDeviceAddress | .waitSetConfiguration | .waitStatusOut
  | .idle => false

/-- A packet of a data stage is armed; what OUT is answered with depends on
which one. -/
structure Offers (s : Ep0) : Prop where
  state : sendsData s.state = true
  ack : s.tRes = uepTResAck
  answer : s.rRes = uepRResAck ∨ s.rRes = uepRResNak

theorem armNext_rRes (state : UsbEp0State) (length : UInt8) (s : Ep0) :
    (armNext state length s).rRes = uepRResNak := by
  have hctrl : (armNext state length s).uep0Ctrl =
      (if s.tTog then 0 else bUepTTog) ||| bUepRTog ||| uepRResNak |||
        uepTResAck := by
    rw [← nextTToggle_eq]
    rfl
  rw [Ep0.rRes, hctrl]
  cases s.tTog <;> decide

theorem offers_armNext {state : UsbEp0State} (h : sendsData state = true)
    (length : UInt8) (s : Ep0) : Offers (armNext state length s) where
  state := h
  ack := (armNext_ctrl _ _ rfl).2
  answer := .inr (armNext_rRes ..)

theorem offers_armFirst {state : UsbEp0State} (h : sendsData state = true)
    (length : UInt8) (s : Ep0) : Offers (armFirst state length s) where
  state := h
  ack := (armFirst_ctrl ..).2.1
  answer := .inl (armFirst_ctrl ..).2.2

theorem not_ack_awaitStatusOut (s : Ep0) :
    (awaitStatusOut s).tRes ≠ uepTResAck := by
  rw [(awaitStatusOut_ctrl s).1]
  decide

/-- What a data stage goes on to, if it goes on, is its next packet. -/
theorem offers_in (hs : Offers s) (h : InStep fw s s')
    (hack : s'.tRes = uepTResAck) : Offers s' := by
  have hstate := hs.state
  cases h with
  | finished _ => exact absurd hack (not_ack_awaitStatusOut s)
  | short _ _ r _ _ => exact absurd hack (not_ack_awaitStatusOut r)
  | zlp _ _ r _ _ => exact offers_armNext rfl 0 r
  | next hconfig _ length r hprep _ =>
      have hr : r.state = s.state := by rw [usbEp0PrepareDescriptor_frame hprep]
      exact offers_armNext (hr ▸ hstate) length r
  | address hwait | configuration hwait =>
      rw [hwait] at hstate
      exact absurd hstate (by simp [sendsData])
  | ignored hwait =>
      rcases hwait with hwait | hwait | hwait
      · rw [hwait] at hstate
        exact absurd hstate (by simp [sendsData])
      · rw [hwait] at hstate
        exact absurd hstate (by simp [sendsData])
      · rw [hwait] at hstate
        exact absurd hstate (by simp [sendsData])

theorem offers_setup {s₀ : Ep0}
    (hp : isGetDeviceDescriptor p = true ∨ isGetConfigurationDescriptor p = true)
    (hlen : p.wLength ≠ 0) (h : ep0Step fw s₀ (.setup p) = some s) : Offers s := by
  obtain ⟨r, hstep⟩ := ep0Step_setup_packet fw p s₀
  rw [h] at hstep
  rcases hp with hdevice | hconfig
  · rw [handleSetup_device fw r hdevice, Option.map_some, Option.some.injEq]
      at hstep
    exact hstep ▸ offers_armFirst rfl _ _
  · rw [handleSetup_stream fw r hconfig hlen, Option.map_map] at hstep
    obtain ⟨⟨length, t⟩, hprep, ht⟩ := Option.map_eq_some_iff.mp hstep.symm
    have hstate : t.state = .sendConfigurationDescriptor := by
      rw [usbEp0PrepareDescriptor_frame hprep]
      rfl
    exact ht ▸ offers_armFirst (congrArg sendsData hstate) length t

/-- Every packet the host gets is a packet of the data stage. -/
theorem hostRead_offers {n want : Nat} {sent : List Ep0}
    (hs : s.tRes = uepTResAck → Offers s)
    (h : hostRead fw n want s = some (sent, last)) : ∀ t ∈ sent, Offers t := by
  induction n generalizing want s sent last with
  | zero => exact absurd h (by simp [hostRead])
  | succ n ih =>
      rw [hostRead] at h
      by_cases hack : s.tRes = uepTResAck
      · rw [if_pos hack] at h
        obtain ⟨s', hstep, h⟩ := Option.bind_eq_some_iff.mp h
        have hoffers := hs hack
        split at h
        · obtain ⟨rfl, _⟩ := Prod.mk.injEq .. ▸ Option.some.inj h
          intro t ht
          exact List.mem_singleton.mp ht ▸ hoffers
        · obtain ⟨⟨rest, last'⟩, hrest, heq⟩ := Option.map_eq_some_iff.mp h
          obtain ⟨rfl, _⟩ := Prod.mk.injEq .. ▸ heq
          intro t ht
          rcases List.mem_cons.mp ht with rfl | ht
          · exact hoffers
          · exact ih (offers_in hoffers (handleIn_step hstep)) hrest t ht
      · rw [if_neg hack] at h
        exact absurd h (by simp)

theorem hostRead_ne_nil {n want : Nat} {sent : List Ep0}
    (h : hostRead fw n want s = some (sent, last)) : sent ≠ [] := by
  cases n with
  | zero => exact absurd h (by simp [hostRead])
  | succ n =>
      rw [hostRead] at h
      split at h
      · obtain ⟨s', _, h⟩ := Option.bind_eq_some_iff.mp h
        split at h
        · obtain ⟨rfl, _⟩ := Prod.mk.injEq .. ▸ Option.some.inj h
          simp
        · obtain ⟨⟨rest, last'⟩, _, heq⟩ := Option.map_eq_some_iff.mp h
          obtain ⟨rfl, _⟩ := Prod.mk.injEq .. ▸ heq
          simp
      · exact absurd h (by simp)

theorem offers_lastPacket {s₀ : Ep0}
    (hp : isGetDeviceDescriptor p = true ∨ isGetConfigurationDescriptor p = true)
    (hlen : p.wLength ≠ 0) (h : LastPacket fw p s₀ s) : Offers s := by
  obtain ⟨s₁, n, sent, last, hsetup, hread⟩ := h
  exact hostRead_offers (fun _ => offers_setup hp hlen hsetup) hread s (by simp)

/-- A data stage that a host can see through has a last packet. -/
theorem lastPacket_exists {s₀ : Ep0} (hlen : p.wLength ≠ 0)
    (h : Completes fw p s₀) : ∃ s, LastPacket fw p s₀ s := by
  obtain ⟨n, s₁, s₂, hsetup, htransfer, _⟩ := h
  rw [controlTransfer, if_neg hlen] at htransfer
  obtain ⟨⟨sent, last⟩, hread, _⟩ := Option.bind_eq_some_iff.mp htransfer
  have hsplit := List.dropLast_append_getLast (hostRead_ne_nil hread)
  rw [← hsplit] at hread
  exact ⟨_, s₁, n, _, last, hsetup, hread⟩

/-! ## The OUT that comes too early -/

theorem handleOut_sendsData (length : UInt8) (hs : sendsData s.state = true) :
    usbEp0HandleOut length s = s := by
  rw [handleOut_eq, if_neg]
  intro hwait
  rw [hwait] at hs
  exact absurd hs (by simp [sendsData])

/-- What the status OUT does while a packet of the data stage is armed: it is
acknowledged and changes nothing, or it is not taken. -/
theorem lostAck_stuck (fw : Firmware) (hs : Offers s) :
    (∃ t, statusOut fw s = some t ∧ t.state = s.state ∧
        t.tRes = uepTResAck ∧ t.uep0TLen = s.uep0TLen) ∨
      statusOut fw s = none ∧ s.rRes = uepRResNak := by
  rcases hs.answer with hack | hnak
  · have hstep : ep0Step fw s .statusOut =
        some (receive uisTokenOut 0 (fun _ => 0) s) := by
      rw [Ep0Event.statusOut, ep0Step_out, handleOut_sendsData]
      exact hs.state
    refine .inl ⟨_, (if_pos hack).trans hstep, rfl, hs.ack, rfl⟩
  · refine .inr ⟨if_neg ?_, hnak⟩
    rw [hnak]
    decide

theorem not_survives (hs : Offers s) : ¬ SurvivesLostAck fw s := by
  rintro ⟨t, hstatus, hidle, _⟩
  rcases lostAck_stuck fw hs with ⟨t', hstatus', hstate, _⟩ | ⟨hnone, _⟩
  · rw [hstatus] at hstatus'
    obtain rfl := Option.some.inj hstatus'
    have hoffers := hs.state
    rw [← hstate, hidle] at hoffers
    exact absurd hoffers (by simp [sendsData])
  · rw [hstatus] at hnone
    exact absurd hnone (by simp)

/-- Every control read has a last packet, and with the ACK of that packet lost
the transfer never ends. -/
theorem lostAck_never_survives (hs : Serves fw tree)
    (hdev : fw.code fw.usbGetDeviceDescriptor = 18)
    (hp : isGetDeviceDescriptor p = true ∨ isGetConfigurationDescriptor p = true)
    (hlen : p.wLength ≠ 0) (s₀ : Ep0) :
    (∃ s, LastPacket fw p s₀ s) ∧
      ∀ s, LastPacket fw p s₀ s → ¬ SurvivesLostAck fw s := by
  constructor
  · rcases hp with hdevice | hconfig
    · exact lastPacket_exists hlen (completes_getDevice hdev hdevice hlen s₀)
    · exact lastPacket_exists hlen (completes_getConfiguration hs hconfig hlen s₀)
  · intro s hlast
    exact not_survives (offers_lastPacket hp hlen hlast)

theorem lostAck_never_survives_demo :
    (∃ s, LastPacket demo (readConfiguration 255) (usbEp0Init powerOn) s) ∧
      ∀ s, LastPacket demo (readConfiguration 255) (usbEp0Init powerOn) s →
        ¬ SurvivesLostAck demo s :=
  lostAck_never_survives demo_serves (by decide) (.inr (by decide)) (by decide) _

/-- The demo program, asked for its configuration: one packet of 18 bytes, whose
state lets the early status OUT in and ignores it. -/
theorem demo_lostAck :
    Serves demo demoTree ∧
      ∃ s t, LastPacket demo (readConfiguration 255) (usbEp0Init powerOn) s ∧
        s.armed.length = 18 ∧ s.rRes = uepRResAck ∧ statusOut demo s = some t ∧
        t.state = .sendConfigurationDescriptor ∧
        ¬ SurvivesLostAck demo s := by
  have hrun : ((ep0Step demo (usbEp0Init powerOn)
      (.setup (readConfiguration 255))).bind fun s =>
        (ep0Step demo s .tokenIn).bind fun _ =>
          (statusOut demo s).map fun t => (s.armed.length, s.rRes, t.state)) =
      some (18, uepRResAck, .sendConfigurationDescriptor) := by
    decide +kernel
  obtain ⟨s, hsetup, hrun⟩ := Option.bind_eq_some_iff.mp hrun
  obtain ⟨last, hin, hrun⟩ := Option.bind_eq_some_iff.mp hrun
  obtain ⟨t, hstatus, hrun⟩ := Option.map_eq_some_iff.mp hrun
  simp only [Prod.mk.injEq] at hrun
  obtain ⟨hlen, hack, hstate⟩ := hrun
  have hoffers : Offers s := offers_setup (.inr (by decide)) (by decide) hsetup
  have hread : hostRead demo 1 255 s = some ([] ++ [s], last) := by
    rw [hostRead, if_pos hoffers.ack, hin, Option.bind_some,
      if_pos (.inl (by rw [hlen]; decide))]
    rfl
  exact ⟨demo_serves, s, t, ⟨s, 1, [], last, hsetup, hread⟩, hlen, hack,
    hstatus, hstate, not_survives hoffers⟩

end Ch552e.Proofs
