import Ch552e.Proofs.DataStage

/-!
# Control transfers, from SETUP to the status stage

Which accepted requests a host can see through to the end. A request without
data is over with one IN, and a control read with the IN of its last packet
and one empty OUT; each arm below is one request's way through.

GET_DESCRIPTOR with `wLength = 0` is the exception. It has no data stage, so
its status stage is an IN, but both branches of the handler go on as if data
had been read: the configuration branch waits for an OUT and answers NAK to the
IN, the device branch answers the IN and then waits for an OUT that the host
has no reason to send.
-/

namespace Ch552e.Proofs

open Ch552e.Lib Ch552e.Ref Ch552e.Spec

variable {fw : Firmware} {tree : Tree} {p : UsbSetupPacket}

/-! ## The status stages -/

theorem ready_of {s : Ep0} (hstate : s.state = .idle)
    (hctrl : s.uep0Ctrl = uepRResAck ||| uepTResNak) : Ready s := by
  rw [Ready, Ep0.rRes, Ep0.tRes, hctrl]
  exact ⟨hstate, by decide, by decide⟩

theorem statusOut_ready (fw : Firmware) (t : Ep0) :
    ∃ s, statusOut fw (awaitStatusOut t) = some s ∧ Ready s := by
  rw [statusOut, if_pos (awaitStatusOut_ctrl t).2.1]
  exact ⟨_, rfl, ready_of rfl rfl⟩

theorem statusIn_armFirst (fw : Firmware) (state : UsbEp0State) (s : Ep0) :
    statusIn fw (armFirst state 0 s) = usbEp0HandleIn fw (armFirst state 0 s) := by
  obtain ⟨htog, hack, _⟩ := armFirst_ctrl state 0 s
  rw [statusIn, if_pos ⟨hack, rfl, htog⟩]
  rfl

theorem wLength_of_setAddress (h : isSetAddress p = true) : p.wLength = 0 := by
  simp only [isSetAddress, Bool.and_eq_true, decide_eq_true_eq] at h
  exact h.1.2

theorem wLength_of_setConfiguration (h : isSetConfiguration p = true) :
    p.wLength = 0 := by
  simp only [isSetConfiguration, Bool.and_eq_true, decide_eq_true_eq] at h
  exact h.1.2

/-! ## The transfers -/

/-- The host sees the request through, from `s₀` on. -/
def Completes (fw : Firmware) (p : UsbSetupPacket) (s₀ : Ep0) : Prop :=
  ∃ n s₁ s₂, ep0Step fw s₀ (.setup p) = some s₁ ∧
    controlTransfer fw n p s₁ = some s₂ ∧ Ready s₂

theorem completes_setAddress (h : isSetAddress p = true) (s₀ : Ep0) :
    Completes fw p s₀ := by
  obtain ⟨r, hstep⟩ := ep0Step_setup_packet fw p s₀
  rw [handleSetup_address fw r h] at hstep
  have hstatus := fun t => statusIn_armFirst fw .waitDeviceAddress t
  exact ⟨0, _, _, hstep,
    (if_pos (wLength_of_setAddress h)).trans (hstatus _), ready_of rfl rfl⟩

theorem completes_setConfiguration (h : isSetConfiguration p = true) (s₀ : Ep0) :
    Completes fw p s₀ := by
  obtain ⟨r, hstep⟩ := ep0Step_setup_packet fw p s₀
  rw [handleSetup_configuration fw r h] at hstep
  have hstatus := fun t => statusIn_armFirst fw .waitSetConfiguration t
  exact ⟨0, _, _, hstep,
    (if_pos (wLength_of_setConfiguration h)).trans (hstatus _), ready_of rfl rfl⟩

theorem completes_getConfiguration (hs : Serves fw tree)
    (h : isGetConfigurationDescriptor p = true) (hlen : p.wLength ≠ 0)
    (s₀ : Ep0) : Completes fw p s₀ := by
  obtain ⟨s₁, n, sent, last, hstep, _, hans⟩ := setup_answers hs h hlen s₀
  obtain ⟨t, rfl⟩ := hans.finished
  obtain ⟨s₂, hout, hready⟩ := statusOut_ready fw t
  refine ⟨n, s₁, s₂, hstep, ?_, hready⟩
  rw [controlTransfer, if_neg hlen, hans.read]
  exact hout

theorem deviceLength_eq (hdev : fw.code fw.usbGetDeviceDescriptor = 18) :
    (deviceLength fw p).toNat = min 18 p.wLength.toNat := by
  have h18 : ((18 : UInt8).toUInt16).toNat = 18 := rfl
  simp only [deviceLength, hdev]
  split
  · next h =>
      have hlt := UInt16.lt_iff_toNat_lt.mp h
      rw [UInt16.toNat_toUInt8]
      omega
  · next h =>
      have hge : ¬ p.wLength.toNat < ((18 : UInt8).toUInt16).toNat :=
        fun hlt => h (UInt16.lt_iff_toNat_lt.mpr hlt)
      rw [show ((18 : UInt8)).toNat = 18 from rfl]
      omega

theorem completes_getDevice (hdev : fw.code fw.usbGetDeviceDescriptor = 18)
    (h : isGetDeviceDescriptor p = true) (hlen : p.wLength ≠ 0) (s₀ : Ep0) :
    Completes fw p s₀ := by
  obtain ⟨r, hstep⟩ := ep0Step_setup_packet fw p s₀
  rw [handleSetup_device fw r h, Option.map_some, answerSetup] at hstep
  generalize hs₁ : armFirst .sendDeviceDescriptor (deviceLength fw p) _ = s₁
    at hstep
  have hack : s₁.tRes = uepTResAck := by rw [← hs₁]; exact (armFirst_ctrl ..).2.1
  have hin : ep0Step fw s₁ .tokenIn = some (awaitStatusOut s₁) := by
    rw [← hs₁]
    rfl
  have harmed : s₁.armed.length = min 18 p.wLength.toNat := by
    rw [length_armed, ← deviceLength_eq hdev, ← hs₁]
    rfl
  have hshort : s₁.armed.length < usbEp0BufferSize := by
    have hsize : usbEp0BufferSize = 64 := rfl
    omega
  obtain ⟨s₂, hout, hready⟩ := statusOut_ready fw s₁
  refine ⟨1, s₁, s₂, hstep, ?_, hready⟩
  rw [controlTransfer, if_neg hlen, hostRead, if_pos hack, hin,
    Option.bind_some, if_pos (.inl hshort)]
  exact hout

/-! ## The exception -/

/-- A configuration request for no bytes: the status IN is answered with
NAK. -/
theorem not_completes_getConfiguration
    (h : isGetConfigurationDescriptor p = true) (hlen : p.wLength = 0)
    (s₀ : Ep0) : ¬ Completes fw p s₀ := by
  rintro ⟨n, s₁, s₂, hstep, htransfer, _⟩
  obtain ⟨r, hr⟩ := ep0Step_setup_packet fw p s₀
  rw [handleSetup_zero fw r h hlen, hstep] at hr
  obtain rfl := Option.some.inj hr
  rw [controlTransfer, if_pos hlen, statusIn, if_neg] at htransfer
  · exact absurd htransfer (by simp)
  · rintro ⟨hack, _⟩
    rw [answerSetup, (awaitStatusOut_ctrl _).1] at hack
    exact absurd hack (by decide)

/-- A device request for no bytes: the status IN is answered, and leaves the
device waiting for an OUT. -/
theorem not_completes_getDevice (h : isGetDeviceDescriptor p = true)
    (hlen : p.wLength = 0) (s₀ : Ep0) : ¬ Completes fw p s₀ := by
  rintro ⟨n, s₁, s₂, hstep, htransfer, hready, _⟩
  obtain ⟨r, hr⟩ := ep0Step_setup_packet fw p s₀
  rw [handleSetup_device fw r h, hstep] at hr
  obtain rfl := Option.some.inj hr
  rw [controlTransfer, if_pos hlen, statusIn] at htransfer
  split at htransfer
  · obtain rfl := Option.some.inj htransfer
    have hwait : UsbEp0State.waitStatusOut = .idle := hready
    exact absurd hwait (by decide)
  · exact absurd htransfer (by simp)

/-- A host can see an accepted request through exactly when the request has
data, or is one that is not to have any. -/
theorem completes_iff (hs : Serves fw tree)
    (hdev : fw.code fw.usbGetDeviceDescriptor = 18) (hp : accepts p = true)
    (s₀ : Ep0) :
    Completes fw p s₀ ↔
      isSetAddress p = true ∨ isSetConfiguration p = true ∨ p.wLength ≠ 0 := by
  rcases accepts_cases p with ha | hd | hc | hset | hno
  · exact iff_of_true (completes_setAddress ha s₀) (.inl ha)
  · have hget := (getDevice_iff.mp hd).1
    have hna := not_setAddress_of_get hget
    have hns := fun hc => not_getDescriptor_of_setConfiguration hc hget
    by_cases hlen : p.wLength = 0
    · refine iff_of_false (not_completes_getDevice hd hlen s₀) ?_
      rintro (ha | hset | hne)
      · exact hna ha
      · exact hns hset
      · exact hne hlen
    · exact iff_of_true (completes_getDevice hdev hd hlen s₀) (.inr (.inr hlen))
  · have hget := (getConfiguration_iff.mp hc).1
    have hna := not_setAddress_of_get hget
    have hns := fun hc => not_getDescriptor_of_setConfiguration hc hget
    by_cases hlen : p.wLength = 0
    · refine iff_of_false (not_completes_getConfiguration hc hlen s₀) ?_
      rintro (ha | hset | hne)
      · exact hna ha
      · exact hns hset
      · exact hne hlen
    · exact iff_of_true (completes_getConfiguration hs hc hlen s₀)
        (.inr (.inr hlen))
  · exact iff_of_true (completes_setConfiguration hset s₀) (.inr (.inl hset))
  · rw [hno] at hp
    exact absurd hp (by simp)

theorem completes_iff_serial :
    Completes serial (readConfiguration 255) (usbEp0Init powerOn) ∧
      (Completes serial (readConfiguration 255) (usbEp0Init powerOn) ↔
        isSetAddress (readConfiguration 255) = true ∨
          isSetConfiguration (readConfiguration 255) = true ∨
          (readConfiguration 255).wLength ≠ 0) := by
  have hiff := completes_iff (p := readConfiguration 255) serial_serves (by decide)
    (by decide) (usbEp0Init powerOn)
  exact ⟨hiff.mpr (.inr (.inr (by decide))), hiff⟩

def readDevice (wLengthL : UInt8) : UsbSetupPacket :=
  packetOf [0x80, 0x06, 0x00, 0x01, 0x00, 0x00, wLengthL, 0x00]

/-- The demo program, freshly initialised, asked for no bytes of either
descriptor: it accepts both requests and neither can be seen through. The
configuration request is not even answered. -/
theorem demo_read_nothing :
    Serves demo demoTree ∧ demo.code demo.usbGetDeviceDescriptor = 18 ∧
      accepts (readConfiguration 0) = true ∧ accepts (readDevice 0) = true ∧
      ¬ Completes demo (readConfiguration 0) (usbEp0Init powerOn) ∧
      ¬ Completes demo (readDevice 0) (usbEp0Init powerOn) ∧
      (ep0Step demo (usbEp0Init powerOn) (.setup (readConfiguration 0))).map
        Ep0.tRes = some uepTResNak :=
  ⟨demo_serves, by decide, by decide, by decide,
    not_completes_getConfiguration (by decide) (by decide) _,
    not_completes_getDevice (by decide) (by decide) _, rfl⟩

end Ch552e.Proofs
