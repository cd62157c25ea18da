import Ch552e.Proofs.Commit
import Ch552e.Proofs.Transfer

/-!
# The configuration a device advertises and the one it accepts

A host selects a configuration by the `bConfigurationValue` it has read. The
value comes from the configuration descriptor, a hook of the library's user;
`is_set_configuration` compares with 1 and does not ask the hook. So
`AcceptsAdvertised`, which is what a host relies on, holds of the firmwares
that advertise 1, in every state, and of no other.
-/

namespace Ch552e.Proofs

open Ch552e.Lib Ch552e.Ref Ch552e.Spec

variable {fw : Firmware} {tree : Tree} {s : Ep0} {p : UsbSetupPacket}

/-- The field of the configuration descriptor. -/
def bConfigurationValue (fw : Firmware) : UInt8 :=
  fw.code (fw.usbGetConfigurationDescriptor + 5)

/-- A well-formed SET_CONFIGURATION, for whatever value. -/
def Selects (p : UsbSetupPacket) : Prop :=
  p.bmRequestType =
      (mreqDirectionH2d ||| mreqTypeStandard ||| mreqTargetDevice) ∧
    p.bRequest = reqSetConfiguration ∧ p.wIndex = 0 ∧ p.wLength = 0

/-- The request is accepted, and its status stage configures the device. -/
def Configures (fw : Firmware) (s : Ep0) (p : UsbSetupPacket) : Prop :=
  ∃ s₁ s₂, ep0Step fw s (.setup p) = some s₁ ∧ statusIn fw s₁ = some s₂ ∧
    s₂.configuration.toUInt16 = p.wValue

/-- The request is answered with STALL and changes no configuration. -/
def Refuses (fw : Firmware) (s : Ep0) (p : UsbSetupPacket) : Prop :=
  ∃ s₁, ep0Step fw s (.setup p) = some s₁ ∧
    s₁.uep0Ctrl = uepRResStall ||| uepTResStall ∧
    s₁.configuration = s.configuration

/-- In `s`, the device accepts the configuration it advertises, and
unconfiguring, and nothing else. -/
def AcceptsAdvertised (fw : Firmware) (s : Ep0) : Prop :=
  ∀ p, Selects p →
    if p.wValue = 0 ∨ p.wValue = (bConfigurationValue fw).toUInt16 then
      Configures fw s p
    else Refuses fw s p

/-! ## What the classifier does -/

theorem isSetConfiguration_iff (h : Selects p) :
    isSetConfiguration p = true ↔ p.wValue = 0 ∨ p.wValue = 1 := by
  obtain ⟨htype, hreq, hindex, hlen⟩ := h
  simp [isSetConfiguration, htype, hreq, hindex, hlen]

theorem accepts_selects (h : Selects p) : accepts p = isSetConfiguration p := by
  have hreq := h.2.1
  have hget : isGetDescriptor p = false := by
    rw [Bool.eq_false_iff]
    intro hg
    rw [bRequest_getDescriptor hg] at hreq
    exact absurd hreq (by decide)
  have haddr : isSetAddress p = false := by
    rw [Bool.eq_false_iff]
    intro ha
    rw [bRequest_setAddress ha] at hreq
    exact absurd hreq (by decide)
  simp [accepts, haddr, isGetDeviceDescriptor, isGetConfigurationDescriptor,
    hget]

theorem configures_of_accepted (h : isSetConfiguration p = true) :
    Configures fw s p := by
  obtain ⟨r, hstep⟩ := ep0Step_setup_packet fw p s
  rw [handleSetup_configuration fw r h] at hstep
  have hle := wValue_of_setConfiguration h
  exact ⟨_, _, hstep, statusIn_armFirst fw .waitSetConfiguration _,
    (wValueL_of_le hle).1⟩

theorem refuses_of_rejected (h : accepts p = false) : Refuses fw s p := by
  have hstep := ep0Step_setup fw
    (fun i => if h : i < 8 then p.bytes ⟨i, h⟩ else 0) s
  rw [ofData_bytes, handleSetup_rejected fw _ h] at hstep
  exact ⟨_, hstep, rfl, rfl⟩

/-- The values the device accepts, whatever it advertises. -/
theorem selects_outcome (h : Selects p) :
    if p.wValue = 0 ∨ p.wValue = 1 then Configures fw s p
    else Refuses fw s p := by
  split
  · next hv => exact configures_of_accepted ((isSetConfiguration_iff h).mpr hv)
  · next hv =>
      rw [← isSetConfiguration_iff h, ← accepts_selects h,
        Bool.not_eq_true] at hv
      exact refuses_of_rejected hv

theorem not_configures_of_refuses (h : Refuses fw s p) :
    ¬ Configures fw s p := by
  rintro ⟨s₁, s₂, hstep, hstatus, _⟩
  obtain ⟨t, hstep', hctrl, _⟩ := h
  rw [hstep] at hstep'
  obtain rfl := Option.some.inj hstep'
  have hres : s₁.tRes = uepTResStall := by
    rw [Ep0.tRes, hctrl]
    decide
  rw [statusIn, if_neg] at hstatus
  · exact absurd hstatus (by simp)
  · rintro ⟨hack, _⟩
    rw [hres] at hack
    exact absurd hack (by decide)

/-- SET_CONFIGURATION of the value `v`. -/
def setConfiguration (v : UInt8) : UsbSetupPacket :=
  packetOf [0x00, 0x09, v, 0x00, 0x00, 0x00, 0x00, 0x00]

theorem selects_setConfiguration (v : UInt8) :
    Selects (setConfiguration v) := by
  refine ⟨rfl, rfl, ?_, ?_⟩
  · show u16le 0 0 = 0
    decide
  · show u16le 0 0 = 0
    decide

theorem wValue_setConfiguration (v : UInt8) :
    (setConfiguration v).wValue = v.toUInt16 := by
  apply UInt16.toNat_inj.mp
  rw [UsbSetupPacket.wValue, toNat_u16le]
  show v.toNat + 256 * 0 = _
  rw [UInt8.toNat_toUInt16]
  rfl

/-- A device accepts exactly what it advertises if and only if it advertises
configuration 1. -/
theorem acceptsAdvertised_iff (fw : Firmware) (s : Ep0) :
    AcceptsAdvertised fw s ↔ bConfigurationValue fw = 1 := by
  constructor
  · intro h
    by_contra hne
    have hselects := selects_setConfiguration 1
    have hvalue : (setConfiguration 1).wValue = 1 := wValue_setConfiguration 1
    have hone : Configures fw s (setConfiguration 1) :=
      configures_of_accepted ((isSetConfiguration_iff hselects).mpr (.inr hvalue))
    have hother : ¬ ((setConfiguration 1).wValue = 0 ∨
        (setConfiguration 1).wValue = (bConfigurationValue fw).toUInt16) := by
      rw [hvalue]
      rintro (hzero | hsame)
      · exact absurd hzero (by decide)
      · have hnat := congrArg UInt16.toNat hsame
        rw [UInt8.toNat_toUInt16] at hnat
        exact hne (UInt8.toNat_inj.mp hnat.symm)
    have hsays := h _ hselects
    rw [if_neg hother] at hsays
    exact not_configures_of_refuses hsays hone
  · intro h p hp
    rw [h]
    exact selects_outcome hp

/-! ## The host's way to the value -/

/-- What a configuration read answers with has the field where the structure
has it. -/
theorem answer_value (hs : Serves fw tree) (hfield : 5 < tree.config.len.toNat)
    (hreach : 5 < (answer fw tree p).length) :
    (answer fw tree p)[5]? = some (bConfigurationValue fw) := by
  rw [length_answer, answerLength] at hreach
  have hbytes : tree.bytes fw = tree.config.bytes fw ++
      (tree.interfaces.flatMap Interface.descriptors).flatMap
        (Descriptor.bytes fw) := rfl
  have hlen : 5 < (tree.config.bytes fw).length := by
    rw [Descriptor.bytes, length_slice]
    exact hfield
  rw [answer, List.getElem?_take_of_lt (by omega), hbytes,
    List.getElem?_append_left hlen, List.getElem?_eq_getElem hlen]
  simp only [Descriptor.bytes, getElem_slice]
  rw [bConfigurationValue, hs.config_ptr]
  rfl

/-- Where the device accepts what it advertises, a host that reads the
configuration descriptor and selects the value in it is configured. -/
theorem configured_by_what_is_read (hs : Serves fw tree)
    (hacc : ∀ s, AcceptsAdvertised fw s)
    (hp : isGetConfigurationDescriptor p = true)
    (hfield : 5 < tree.config.len.toNat)
    (hreach : 5 < (answer fw tree p).length) (s₀ : Ep0) :
    ∃ s₁ n sent last s₂ v, ep0Step fw s₀ (.setup p) = some s₁ ∧
      hostRead fw n p.wLength.toNat s₁ = some (sent, last) ∧
      statusOut fw last = some s₂ ∧
      (sent.map Ep0.armed).flatten[5]? = some v ∧
      Configures fw s₂ (setConfiguration v) := by
  have hlen : p.wLength ≠ 0 := by
    intro hzero
    rw [length_answer, answerLength, hzero] at hreach
    exact absurd hreach (by simp)
  obtain ⟨s₁, n, sent, last, hstep, _, hans⟩ := setup_answers hs hp hlen s₀
  obtain ⟨t, rfl⟩ := hans.finished
  obtain ⟨s₂, hout, _⟩ := statusOut_ready fw t
  refine ⟨s₁, n, sent, _, s₂, bConfigurationValue fw, hstep, hans.read, hout,
    ?_, ?_⟩
  · rw [hans.armed, flatten_packets (by decide)]
    exact answer_value hs hfield hreach
  · have hsays := hacc s₂ _ (selects_setConfiguration (bConfigurationValue fw))
    rwa [if_pos (.inr (wValue_setConfiguration _))] at hsays

/-! ## A device that advertises 2 -/

/-- The demo program with 2 for its `bConfigurationValue`. -/
def advertisingTwo : Firmware :=
  { demo with
    code := Function.update demo.code (configurationDescriptorAddress + 5) 2 }

/-- The host reads the value 2, and its selection of it is stalled. -/
theorem advertised_refused :
    bConfigurationValue advertisingTwo = 2 ∧
      ∃ s₁ s₂, ep0Step advertisingTwo (usbEp0Init powerOn)
          (.setup (readConfiguration 9)) = some s₁ ∧
        s₁.armed[5]? = some 2 ∧
        runs (ep0Step advertisingTwo) s₁ [.tokenIn, .statusOut] = some s₂ ∧
        Refuses advertisingTwo s₂ (setConfiguration 2) ∧
        ¬ AcceptsAdvertised advertisingTwo s₂ := by
  have hrefused : ∀ s, Refuses advertisingTwo s (setConfiguration 2) :=
    fun s => refuses_of_rejected (by decide)
  have hvalue : bConfigurationValue advertisingTwo = 2 := by decide
  have hsome : ((ep0Step advertisingTwo (usbEp0Init powerOn)
      (.setup (readConfiguration 9))).bind fun s₁ =>
        (runs (ep0Step advertisingTwo) s₁ [.tokenIn, .statusOut]).map
          fun _ => s₁.armed[5]?) = some (some 2) := by
    decide +kernel
  obtain ⟨s₁, hsetup, hsome⟩ := Option.bind_eq_some_iff.mp hsome
  obtain ⟨s₂, hrun, hread⟩ := Option.map_eq_some_iff.mp hsome
  refine ⟨hvalue, s₁, s₂, hsetup, hread, hrun, hrefused s₂, fun h => ?_⟩
  have hsays := h _ (selects_setConfiguration 2)
  rw [hvalue, if_pos (.inr (wValue_setConfiguration 2))] at hsays
  exact not_configures_of_refuses (hrefused s₂) hsays

end Ch552e.Proofs
