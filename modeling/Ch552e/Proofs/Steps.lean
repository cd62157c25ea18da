import Ch552e.Ref.Handlers

/-!
# What an event does

One equation for each kind of event, so that nothing after this file opens
`ep0Step` or the dispatch: a SETUP of eight bytes is `usb_ep0_handle_setup` on
those bytes, any other SETUP stalls, IN and OUT are their handlers, and any
other token is nothing. `EventStep` lists all that an event can do, and
`ep0Step_event` says the list is complete; an invariant of endpoint 0 is a case
analysis over it.
-/

namespace Ch552e.Proofs

open Ch552e.Lib Ch552e.Ref

theorem copySetupPacket_receive (data : Nat → UInt8) (s : Ep0) :
    copySetupPacket (receive uisTokenSetup 8 data s).xram = .ofData data := by
  have hx : (receive uisTokenSetup 8 data s).xram =
      blit s.xram usbEp0BufferAddress 8 data := rfl
  rw [hx, copySetupPacket, UsbSetupPacket.ofData]
  congr 1
  funext i
  exact blit_inside i.isLt

theorem ofData_bytes (p : UsbSetupPacket) :
    UsbSetupPacket.ofData
      (fun i => if h : i < 8 then p.bytes ⟨i, h⟩ else 0) = p := by
  simp [UsbSetupPacket.ofData]

/-- The state a SETUP packet is handled in: received and logged. -/
def received (fw : Firmware) (data : Nat → UInt8) (s : Ep0) : Ep0 :=
  logSetup fw (.ofData data) (receive uisTokenSetup 8 data s)

theorem ep0Step_setup (fw : Firmware) (data : Nat → UInt8) (s : Ep0) :
    ep0Step fw s (.packet uisTokenSetup 8 data) =
      (usbEp0HandleSetup fw (.ofData data) (received fw data s)).map
        answerSetup := by
  have hlen : (receive uisTokenSetup 8 data s).usbRxLen = 8 := rfl
  rw [ep0Step, usbEp0HandlePacket, usbEp0HandlePacketWith, if_pos rfl,
    if_neg (not_not.mpr hlen)]
  simp only [copySetupPacket_receive]
  rfl

theorem ep0Step_setup_length {rxLen : UInt8} (fw : Firmware)
    (data : Nat → UInt8) (s : Ep0) (h : rxLen ≠ 8) :
    ep0Step fw s (.packet uisTokenSetup rxLen data) =
      some (usbEp0Stall (receive uisTokenSetup rxLen data s)) := by
  have hlen : (receive uisTokenSetup rxLen data s).usbRxLen = rxLen := rfl
  rw [ep0Step, usbEp0HandlePacket, usbEp0HandlePacketWith, if_pos rfl,
    if_pos (hlen.symm ▸ h)]

theorem ep0Step_in (fw : Firmware) (rxLen : UInt8) (data : Nat → UInt8)
    (s : Ep0) :
    ep0Step fw s (.packet uisTokenIn rxLen data) = usbEp0HandleIn fw s := rfl

theorem ep0Step_out (fw : Firmware) (rxLen : UInt8) (data : Nat → UInt8)
    (s : Ep0) :
    ep0Step fw s (.packet uisTokenOut rxLen data) =
      some (usbEp0HandleOut rxLen (receive uisTokenOut rxLen data s)) := rfl

theorem ep0Step_other {token : UInt8} (fw : Firmware) (rxLen : UInt8)
    (data : Nat → UInt8) (s : Ep0) (hsetup : token ≠ uisTokenSetup)
    (hin : token ≠ uisTokenIn) (hout : token ≠ uisTokenOut) :
    ep0Step fw s (.packet token rxLen data) = some s := by
  have hrecv : receive token rxLen data s = s :=
    if_neg (not_or.mpr ⟨hsetup, hout⟩)
  rw [ep0Step, hrecv, usbEp0HandlePacket, usbEp0HandlePacketWith, if_neg hsetup,
    if_neg hin, if_neg hout]

/-- The kinds of event the dispatch tells apart. -/
@[elab_as_elim]
theorem ep0Event_cases {motive : Ep0Event → Prop} (e : Ep0Event)
    (setup : ∀ data, motive (.packet uisTokenSetup 8 data))
    (malformed : ∀ rxLen data, rxLen ≠ 8 →
      motive (.packet uisTokenSetup rxLen data))
    (tokenIn : ∀ rxLen data, motive (.packet uisTokenIn rxLen data))
    (tokenOut : ∀ rxLen data, motive (.packet uisTokenOut rxLen data))
    (other : ∀ token rxLen data, token ≠ uisTokenSetup → token ≠ uisTokenIn →
      token ≠ uisTokenOut → motive (.packet token rxLen data))
    (busReset : motive .busReset) : motive e := by
  cases e with
  | busReset => exact busReset
  | packet token rxLen data =>
      by_cases hsetup : token = uisTokenSetup
      · subst hsetup
        by_cases hlen : rxLen = 8
        · subst hlen
          exact setup data
        · exact malformed rxLen data hlen
      · by_cases hin : token = uisTokenIn
        · subst hin
          exact tokenIn rxLen data
        · by_cases hout : token = uisTokenOut
          · subst hout
            exact tokenOut rxLen data
          · exact other token rxLen data hsetup hin hout

/-- The ways a call of the fill function ends, if it does. -/
inductive PrepareStep (fw : Firmware) (s : Ep0) : UInt8 → Ep0 → Prop where
  | nothing (h : s.state ≠ .sendConfigurationDescriptor ∨ s.arms.cursor = 0) :
      PrepareStep fw s 0 s
  | filled (hstate : s.state = .sendConfigurationDescriptor)
      (hcursor : s.arms.cursor ≠ 0) (f : Filling)
      (hloop : fillLoop fw ⟨s.arms, s.xram, 0, s.trace⟩ = some f) :
      PrepareStep fw s f.filledBytes
        { s with arms := f.arms, xram := f.xram, trace := f.trace }

theorem usbEp0PrepareDescriptor_step {fw : Firmware} {s s' : Ep0}
    {length : UInt8} (h : usbEp0PrepareDescriptor fw s = some (length, s')) :
    PrepareStep fw s length s' := by
  unfold usbEp0PrepareDescriptor at h
  split at h
  · next hstate =>
      injection h with h
      obtain ⟨rfl, rfl⟩ := Prod.mk.injEq .. ▸ h
      exact .nothing (.inl hstate)
  · next hstate =>
      split at h
      · next hcursor =>
          injection h with h
          obtain ⟨rfl, rfl⟩ := Prod.mk.injEq .. ▸ h
          exact .nothing (.inr hcursor)
      · next hcursor =>
          obtain ⟨f, hloop, hf⟩ := Option.map_eq_some_iff.mp h
          obtain ⟨rfl, rfl⟩ := Prod.mk.injEq .. ▸ hf
          exact .filled (not_not.mp hstate) hcursor f hloop

/-- A call of the fill function touches the stream, the memory and the ghost
trace, nothing else. -/
theorem usbEp0PrepareDescriptor_frame {fw : Firmware} {s s' : Ep0}
    {length : UInt8} (h : usbEp0PrepareDescriptor fw s = some (length, s')) :
    s' = { s with arms := s'.arms, xram := s'.xram, trace := s'.trace } := by
  cases usbEp0PrepareDescriptor_step h with
  | nothing _ | filled _ _ _ _ => rfl

/-! ## The requests -/

def accepts (p : UsbSetupPacket) : Bool :=
  isSetAddress p || isGetDeviceDescriptor p ||
    isGetConfigurationDescriptor p || isSetConfiguration p

theorem accepts_cases (p : UsbSetupPacket) :
    isSetAddress p = true ∨ isGetDeviceDescriptor p = true ∨
      isGetConfigurationDescriptor p = true ∨ isSetConfiguration p = true ∨
      accepts p = false := by
  simp only [accepts, Bool.or_eq_false_iff]
  cases isSetAddress p <;> cases isGetDeviceDescriptor p <;>
    cases isGetConfigurationDescriptor p <;> cases isSetConfiguration p <;> simp

/-! A request is of one kind: the kinds differ in `bRequest`, or in the
descriptor type asked for. -/

section Kinds

variable {p : UsbSetupPacket}

theorem bRequest_setAddress (h : isSetAddress p = true) :
    p.bRequest = reqSetAddress := by
  simp only [isSetAddress, Bool.and_eq_true, decide_eq_true_eq] at h
  exact h.1.1.1.2

theorem bRequest_setConfiguration (h : isSetConfiguration p = true) :
    p.bRequest = reqSetConfiguration := by
  simp only [isSetConfiguration, Bool.and_eq_true, decide_eq_true_eq] at h
  exact h.1.1.1.2

theorem bRequest_getDescriptor (h : isGetDescriptor p = true) :
    p.bRequest = reqGetDescriptor := by
  simp only [isGetDescriptor, Bool.and_eq_true, decide_eq_true_eq] at h
  exact h.1.1.2

theorem getDevice_iff :
    isGetDeviceDescriptor p = true ↔
      isGetDescriptor p = true ∧ p.wValueH = usbDescriptorTypeDevice := by
  simp [isGetDeviceDescriptor]

theorem getConfiguration_iff :
    isGetConfigurationDescriptor p = true ↔
      isGetDescriptor p = true ∧ p.wValueH = usbDescriptorTypeConfiguration := by
  simp [isGetConfigurationDescriptor]

theorem not_setAddress_of_get (h : isGetDescriptor p = true) :
    isSetAddress p ≠ true := by
  intro ha
  have hreq := bRequest_setAddress ha
  rw [bRequest_getDescriptor h] at hreq
  exact absurd hreq (by decide)

theorem not_getDevice_of_configuration
    (h : isGetConfigurationDescriptor p = true) :
    isGetDeviceDescriptor p ≠ true := by
  intro hd
  have htype := (getDevice_iff.mp hd).2
  rw [(getConfiguration_iff.mp h).2] at htype
  exact absurd htype (by decide)

theorem not_getDescriptor_of_setConfiguration
    (h : isSetConfiguration p = true) : isGetDescriptor p ≠ true := by
  intro hg
  have hreq := bRequest_setConfiguration h
  rw [bRequest_getDescriptor hg] at hreq
  exact absurd hreq (by decide)

theorem not_setAddress_of_setConfiguration (h : isSetConfiguration p = true) :
    isSetAddress p ≠ true := by
  intro ha
  have hreq := bRequest_setAddress ha
  rw [bRequest_setConfiguration h] at hreq
  exact absurd hreq (by decide)

end Kinds

/-- The first packet after a SETUP, armed: DATA1, and both directions open. -/
def armFirst (state : UsbEp0State) (length : UInt8) (s : Ep0) : Ep0 :=
  { s with
    state := state
    uep0TLen := length
    uep0Ctrl := bUepTTog ||| bUepRTog ||| uepRResAck ||| uepTResAck }

theorem armFirst_ctrl (state : UsbEp0State) (length : UInt8) (s : Ep0) :
    (armFirst state length s).tTog = true ∧
      (armFirst state length s).tRes = uepTResAck ∧
      (armFirst state length s).rRes = uepRResAck := by
  have hctrl : (armFirst state length s).uep0Ctrl = 0xC0 := rfl
  rw [Ep0.tTog, Ep0.tRes, Ep0.rRes, hctrl]
  decide

theorem awaitStatusOut_ctrl (s : Ep0) :
    (awaitStatusOut s).tRes = uepTResNak ∧
      (awaitStatusOut s).rRes = uepRResAck ∧ (awaitStatusOut s).rTog = true := by
  have hctrl : (awaitStatusOut s).uep0Ctrl = 0x82 := rfl
  rw [Ep0.tRes, Ep0.rRes, Ep0.rTog, hctrl]
  decide

def deviceLength (fw : Firmware) (p : UsbSetupPacket) : UInt8 :=
  let descriptorSize := fw.code fw.usbGetDeviceDescriptor
  if descriptorSize.toUInt16 > p.wLength then p.wLength.toUInt8
  else descriptorSize

theorem deviceLength_le (fw : Firmware) (p : UsbSetupPacket) :
    (deviceLength fw p).toNat ≤ (fw.code fw.usbGetDeviceDescriptor).toNat := by
  simp only [deviceLength]
  split
  · next h =>
      have hlt := UInt16.lt_iff_toNat_lt.mp h
      rw [UInt8.toNat_toUInt16] at hlt
      rw [UInt16.toNat_toUInt8]
      omega
  · exact Nat.le_refl _

/-- The stream a request starts does not depend on the state it comes in. -/
theorem startConfigStream_arms (fw : Firmware) (p : UsbSetupPacket)
    (s t : Ep0) :
    (startConfigStream fw p s).arms = (startConfigStream fw p t).arms := rfl

section Requests

variable {p : UsbSetupPacket} (fw : Firmware) (s : Ep0)

theorem handleSetup_address (h : isSetAddress p = true) :
    usbEp0HandleSetup fw p s = some (true, armFirst .waitDeviceAddress 0
      { s with arms := s.arms.setAddressCandidate p.wValueL }) := by
  rw [usbEp0HandleSetup, if_pos h]
  rfl

theorem handleSetup_device (h : isGetDeviceDescriptor p = true) :
    usbEp0HandleSetup fw p s =
      some (true, armFirst .sendDeviceDescriptor (deviceLength fw p)
        { s with
          xram := blit s.xram usbEp0BufferAddress
            (fw.code fw.usbGetDeviceDescriptor).toNat
            (fw.bytesAt fw.usbGetDeviceDescriptor) }) := by
  rw [usbEp0HandleSetup, if_neg (not_setAddress_of_get (getDevice_iff.mp h).1),
    if_pos h, ← memcpyCodeToXdata_eq]
  rfl

theorem handleSetup_zero (h : isGetConfigurationDescriptor p = true)
    (hlen : p.wLength = 0) :
    usbEp0HandleSetup fw p s =
      some (true, awaitStatusOut (startConfigStream fw p s)) := by
  rw [usbEp0HandleSetup,
    if_neg (not_setAddress_of_get (getConfiguration_iff.mp h).1),
    if_neg (not_getDevice_of_configuration h), if_pos h]
  exact if_pos hlen

theorem handleSetup_stream (h : isGetConfigurationDescriptor p = true)
    (hlen : p.wLength ≠ 0) :
    usbEp0HandleSetup fw p s =
      (usbEp0PrepareDescriptor fw (startConfigStream fw p s)).map
        fun (length, s) => (true, armFirst s.state length s) := by
  rw [usbEp0HandleSetup,
    if_neg (not_setAddress_of_get (getConfiguration_iff.mp h).1),
    if_neg (not_getDevice_of_configuration h), if_pos h]
  exact if_neg hlen

theorem handleSetup_configuration (h : isSetConfiguration p = true) :
    usbEp0HandleSetup fw p s = some (true, armFirst .waitSetConfiguration 0
      { s with arms := s.arms.setConfigurationCandidate p.wValueL }) := by
  have hget := not_getDescriptor_of_setConfiguration h
  rw [usbEp0HandleSetup, if_neg (not_setAddress_of_setConfiguration h),
    if_neg fun hd => hget (getDevice_iff.mp hd).1,
    if_neg fun hc => hget (getConfiguration_iff.mp hc).1, if_pos h]
  rfl

theorem handleSetup_rejected (h : accepts p = false) :
    usbEp0HandleSetup fw p s = some (false, s) := by
  simp only [accepts, Bool.or_eq_false_iff] at h
  obtain ⟨⟨⟨ha, hd⟩, hc⟩, hs⟩ := h
  simp [usbEp0HandleSetup, ha, hd, hc, hs]

end Requests

/-- The ways a SETUP of eight bytes ends, from the state it is received and
logged in. -/
inductive SetupStep (fw : Firmware) (p : UsbSetupPacket) (s : Ep0) :
    Ep0 → Prop where
  | address (h : isSetAddress p = true) :
      SetupStep fw p s (armFirst .waitDeviceAddress 0
        { s with arms := s.arms.setAddressCandidate p.wValueL })
  | device (h : isGetDeviceDescriptor p = true) :
      SetupStep fw p s (armFirst .sendDeviceDescriptor (deviceLength fw p)
        { s with
          xram := blit s.xram usbEp0BufferAddress
            (fw.code fw.usbGetDeviceDescriptor).toNat
            (fw.bytesAt fw.usbGetDeviceDescriptor) })
  | zero (h : isGetConfigurationDescriptor p = true) (hlen : p.wLength = 0) :
      SetupStep fw p s (awaitStatusOut (startConfigStream fw p s))
  | stream (h : isGetConfigurationDescriptor p = true) (hlen : p.wLength ≠ 0)
      (length : UInt8) (r : Ep0)
      (hprep : usbEp0PrepareDescriptor fw (startConfigStream fw p s) =
        some (length, r)) :
      SetupStep fw p s (armFirst r.state length r)
  | configuration (h : isSetConfiguration p = true) :
      SetupStep fw p s (armFirst .waitSetConfiguration 0
        { s with arms := s.arms.setConfigurationCandidate p.wValueL })
  | rejected (h : accepts p = false) : SetupStep fw p s (usbEp0Stall s)

theorem handleSetup_step {fw : Firmware} {p : UsbSetupPacket} {s s' : Ep0}
    (h : (usbEp0HandleSetup fw p s).map answerSetup = some s') :
    SetupStep fw p s s' := by
  rcases accepts_cases p with ha | hd | hc | hset | hno
  · rw [handleSetup_address fw s ha, Option.map_some, Option.some.injEq] at h
    exact h ▸ .address ha
  · rw [handleSetup_device fw s hd, Option.map_some, Option.some.injEq] at h
    exact h ▸ .device hd
  · by_cases hlen : p.wLength = 0
    · rw [handleSetup_zero fw s hc hlen, Option.map_some, Option.some.injEq] at h
      exact h ▸ .zero hc hlen
    · rw [handleSetup_stream fw s hc hlen, Option.map_map] at h
      obtain ⟨⟨length, r⟩, hprep, hr⟩ := Option.map_eq_some_iff.mp h
      exact hr ▸ .stream hc hlen length r hprep
  · rw [handleSetup_configuration fw s hset, Option.map_some,
      Option.some.injEq] at h
    exact h ▸ .configuration hset
  · rw [handleSetup_rejected fw s hno, Option.map_some, Option.some.injEq] at h
    exact h ▸ .rejected hno

/-! ## IN -/

theorem nextTToggle_eq (s : Ep0) :
    nextTToggle s = if s.tTog then 0 else bUepTTog := by
  have h := forall_byte (P := fun c => (c ^^^ bUepTTog) &&& bUepTTog =
    if c &&& bUepTTog = 0 then bUepTTog else 0) (by decide +kernel) s.uep0Ctrl
  rw [nextTToggle, h, Ep0.tTog]
  by_cases hz : s.uep0Ctrl &&& bUepTTog = 0 <;> simp [hz]

theorem handleIn_complete {fw : Firmware} {s : Ep0}
    (hstate : s.state = .sendConfigurationDescriptor)
    (hreq : s.arms.requestRemaining = 0) :
    usbEp0HandleIn fw s = some (awaitStatusOut s) := by
  simp only [usbEp0HandleIn, hstate, hreq, if_true]

/-- A packet that is not the first one, armed. -/
def armNext (state : UsbEp0State) (length : UInt8) (s : Ep0) : Ep0 :=
  { s with
    state := state
    uep0TLen := length
    uep0Ctrl := nextTToggle s ||| bUepRTog ||| uepRResNak ||| uepTResAck }

theorem armNext_ctrl {s : Ep0} {b : Bool} (state : UsbEp0State)
    (length : UInt8) (h : s.tTog = b) :
    (armNext state length s).tTog = !b ∧
      (armNext state length s).tRes = uepTResAck := by
  have hctrl : (armNext state length s).uep0Ctrl =
      (if b then 0 else bUepTTog) ||| bUepRTog ||| uepRResNak ||| uepTResAck := by
    rw [← h, ← nextTToggle_eq]
    rfl
  rw [Ep0.tTog, Ep0.tRes, hctrl]
  cases b <;> decide

/-- The other three ends of an IN, by what the fill function returned and what
the packet before was. -/
theorem handleIn_prepare {fw : Firmware} {s s' : Ep0} {length : UInt8}
    (hstate : s.state = .sendConfigurationDescriptor)
    (hreq : s.arms.requestRemaining ≠ 0)
    (hprep : usbEp0PrepareDescriptor fw s = some (length, s')) :
    usbEp0HandleIn fw s = some (
      if length = 0 then
        if s.uep0TLen.toNat = usbEp0BufferSize then
          armNext .sendConfigurationZlp 0 s'
        else awaitStatusOut s'
      else armNext s'.state length s') := by
  simp only [usbEp0HandleIn, hstate, hreq, if_false, hprep, Option.map_some]
  rfl

/-- The ways an IN ends. -/
inductive InStep (fw : Firmware) (s : Ep0) : Ep0 → Prop where
  | address (hstate : s.state = .waitDeviceAddress) :
      InStep fw s { s with
        usbDevAd := (s.usbDevAd &&& ~~~maskUsbAddr) ||| s.arms.addressCandidate
        state := .idle
        uep0TLen := 0
        uep0Ctrl := uepRResAck ||| uepTResNak }
  | configuration (hstate : s.state = .waitSetConfiguration) :
      InStep fw s { s with
        state := .idle
        configuration := s.arms.configurationCandidate
        uep0TLen := 0
        uep0Ctrl := uepRResAck ||| uepTResNak }
  | finished (hstate : s.state = .sendDeviceDescriptor ∨
        s.state = .sendConfigurationZlp ∨
        s.state = .sendConfigurationDescriptor ∧ s.arms.requestRemaining = 0) :
      InStep fw s (awaitStatusOut s)
  | short (hstate : s.state = .sendConfigurationDescriptor)
      (hreq : s.arms.requestRemaining ≠ 0) (r : Ep0)
      (hprep : usbEp0PrepareDescriptor fw s = some (0, r))
      (hlen : s.uep0TLen.toNat ≠ usbEp0BufferSize) :
      InStep fw s (awaitStatusOut r)
  | zlp (hstate : s.state = .sendConfigurationDescriptor)
      (hreq : s.arms.requestRemaining ≠ 0) (r : Ep0)
      (hprep : usbEp0PrepareDescriptor fw s = some (0, r))
      (hlen : s.uep0TLen.toNat = usbEp0BufferSize) :
      InStep fw s (armNext .sendConfigurationZlp 0 r)
  | next (hstate : s.state = .sendConfigurationDescriptor)
      (hreq : s.arms.requestRemaining ≠ 0) (length : UInt8) (r : Ep0)
      (hprep : usbEp0PrepareDescriptor fw s = some (length, r))
      (hlen : length ≠ 0) : InStep fw s (armNext r.state length r)
  | ignored (hstate : s.state = .init ∨ s.state = .waitStatusOut ∨
      s.state = .idle) : InStep fw s s

theorem handleIn_step {fw : Firmware} {s s' : Ep0}
    (h : usbEp0HandleIn fw s = some s') : InStep fw s s' := by
  match hs : s.state with
  | .waitDeviceAddress =>
      simp only [usbEp0HandleIn, hs, Option.some.injEq] at h
      exact h ▸ .address hs
  | .waitSetConfiguration =>
      simp only [usbEp0HandleIn, hs, Option.some.injEq] at h
      exact h ▸ .configuration hs
  | .sendDeviceDescriptor =>
      simp only [usbEp0HandleIn, hs, Option.some.injEq] at h
      exact h ▸ .finished (.inl hs)
  | .sendConfigurationZlp =>
      simp only [usbEp0HandleIn, hs, Option.some.injEq] at h
      exact h ▸ .finished (.inr (.inl hs))
  | .sendConfigurationDescriptor =>
      by_cases hreq : s.arms.requestRemaining = 0
      · rw [handleIn_complete hs hreq, Option.some.injEq] at h
        exact h ▸ .finished (.inr (.inr ⟨hs, hreq⟩))
      · match hprep : usbEp0PrepareDescriptor fw s with
        | none =>
            simp only [usbEp0HandleIn, hs, hreq, if_false, hprep] at h
            exact absurd h (by simp)
        | some (length, r) =>
            rw [handleIn_prepare hs hreq hprep, Option.some.injEq] at h
            by_cases hzero : length = 0
            · subst hzero
              rw [if_pos rfl] at h
              by_cases hfull : s.uep0TLen.toNat = usbEp0BufferSize
              · rw [if_pos hfull] at h
                exact h ▸ .zlp hs hreq r hprep hfull
              · rw [if_neg hfull] at h
                exact h ▸ .short hs hreq r hprep hfull
            · rw [if_neg hzero] at h
              exact h ▸ .next hs hreq length r hprep hzero
  | .init =>
      simp only [usbEp0HandleIn, hs, Option.some.injEq] at h
      exact h ▸ .ignored (.inl hs)
  | .waitStatusOut =>
      simp only [usbEp0HandleIn, hs, Option.some.injEq] at h
      exact h ▸ .ignored (.inr (.inl hs))
  | .idle =>
      simp only [usbEp0HandleIn, hs, Option.some.injEq] at h
      exact h ▸ .ignored (.inr (.inr hs))

/-! ## OUT -/

/-- An OUT matters where the status stage is due, and nowhere else. -/
theorem handleOut_eq (length : UInt8) (s : Ep0) :
    usbEp0HandleOut length s =
      if s.state = .waitStatusOut then
        if length ≠ 0 then usbEp0Stall s
        else { s with
          state := .idle
          uep0TLen := 0
          uep0Ctrl := uepRResAck ||| uepTResNak }
      else s := by
  match hs : s.state with
  | .waitStatusOut => simp only [usbEp0HandleOut, hs, if_true]
  | .init | .waitDeviceAddress | .waitSetConfiguration | .sendDeviceDescriptor
  | .sendConfigurationDescriptor | .sendConfigurationZlp | .idle =>
      simp [usbEp0HandleOut, hs]

/-- The ways an OUT ends. -/
inductive OutStep (s : Ep0) (length : UInt8) : Ep0 → Prop where
  | stalled (hstate : s.state = .waitStatusOut) (hlen : length ≠ 0) :
      OutStep s length (usbEp0Stall s)
  | finished (hstate : s.state = .waitStatusOut) (hlen : length = 0) :
      OutStep s length { s with
        state := .idle
        uep0TLen := 0
        uep0Ctrl := uepRResAck ||| uepTResNak }
  | ignored (hstate : s.state ≠ .waitStatusOut) : OutStep s length s

theorem handleOut_step (length : UInt8) (s : Ep0) :
    OutStep s length (usbEp0HandleOut length s) := by
  rw [handleOut_eq]
  split
  · next hstate =>
      split
      · next hlen => exact .stalled hstate hlen
      · next hlen => exact .finished hstate (not_not.mp hlen)
  · next hstate => exact .ignored hstate

/-! ## Any event -/

/-- All that an event can do. -/
inductive EventStep (fw : Firmware) (s : Ep0) : Ep0Event → Ep0 → Prop where
  | setup (data : Nat → UInt8) (s' : Ep0)
      (h : SetupStep fw (.ofData data) (received fw data s) s') :
      EventStep fw s (.packet uisTokenSetup 8 data) s'
  | malformed (rxLen : UInt8) (data : Nat → UInt8) (hlen : rxLen ≠ 8) :
      EventStep fw s (.packet uisTokenSetup rxLen data)
        (usbEp0Stall (receive uisTokenSetup rxLen data s))
  | tokenIn (rxLen : UInt8) (data : Nat → UInt8) (s' : Ep0)
      (h : InStep fw s s') : EventStep fw s (.packet uisTokenIn rxLen data) s'
  | tokenOut (rxLen : UInt8) (data : Nat → UInt8) (s' : Ep0)
      (h : OutStep (receive uisTokenOut rxLen data s) rxLen s') :
      EventStep fw s (.packet uisTokenOut rxLen data) s'
  | other (token rxLen : UInt8) (data : Nat → UInt8)
      (hsetup : token ≠ uisTokenSetup) (hin : token ≠ uisTokenIn)
      (hout : token ≠ uisTokenOut) :
      EventStep fw s (.packet token rxLen data) s
  | busReset : EventStep fw s .busReset (usbEp0Reset s)

theorem ep0Step_event {fw : Firmware} {s s' : Ep0} {e : Ep0Event}
    (h : ep0Step fw s e = some s') : EventStep fw s e s' := by
  cases e using ep0Event_cases with
  | setup data =>
      rw [ep0Step_setup] at h
      exact .setup data s' (handleSetup_step h)
  | malformed rxLen data hlen =>
      rw [ep0Step_setup_length fw data s hlen, Option.some.injEq] at h
      exact h ▸ .malformed rxLen data hlen
  | tokenIn rxLen data => exact .tokenIn rxLen data s' (handleIn_step h)
  | tokenOut rxLen data =>
      rw [ep0Step_out, Option.some.injEq] at h
      exact .tokenOut rxLen data s' (h ▸ handleOut_step _ _)
  | other token rxLen data hsetup hin hout =>
      rw [ep0Step_other fw rxLen data s hsetup hin hout, Option.some.injEq] at h
      exact h ▸ .other token rxLen data hsetup hin hout
  | busReset =>
      obtain rfl := Option.some.inj h
      exact .busReset

end Ch552e.Proofs
