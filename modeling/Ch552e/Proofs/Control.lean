import Ch552e.Lib.Simulation
import Ch552e.Proofs.Commit
import Ch552e.Proofs.DataStage
import Ch552e.Proofs.Transfer
import Ch552e.Spec.Control

/-!
# Endpoint 0 is a control pipe

The handlers refine the pipe of `Spec/Control.lean`: over any events that the bus
can make of the answers, both go through the same stages, and a host that sees
the answers, the packets, the address and the configuration cannot tell the two
apart. `Presents` is the relation between the registers and the stage.

A data stage is the one case with something to it. Between two INs the stream is
due some bytes, and the packets still to be read are the framing of these
(`Follows`); the packet in the buffer is not looked at any more, whatever has
been written over it.
-/

namespace Ch552e.Proofs

open Ch552e.Lib Ch552e.Ref Ch552e.Spec

variable {fw : Firmware} {tree : Tree} {s s' : Ep0} {c : Control}

/-! ## The relation -/

/-- The packets after the one in the buffer. -/
inductive Follows (fw : Firmware) (tree : Tree) (s : Ep0) :
    List (List UInt8) → Prop where
  | last (hstate : s.state = .sendDeviceDescriptor ∨
      s.state = .sendConfigurationZlp) : Follows fw tree s []
  | stream {rest : List (List UInt8)}
      (hstate : s.state = .sendConfigurationDescriptor)
      (htracks : Tracks tree s.arms)
      (hle : (due fw tree s.arms).length ≤ s.arms.requestRemaining.toNat)
      (hshort : s.uep0TLen.toNat ≠ usbEp0BufferSize → due fw tree s.arms = [])
      (hrest : rest =
        if s.uep0TLen.toNat ≠ usbEp0BufferSize ∨
            s.arms.requestRemaining = 0 then []
        else packets usbEp0BufferSize s.arms.requestRemaining.toNat
          (due fw tree s.arms)) : Follows fw tree s rest

/-- The registers and the storage in a stage. -/
def InStage (fw : Firmware) (tree : Tree) (s : Ep0) : Stage → Prop
  | .idle => (s.state = .init ∨ s.state = .idle) ∧
      s.uep0Ctrl = uepRResAck ||| uepTResNak
  | .stalled => s.uep0Ctrl = uepRResStall ||| uepTResStall
  | .addressing a => s.state = .waitDeviceAddress ∧
      s.arms.addressCandidate = a ∧ a ≤ 127 ∧ s.uep0TLen = 0 ∧
      s.uep0Ctrl = bUepTTog ||| bUepRTog ||| uepRResAck ||| uepTResAck
  | .configuring v => s.state = .waitSetConfiguration ∧
      s.arms.configurationCandidate = v ∧ s.uep0TLen = 0 ∧
      s.uep0Ctrl = bUepTTog ||| bUepRTog ||| uepRResAck ||| uepTResAck
  | .reading packet data1 rest first => s.armed = packet ∧
      s.uep0Ctrl = (if data1 then bUepTTog else 0) ||| bUepRTog |||
        (if first then uepRResAck else uepRResNak) ||| uepTResAck ∧
      Follows fw tree s rest
  | .statusOut => s.state = .waitStatusOut ∧
      s.uep0Ctrl = bUepRTog ||| uepRResAck ||| uepTResNak

structure Presents (fw : Firmware) (tree : Tree) (s : Ep0) (c : Control) :
    Prop where
  address : s.usbDevAd = c.address
  small : c.address ≤ 127
  configuration : s.configuration = c.configuration
  stage : InStage fw tree s c.stage

/-- Related states have one face. -/
theorem Presents.face (h : Presents fw tree s c) : faceOf s = c.face := by
  have hstage := h.stage
  obtain ⟨address, configuration, stage⟩ := c
  have hface : ∀ onIn onOut, faceOf s = ⟨s.usbDevAd, s.configuration, onIn, onOut⟩ →
      faceOf s = ⟨address, configuration, onIn, onOut⟩ := by
    intro onIn onOut heq
    rw [heq, h.address, h.configuration]
  cases stage with
  | idle =>
      refine hface _ _ ?_
      simp only [faceOf, Ep0.tRes, Ep0.rRes, Ep0.rTog, hstage.2]
      rfl
  | stalled =>
      have hctrl : s.uep0Ctrl = uepRResStall ||| uepTResStall := hstage
      refine hface _ _ ?_
      simp only [faceOf, Ep0.tRes, Ep0.rRes, hctrl]
      rfl
  | addressing a =>
      obtain ⟨_, _, _, hlen, hctrl⟩ := hstage
      have harmed : s.armed = [] := by rw [Ep0.armed, hlen]; rfl
      refine hface _ _ ?_
      simp only [faceOf, Ep0.tRes, Ep0.rRes, Ep0.tTog, Ep0.rTog, hctrl, harmed]
      rfl
  | configuring v =>
      obtain ⟨_, _, hlen, hctrl⟩ := hstage
      have harmed : s.armed = [] := by rw [Ep0.armed, hlen]; rfl
      refine hface _ _ ?_
      simp only [faceOf, Ep0.tRes, Ep0.rRes, Ep0.tTog, Ep0.rTog, hctrl, harmed]
      rfl
  | reading packet data1 rest first =>
      obtain ⟨harmed, hctrl, _⟩ := hstage
      refine hface _ _ ?_
      simp only [faceOf, Ep0.tRes, Ep0.rRes, Ep0.tTog, Ep0.rTog, hctrl, harmed]
      cases data1 <;> cases first <;> rfl
  | statusOut =>
      refine hface _ _ ?_
      simp only [faceOf, Ep0.tRes, Ep0.rRes, Ep0.rTog, hstage.2]
      rfl

/-! ## The data stage -/

/-- The framing of `bytes` is the packet in the buffer and what follows it. -/
theorem follows_packets {want : Nat} (bytes : List UInt8)
    (hstate : s.state = .sendConfigurationDescriptor)
    (htracks : Tracks tree s.arms)
    (hlen : s.uep0TLen.toNat = min usbEp0BufferSize bytes.length)
    (hdue : due fw tree s.arms = bytes.drop usbEp0BufferSize)
    (hreq : s.arms.requestRemaining.toNat = want - s.uep0TLen.toNat)
    (hle : bytes.length ≤ want) (hpos : 0 < want) :
    ∃ rest, packets usbEp0BufferSize want bytes =
      bytes.take usbEp0BufferSize :: rest ∧ Follows fw tree s rest := by
  have hsize : usbEp0BufferSize = 64 := rfl
  have hdueLe : (due fw tree s.arms).length ≤
      s.arms.requestRemaining.toNat := by
    rw [hdue, List.length_drop]
    omega
  have hshort : s.uep0TLen.toNat ≠ usbEp0BufferSize →
      due fw tree s.arms = [] := by
    intro hne
    rw [hdue]
    exact List.drop_eq_nil_of_le (by omega)
  refine ⟨_, ?_, .stream hstate htracks hdueLe hshort rfl⟩
  by_cases hlast : bytes.length < usbEp0BufferSize ∨ want ≤ usbEp0BufferSize
  · have hend : s.uep0TLen.toNat ≠ usbEp0BufferSize ∨
        s.arms.requestRemaining = 0 := by
      by_cases hfull : s.uep0TLen.toNat = usbEp0BufferSize
      · refine .inr (UInt16.toNat_inj.mp ?_)
        rw [UInt16.toNat_zero]
        omega
      · exact .inl hfull
    rw [if_pos hend, packets_of_last (by decide) hpos hle hlast,
      List.take_of_length_le (by omega)]
  · have hmore : ¬ (s.uep0TLen.toNat ≠ usbEp0BufferSize ∨
        s.arms.requestRemaining = 0) := by
      rintro (hshort | hzero)
      · omega
      · rw [hzero, UInt16.toNat_zero] at hreq
        omega
    have hreq64 : s.arms.requestRemaining.toNat = want - usbEp0BufferSize := by
      omega
    rw [if_neg hmore, packets_of_more (by decide) (by omega) (by omega), hdue,
      hreq64]

/-- An IN in a data stage of a configuration request. -/
theorem stream_in (hs : Serves fw tree) {data1 : Bool} (first : Bool)
    {rest : List (List UInt8)} (h : InStage fw tree s (.reading s.armed data1 rest first))
    (hstate : s.state = .sendConfigurationDescriptor) :
    ∃ s', usbEp0HandleIn fw s = some s' ∧ s'.usbDevAd = s.usbDevAd ∧
      s'.configuration = s.configuration ∧
      InStage fw tree s' (.next data1 rest) := by
  obtain ⟨_, hctrl, hfollows⟩ := h
  cases hfollows with
  | last hother =>
      rcases hother with hd | hz
      · exact absurd (hd.symm.trans hstate) (by decide)
      · exact absurd (hz.symm.trans hstate) (by decide)
  | stream _ htracks hle hshort hrest =>
      subst hrest
      obtain ⟨length, r, hprep, hdel⟩ :=
        usbEp0PrepareDescriptor_serves hs hstate htracks
      have hdlen := congrArg List.length hdel.bytes
      rw [length_slice, List.length_take] at hdlen
      have hframe := hdel.frame
      have haddr : r.usbDevAd = s.usbDevAd := by rw [hframe]
      have hconf : r.configuration = s.configuration := by rw [hframe]
      have htog : r.tTog = data1 := by
        have hsame : r.uep0Ctrl = s.uep0Ctrl := by rw [hframe]
        rw [Ep0.tTog, hsame, hctrl]
        cases data1 <;> cases first <;> rfl
      by_cases hend : s.uep0TLen.toNat ≠ usbEp0BufferSize ∨
          s.arms.requestRemaining = 0
      · rw [if_pos hend]
        by_cases hreq : s.arms.requestRemaining = 0
        · exact ⟨_, handleIn_complete hstate hreq, rfl, rfl, rfl, rfl⟩
        · have hnone := hshort (hend.resolve_right hreq)
          have hzero : length = 0 := by
            refine UInt8.toNat_inj.mp ?_
            rw [hdlen, hnone]
            rfl
          have hstep := handleIn_prepare hstate hreq hprep
          rw [if_pos hzero, if_neg (hend.resolve_right hreq)] at hstep
          exact ⟨_, hstep, haddr, hconf, rfl, rfl⟩
      · rw [if_neg hend]
        obtain ⟨hlen, hreq⟩ := not_or.mp hend
        have hlen := not_not.mp hlen
        have hreqPos := word_pos hreq
        have hstep := handleIn_prepare hstate hreq hprep
        have hnext : ∀ state l, (armNext state l r).uep0Ctrl =
            (if !data1 then bUepTTog else 0) ||| bUepRTog ||| uepRResNak |||
              uepTResAck := by
          intro state l
          rw [armNext, nextTToggle_eq, htog]
          cases data1 <;> rfl
        by_cases hzero : length = 0
        · -- the last packet was full and nothing follows: an empty one
          have hnil : due fw tree s.arms = [] := by
            refine List.length_eq_zero_iff.mp ?_
            have hz : length.toNat = 0 := by rw [hzero]; rfl
            have hsize : usbEp0BufferSize = 64 := rfl
            omega
          rw [if_pos hzero, if_pos hlen] at hstep
          rw [hnil, packets_of_last (by decide) hreqPos (Nat.zero_le _)
            (.inl (by decide))]
          refine ⟨_, hstep, haddr, hconf, rfl, hnext _ _, .last (.inr rfl)⟩
        · rw [if_neg hzero] at hstep
          have hpackets := follows_packets (s := armNext r.state length r)
            (due fw tree s.arms)
            (by
              have hsame : r.state = s.state := by rw [hframe]
              exact hsame.trans hstate)
            hdel.tracks hdlen hdel.rest hdel.request hle hreqPos
          obtain ⟨ps, hcons, hps⟩ := hpackets
          rw [hcons]
          exact ⟨_, hstep, haddr, hconf, hdel.bytes, hnext _ _, hps⟩

/-! ## Event by event -/

theorem presents_reset (fw : Firmware) (tree : Tree) (s : Ep0) :
    Presents fw tree (usbEp0Reset s) .fresh where
  address := rfl
  small := by decide
  configuration := rfl
  stage := ⟨.inl rfl, rfl⟩

theorem Presents.stall (h : Presents fw tree s c) (haddr : s'.usbDevAd = s.usbDevAd)
    (hconf : s'.configuration = s.configuration) :
    Presents fw tree (usbEp0Stall s') { c with stage := .stalled } :=
  ⟨haddr.trans h.address, h.small, hconf.trans h.configuration, rfl⟩

theorem handleIn_addressing (fw : Firmware)
    (hstate : s.state = .waitDeviceAddress) :
    usbEp0HandleIn fw s = some { s with
      usbDevAd := (s.usbDevAd &&& ~~~maskUsbAddr) ||| s.arms.addressCandidate
      state := .idle
      uep0TLen := 0
      uep0Ctrl := uepRResAck ||| uepTResNak } := by
  simp only [usbEp0HandleIn, hstate]

theorem handleIn_configuring (fw : Firmware)
    (hstate : s.state = .waitSetConfiguration) :
    usbEp0HandleIn fw s = some { s with
      state := .idle
      configuration := s.arms.configurationCandidate
      uep0TLen := 0
      uep0Ctrl := uepRResAck ||| uepTResNak } := by
  simp only [usbEp0HandleIn, hstate]

theorem handleIn_last (fw : Firmware)
    (hstate : s.state = .sendDeviceDescriptor ∨ s.state = .sendConfigurationZlp) :
    usbEp0HandleIn fw s = some (awaitStatusOut s) := by
  rcases hstate with hd | hz
  · simp only [usbEp0HandleIn, hd]
  · simp only [usbEp0HandleIn, hz]

theorem presents_in (hs : Serves fw tree) (h : Presents fw tree s c)
    (hack : c.face.onIn.isAck = true) :
    ∃ s', usbEp0HandleIn fw s = some s' ∧ Presents fw tree s' c.tokenIn := by
  obtain ⟨address, configuration, stage⟩ := c
  have haddr : s.usbDevAd = address := h.address
  have hstage : InStage fw tree s stage := h.stage
  cases stage with
  | idle | stalled | statusOut => exact absurd hack (by simp [Control.face, Reply.isAck])
  | addressing a =>
      obtain ⟨hstate, hcand, hsmall, _, _⟩ := hstage
      refine ⟨_, handleIn_addressing fw hstate, ?_, hsmall, h.configuration,
        .inr rfl, rfl⟩
      show (s.usbDevAd &&& ~~~maskUsbAddr) ||| s.arms.addressCandidate = a
      rw [haddr, (and_mask_of_le h.small).2, hcand, UInt8.zero_or]
  | configuring v =>
      obtain ⟨hstate, hcand, _, _⟩ := hstage
      exact ⟨_, handleIn_configuring fw hstate, haddr, h.small, hcand, .inr rfl,
        rfl⟩
  | reading packet data1 rest first =>
      obtain ⟨rfl, hctrl, hfollows⟩ := hstage
      by_cases hstate : s.state = .sendConfigurationDescriptor
      · obtain ⟨s', hstep, haddr', hconf', hnext⟩ :=
          stream_in hs first ⟨rfl, hctrl, hfollows⟩ hstate
        exact ⟨s', hstep, haddr'.trans haddr, h.small,
          hconf'.trans h.configuration, hnext⟩
      · cases hfollows with
        | stream hstream _ _ _ _ => exact absurd hstream hstate
        | last hother =>
            exact ⟨_, handleIn_last fw hother, haddr, h.small, h.configuration,
              rfl, rfl⟩

theorem slice_blit_overwrite (mem data : Nat → UInt8) (d n k : Nat) :
    slice (blit mem d n data) d k = overwrite (slice mem d k) n data := by
  apply List.ext_getElem
  · simp [overwrite]
  · intro i h₁ h₂
    simp only [overwrite, List.getElem_mapIdx, getElem_slice]
    split
    · next hlt => exact blit_inside hlt
    · next hge => exact blit_of_ge (by omega)

theorem presents_out (rxLen : UInt8) (data : Nat → UInt8)
    (h : Presents fw tree s c) (hack : c.face.onOut.isAck = true) :
    Presents fw tree
      (usbEp0HandleOut rxLen (receive uisTokenOut rxLen data s))
      (c.tokenOut rxLen data) := by
  have hrecv : receive uisTokenOut rxLen data s = { s with
      usbRxLen := rxLen
      xram := blit s.xram usbEp0BufferAddress
        (min rxLen.toNat usbEp0BufferSize) data } := rfl
  obtain ⟨address, configuration, stage⟩ := c
  have hstage : InStage fw tree s stage := h.stage
  rw [hrecv]
  have hignored : s.state ≠ .waitStatusOut →
      usbEp0HandleOut rxLen { s with
        usbRxLen := rxLen
        xram := blit s.xram usbEp0BufferAddress
          (min rxLen.toNat usbEp0BufferSize) data } = { s with
        usbRxLen := rxLen
        xram := blit s.xram usbEp0BufferAddress
          (min rxLen.toNat usbEp0BufferSize) data } := by
    intro hstate
    rw [handleOut_eq, if_neg hstate]
  cases stage with
  | idle =>
      have hstate : s.state ≠ .waitStatusOut := by
        rcases hstage.1 with hi | hi <;> rw [hi] <;> decide
      rw [hignored hstate]
      exact ⟨h.address, h.small, h.configuration, hstage⟩
  | stalled => exact absurd hack (by simp [Control.face, Reply.isAck])
  | addressing a =>
      rw [hignored (by rw [hstage.1]; decide)]
      exact ⟨h.address, h.small, h.configuration, hstage⟩
  | configuring v =>
      rw [hignored (by rw [hstage.1]; decide)]
      exact ⟨h.address, h.small, h.configuration, hstage⟩
  | reading packet data1 rest first =>
      obtain ⟨rfl, hctrl, hfollows⟩ := hstage
      have hstate : s.state ≠ .waitStatusOut := by
        cases hfollows with
        | last hother => rcases hother with hi | hi <;> rw [hi] <;> decide
        | stream hstream _ _ _ _ => rw [hstream]; decide
      rw [hignored hstate]
      refine ⟨h.address, h.small, h.configuration,
        slice_blit_overwrite _ _ _ _ _, hctrl, ?_⟩
      cases hfollows with
      | last hother => exact .last hother
      | stream hstream htracks hle hshort hrest =>
          exact .stream hstream htracks hle hshort hrest
  | statusOut =>
      rw [handleOut_eq, if_pos hstage.1]
      by_cases hzero : rxLen = 0
      · rw [if_neg (not_not.mpr hzero)]
        refine ⟨h.address, h.small, h.configuration, ?_⟩
        simp only [Control.tokenOut, hzero, if_true]
        exact ⟨.inr rfl, rfl⟩
      · rw [if_pos hzero]
        refine ⟨h.address, h.small, h.configuration, ?_⟩
        simp only [Control.tokenOut, hzero, if_false]
        rfl

/-! ## SETUP -/

section Setup

variable {p : UsbSetupPacket}

theorem request_address (h : isSetAddress p = true) :
    request p = some (.setAddress p.wValueL) := if_pos h

theorem request_device (h : isGetDeviceDescriptor p = true) :
    request p = some (.getDevice p.wLength.toNat) := by
  rw [request, if_neg (not_setAddress_of_get (getDevice_iff.mp h).1), if_pos h]

theorem request_configuration (h : isGetConfigurationDescriptor p = true) :
    request p = some (.getConfiguration p.wLength.toNat) := by
  rw [request, if_neg (not_setAddress_of_get (getConfiguration_iff.mp h).1),
    if_neg (not_getDevice_of_configuration h), if_pos h]

theorem request_setConfiguration (h : isSetConfiguration p = true) :
    request p = some (.setConfiguration p.wValueL) := by
  have hget := not_getDescriptor_of_setConfiguration h
  rw [request, if_neg (not_setAddress_of_setConfiguration h),
    if_neg fun hd => hget (getDevice_iff.mp hd).1,
    if_neg fun hc => hget (getConfiguration_iff.mp hc).1, if_pos h]

theorem request_rejected (h : accepts p = false) : request p = none := by
  simp only [accepts, Bool.or_eq_false_iff] at h
  obtain ⟨⟨⟨ha, hd⟩, hc⟩, hs⟩ := h
  simp [request, ha, hd, hc, hs]

theorem toNat_deviceLength (fw : Firmware) (p : UsbSetupPacket) :
    (deviceLength fw p).toNat =
      min p.wLength.toNat (fw.code fw.usbGetDeviceDescriptor).toNat := by
  simp only [deviceLength]
  split
  · next h =>
      have hlt := UInt16.lt_iff_toNat_lt.mp h
      rw [UInt8.toNat_toUInt16] at hlt
      have hbyte := (fw.code fw.usbGetDeviceDescriptor).toNat_lt
      rw [UInt16.toNat_toUInt8]
      omega
  · next h =>
      have hge : ¬ p.wLength.toNat <
          ((fw.code fw.usbGetDeviceDescriptor).toUInt16).toNat :=
        fun hlt => h (UInt16.lt_iff_toNat_lt.mpr hlt)
      rw [UInt8.toNat_toUInt16] at hge
      omega

/-- The only packet of the device descriptor. -/
theorem armed_device (state : UsbEp0State) (s : Ep0) :
    (armFirst state (deviceLength fw p) { s with
      xram := blit s.xram usbEp0BufferAddress
        (fw.code fw.usbGetDeviceDescriptor).toNat
        (fw.bytesAt fw.usbGetDeviceDescriptor) }).armed =
      (descriptors fw tree).device.take p.wLength.toNat := by
  have htake := take_slice (blit s.xram usbEp0BufferAddress
    (fw.code fw.usbGetDeviceDescriptor).toNat
    (fw.bytesAt fw.usbGetDeviceDescriptor)) usbEp0BufferAddress
    (fw.code fw.usbGetDeviceDescriptor).toNat p.wLength.toNat
  rw [← toNat_deviceLength, slice_blit] at htake
  exact htake.symm

theorem answer_eq (fw : Firmware) (tree : Tree) (p : UsbSetupPacket) :
    (descriptors fw tree).configuration.take p.wLength.toNat =
      answer fw tree p := List.take_take

/-- The data stage of a device request is one packet: shorter than 64 bytes, or
all that was asked for. -/
theorem device_packets (tree : Tree)
    (hdev : (fw.code fw.usbGetDeviceDescriptor).toNat < usbEp0BufferSize)
    (p : UsbSetupPacket) :
    (if p.wLength.toNat = 0 then [[]]
      else packetsFor p.wLength.toNat (descriptors fw tree).device) =
      [(descriptors fw tree).device.take p.wLength.toNat] := by
  have hlen : (descriptors fw tree).device.length < usbEp0BufferSize :=
    (length_slice _ _ _).trans_lt hdev
  split
  · next hzero => rw [hzero, List.take_zero]
  · next hpos =>
      have hle := List.length_take_le p.wLength.toNat (descriptors fw tree).device
      have hle' := List.length_take_le' p.wLength.toNat
        (descriptors fw tree).device
      exact packets_of_last (by decide) (Nat.pos_of_ne_zero hpos) hle
        (.inl (Nat.lt_of_le_of_lt hle' hlen))

theorem presents_setup (hs : Serves fw tree)
    (hdev : (fw.code fw.usbGetDeviceDescriptor).toNat < usbEp0BufferSize)
    (h : Presents fw tree s c) (data : Nat → UInt8) :
    ∃ s', ep0Step fw s (.packet uisTokenSetup 8 data) = some s' ∧
      Presents fw tree s'
        (c.setup (descriptors fw tree) (request (.ofData data))) := by
  have haddr : (received fw data s).usbDevAd = c.address := h.address
  have hconf : (received fw data s).configuration = c.configuration :=
    h.configuration
  rw [ep0Step_setup]
  generalize UsbSetupPacket.ofData data = p
  generalize received fw data s = r at haddr hconf
  rcases accepts_cases p with ha | hd | hc | hset | hno
  · have hsmall := (wValueL_of_le (wValue_of_setAddress ha)).2
    rw [handleSetup_address fw r ha, request_address ha]
    exact ⟨_, rfl, haddr, h.small, hconf, rfl, rfl, hsmall, rfl, rfl⟩
  · rw [handleSetup_device fw r hd, request_device hd, Control.setup,
      device_packets tree hdev p]
    exact ⟨_, rfl, haddr, h.small, hconf, armed_device _ r, rfl, .last (.inl rfl)⟩
  · rw [request_configuration hc, Control.setup, packetsFor, answer_eq]
    by_cases hlen : p.wLength = 0
    · have hzero : p.wLength.toNat = 0 := by rw [hlen]; rfl
      have hnone : answer fw tree p = [] := by
        rw [answer, hzero, Nat.zero_min, List.take_zero]
      have hpackets : packets usbEp0BufferSize 0 ([] : List UInt8) = [] := rfl
      rw [handleSetup_zero fw r hc hlen, hzero, hnone, hpackets]
      exact ⟨_, rfl, haddr, h.small, hconf, rfl, rfl⟩
    · rw [handleSetup_stream fw r hc hlen]
      obtain ⟨hdue, htracks⟩ := startConfigStream_serves hs p r
      obtain ⟨length, s', hprep, hdel⟩ := usbEp0PrepareDescriptor_serves hs
        (s := startConfigStream fw p r) rfl htracks
      have hbytes := hdel.bytes
      have hrest := hdel.rest
      rw [hdue] at hbytes hrest
      have hcount := congrArg List.length hbytes
      rw [length_slice, List.length_take] at hcount
      have hframe := hdel.frame
      have hstate : s'.state = .sendConfigurationDescriptor := by rw [hframe]; rfl
      have haddr' : s'.usbDevAd = c.address := by rw [hframe]; exact haddr
      have hconf' : s'.configuration = c.configuration := by
        rw [hframe]
        exact hconf
      have hreq : s'.arms.requestRemaining.toNat =
          p.wLength.toNat - length.toNat := hdel.request
      have hle : (answer fw tree p).length ≤ p.wLength.toNat := by
        rw [answer, List.length_take]
        omega
      obtain ⟨rest, hcons, hfollows⟩ :=
        follows_packets (s := armFirst s'.state length s') (answer fw tree p)
          hstate hdel.tracks hcount hrest hreq hle (word_pos hlen)
      rw [hprep, hcons]
      exact ⟨_, rfl, haddr', h.small, hconf', hbytes, rfl, hfollows⟩
  · rw [handleSetup_configuration fw r hset, request_setConfiguration hset]
    exact ⟨_, rfl, haddr, h.small, hconf, rfl, rfl, rfl, rfl⟩
  · rw [handleSetup_rejected fw r hno, request_rejected hno]
    exact ⟨_, rfl, haddr, h.small, hconf, rfl⟩

end Setup

/-! ## Runs -/

/-- The pipe in the environment of its own answers. -/
def controlStep (d : Descriptors) : Control → Ep0Event → Option Control :=
  guarded (fun c e => c.face.allows e) fun c e => some (c.step d e)

theorem responds_face (s : Ep0) (e : Ep0Event) :
    responds s e = (faceOf s).allows e := by
  have hin : (faceOf s).onIn.isAck = decide (s.tRes = uepTResAck) := by
    simp only [faceOf]
    split
    · next hack => simp [hack, Reply.isAck]
    · next hack => split <;> simp [hack, Reply.isAck]
  have hout : (faceOf s).onOut.isAck = decide (s.rRes = uepRResAck) := by
    simp only [faceOf]
    split
    · next hack => simp [hack, Reply.isAck]
    · next hack => split <;> simp [hack, Reply.isAck]
  cases e with
  | busReset => rfl
  | packet token rxLen data => rw [responds, Face.allows, hin, hout]

theorem presents_event (hs : Serves fw tree)
    (hdev : (fw.code fw.usbGetDeviceDescriptor).toNat < usbEp0BufferSize)
    (h : Presents fw tree s c) (e : Ep0Event) (hok : c.face.allows e = true) :
    ∃ s', ep0Step fw s e = some s' ∧
      Presents fw tree s' (c.step (descriptors fw tree) e) := by
  cases e using ep0Event_cases with
  | setup data => exact presents_setup hs hdev h data
  | malformed rxLen data hlen =>
      have hstep : c.step (descriptors fw tree)
          (.packet uisTokenSetup rxLen data) = { c with stage := .stalled } := by
        rw [Control.step, if_pos rfl, if_neg hlen]
      rw [ep0Step_setup_length fw data s hlen, hstep]
      exact ⟨_, rfl, h.stall rfl rfl⟩
  | tokenIn rxLen data =>
      have hack : c.face.onIn.isAck = true := by
        simpa [Face.allows, uisTokenIn, uisTokenOut] using hok
      exact presents_in hs h hack
  | tokenOut rxLen data =>
      have hack : c.face.onOut.isAck = true := by
        simpa [Face.allows, uisTokenIn, uisTokenOut] using hok
      exact ⟨_, rfl, presents_out rxLen data h hack⟩
  | other token rxLen data hsetup hin hout =>
      have hstep : c.step (descriptors fw tree) (.packet token rxLen data) = c := by
        rw [Control.step, if_neg hsetup, if_neg hin, if_neg hout]
      rw [ep0Step_other fw rxLen data s hsetup hin hout, hstep]
      exact ⟨s, rfl, h⟩
  | busReset => exact ⟨_, rfl, presents_reset fw tree s⟩

/-- Neither side takes an event the other does not, and they stay related. -/
theorem presents_step (hs : Serves fw tree)
    (hdev : (fw.code fw.usbGetDeviceDescriptor).toNat < usbEp0BufferSize)
    (h : Presents fw tree s c) (e : Ep0Event) :
    Option.Rel (Presents fw tree) (guarded responds (ep0Step fw) s e)
      (controlStep (descriptors fw tree) c e) := by
  have hguard : responds s e = c.face.allows e := by
    rw [responds_face, h.face]
  by_cases hok : c.face.allows e = true
  · obtain ⟨s', hstep, hs'⟩ := presents_event hs hdev h e hok
    rw [guarded_of (hguard.trans hok) hstep, controlStep, guarded, if_pos hok]
    exact .some hs'
  · rw [controlStep, guarded, guarded, hguard, if_neg hok, if_neg hok]
    exact .none

theorem presents_runs (hs : Serves fw tree)
    (hdev : (fw.code fw.usbGetDeviceDescriptor).toNat < usbEp0BufferSize)
    (s₀ : Ep0) (es : List Ep0Event) :
    Option.Rel (Presents fw tree)
      (runs (guarded responds (ep0Step fw)) (usbEp0Init s₀) es)
      (runs (controlStep (descriptors fw tree)) .fresh es) := by
  have hinit : Presents fw tree (usbEp0Init s₀) .fresh :=
    presents_reset fw tree { s₀ with
      uep0Dma := UInt16.ofNat usbEp0BufferAddress }
  exact runs_rel (fun _ _ e h => presents_step hs hdev h e) hinit es

/-- For every program whose hooks describe a tree and whose device descriptor is
shorter than a packet, and every sequence of events, in any order and broken off
anywhere: endpoint 0 gets through it if and only if the pipe does, and shows the
bus the same address, configuration, answers, toggles and packets. -/
theorem ep0_refines_control (hs : Serves fw tree)
    (hdev : (fw.code fw.usbGetDeviceDescriptor).toNat < usbEp0BufferSize)
    (s₀ : Ep0) (es : List Ep0Event) :
    (runs (guarded responds (ep0Step fw)) (usbEp0Init s₀) es).map faceOf =
      (runs (controlStep (descriptors fw tree)) .fresh es).map Control.face :=
  map_eq_of_rel (presents_runs hs hdev s₀ es) fun _ _ h => h.face

/-- An address, a read of the configuration cut short by a reset, and another. -/
def enumeration : List Ep0Event :=
  [.setup (packetOf [0x00, 0x05, 0x07, 0x00, 0x00, 0x00, 0x00, 0x00]), .tokenIn,
    .setup (readConfiguration 9), .busReset, .setup (readConfiguration 255),
    .tokenIn, .statusOut]

theorem ep0_refines_control_demo :
    (runs (controlStep (descriptors demo demoTree)) .fresh enumeration).isSome =
        true ∧
      (runs (guarded responds (ep0Step demo)) (usbEp0Init powerOn)
          enumeration).map faceOf =
        (runs (controlStep (descriptors demo demoTree)) .fresh enumeration).map
          Control.face :=
  ⟨rfl, ep0_refines_control demo_serves (by decide) powerOn enumeration⟩

end Ch552e.Proofs
