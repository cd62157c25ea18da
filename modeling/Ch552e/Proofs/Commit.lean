import Ch552e.Proofs.Steps
import Ch552e.Ref.Main
import Ch552e.Spec.History

/-!
# Address and configuration change only with their own status stage

`Committed` ties the device to its history. While an IN can complete, the state
tag tells which request is pending, and where that is a request to commit, its
value is the candidate: this is what the union and the stall path put at risk.
A stalled request leaves the tag and the union as they were, but it also closes
the IN direction, and the invariant asks for nothing there.
-/

namespace Ch552e.Proofs

open Ch552e.Lib Ch552e.Ref Ch552e.Spec

variable {fw : Firmware}

/-! ## The merge into `USB_DEV_AD` -/

theorem merge_and_mask (d c m : UInt8) :
    ((d &&& ~~~m) ||| c) &&& m = c &&& m := by
  apply UInt8.toBitVec_inj.mp
  ext i
  simp
  grind

theorem merge_and_flag (d c m : UInt8) :
    ((d &&& ~~~m) ||| c) &&& ~~~m = (d &&& ~~~m) ||| (c &&& ~~~m) := by
  apply UInt8.toBitVec_inj.mp
  ext i
  simp
  grind

theorem and_mask_of_le {c : UInt8} (h : c ≤ 127) :
    c &&& maskUsbAddr = c ∧ c &&& ~~~maskUsbAddr = 0 := by
  revert h
  exact forall_byte (P := fun c => c ≤ 127 →
    c &&& maskUsbAddr = c ∧ c &&& ~~~maskUsbAddr = 0) (by decide +kernel) c

/-- The commit of a 7-bit candidate: it is the low seven bits, and the flag
above them stays. -/
theorem commit_address {d c : UInt8} (h : c ≤ 127) :
    ((d &&& ~~~maskUsbAddr) ||| c) &&& maskUsbAddr = c ∧
      ((d &&& ~~~maskUsbAddr) ||| c) &&& ~~~maskUsbAddr =
        d &&& ~~~maskUsbAddr := by
  obtain ⟨hlow, hflag⟩ := and_mask_of_le h
  refine ⟨(merge_and_mask d c _).trans hlow, (merge_and_flag d c _).trans ?_⟩
  rw [hflag, UInt8.or_zero]

/-! ## The value of a request -/

theorem wValueL_of_le {p : UsbSetupPacket} (h : p.wValue ≤ 127) :
    p.wValueL.toUInt16 = p.wValue ∧ p.wValueL ≤ 127 := by
  have hword := UInt16.le_iff_toNat_le.mp h
  rw [UsbSetupPacket.wValue, toNat_u16le,
    show (127 : UInt16).toNat = 127 from rfl] at hword
  refine ⟨UInt16.toNat_inj.mp ?_, UInt8.le_iff_toNat_le.mpr ?_⟩
  · rw [UsbSetupPacket.wValue, toNat_u16le, UInt8.toNat_toUInt16]
    omega
  · rw [show (127 : UInt8).toNat = 127 from rfl]
    omega

theorem wValue_of_setAddress {p : UsbSetupPacket} (h : isSetAddress p = true) :
    p.wValue ≤ 127 := by
  simp only [isSetAddress, Bool.and_eq_true, decide_eq_true_eq] at h
  exact h.2

theorem wValue_of_setConfiguration {p : UsbSetupPacket}
    (h : isSetConfiguration p = true) : p.wValue ≤ 127 := by
  simp only [isSetConfiguration, Bool.and_eq_true, Bool.or_eq_true,
    decide_eq_true_eq] at h
  rcases h.2 with h0 | h1
  · rw [h0]
    decide
  · rw [h1]
    decide

/-! ## The invariant -/

/-- What the state tag says about the pending request. -/
def Expects (past : List Ep0Event) (s : Ep0) : Prop :=
  match s.state with
  | .waitDeviceAddress => ∃ p, pending past = some p ∧
      isSetAddress p = true ∧ s.arms.addressCandidate = p.wValueL
  | .waitSetConfiguration => ∃ p, pending past = some p ∧
      isSetConfiguration p = true ∧ s.arms.configurationCandidate = p.wValueL
  | .init | .sendDeviceDescriptor | .sendConfigurationDescriptor
  | .sendConfigurationZlp | .waitStatusOut | .idle =>
      ∀ p, pending past = some p →
        isSetAddress p = false ∧ isSetConfiguration p = false

/-- The device agrees with its history. -/
structure Committed (past : List Ep0Event) (s : Ep0) : Prop where
  address : (s.usbDevAd &&& maskUsbAddr).toUInt16 = committed isSetAddress past
  configuration : s.configuration.toUInt16 = committed isSetConfiguration past
  expects : s.tRes = uepTResAck → Expects past s

theorem Committed.of_same {past past' : List Ep0Event} {s s' : Ep0}
    (h : Committed past s) (haddr : s'.usbDevAd = s.usbDevAd)
    (hconf : s'.configuration = s.configuration)
    (hcommitted : ∀ kind, committed kind past' = committed kind past)
    (hexp : s'.tRes = uepTResAck → Expects past' s') : Committed past' s' :=
  ⟨by rw [haddr, hcommitted, h.address],
    by rw [hconf, hcommitted, h.configuration], hexp⟩

theorem expects_of_none {past : List Ep0Event} {s : Ep0}
    (hnone : pending past = none) (ha : s.state ≠ .waitDeviceAddress)
    (hc : s.state ≠ .waitSetConfiguration) : Expects past s := by
  unfold Expects
  split
  · next h => exact absurd h ha
  · next h => exact absurd h hc
  all_goals
    intro p hp
    rw [hnone] at hp
    exact absurd hp (by simp)

theorem expects_of_other {past : List Ep0Event} {s : Ep0} {p : UsbSetupPacket}
    (hp : pending past = some p) (ha : isSetAddress p = false)
    (hc : isSetConfiguration p = false)
    (hstate : s.state = .sendDeviceDescriptor ∨
      s.state = .sendConfigurationDescriptor) : Expects past s := by
  unfold Expects
  rcases hstate with h | h <;>
    · rw [h]
      intro q hq
      rw [hp, Option.some.injEq] at hq
      exact hq ▸ ⟨ha, hc⟩

/-! ## One event -/

theorem stall_tRes (s : Ep0) : (usbEp0Stall s).tRes ≠ uepTResAck := by
  have hctrl : (usbEp0Stall s).uep0Ctrl = 0x0F := rfl
  rw [Ep0.tRes, hctrl]
  decide

theorem nak_tRes {s : Ep0} (h : s.uep0Ctrl = uepRResAck ||| uepTResNak) :
    s.tRes ≠ uepTResAck := by
  rw [Ep0.tRes, h]
  decide

/-- A SETUP commits nothing; if it is accepted, it is what is pending now. -/
theorem committed_setup {past : List Ep0Event} {s s' : Ep0}
    {data : Nat → UInt8} (h : Committed past s)
    (hstep : SetupStep fw (.ofData data) (received fw data s) s') :
    Committed (.packet uisTokenSetup 8 data :: past) s' := by
  have hskip : ∀ kind, committed kind (.packet uisTokenSetup 8 data :: past) =
      committed kind past := by
    intro kind
    exact committed_skip kind past 8 data (by decide)
  have hpend : pending (.packet uisTokenSetup 8 data :: past) =
      some (.ofData data) := pending_setup past 8 data
  have hset : isGetDescriptor (.ofData data) = true →
      isSetConfiguration (.ofData data) ≠ true := by
    intro hget hc
    exact not_getDescriptor_of_setConfiguration hc hget
  cases hstep with
  | address ha => exact h.of_same rfl rfl hskip fun _ => ⟨_, hpend, ha, rfl⟩
  | device hd =>
      have hget := (getDevice_iff.mp hd).1
      refine h.of_same rfl rfl hskip fun _ => expects_of_other hpend ?_ ?_ (.inl rfl)
      · simpa using not_setAddress_of_get hget
      · simpa using hset hget
  | zero hc hzero =>
      refine h.of_same rfl rfl hskip ?_
      intro hack
      rw [(awaitStatusOut_ctrl _).1] at hack
      exact absurd hack (by decide)
  | stream hc hzero length r hprep =>
      have hget := (getConfiguration_iff.mp hc).1
      have hframe := usbEp0PrepareDescriptor_frame hprep
      have haddr := congrArg Ep0.usbDevAd hframe
      have hconf := congrArg Ep0.configuration hframe
      have hstate := congrArg Ep0.state hframe
      refine h.of_same haddr hconf hskip fun _ =>
        expects_of_other hpend ?_ ?_ (.inr hstate)
      · simpa using not_setAddress_of_get hget
      · simpa using hset hget
  | configuration hconf =>
      exact h.of_same rfl rfl hskip fun _ => ⟨_, hpend, hconf, rfl⟩
  | rejected hno =>
      exact h.of_same rfl rfl hskip fun hack => absurd hack (stall_tRes _)

theorem Expects.other {past : List Ep0Event} {s : Ep0} (h : Expects past s)
    (ha : s.state ≠ .waitDeviceAddress) (hc : s.state ≠ .waitSetConfiguration)
    (p : UsbSetupPacket) (hp : pending past = some p) :
    isSetAddress p = false ∧ isSetConfiguration p = false := by
  unfold Expects at h
  split at h
  · next hs => exact absurd hs ha
  · next hs => exact absurd hs hc
  all_goals exact h p hp

/-- An IN in a state that commits nothing: the two registers stay, and nothing
is pending any more. -/
theorem Committed.of_in {past : List Ep0Event} {s s' : Ep0} {rxLen : UInt8}
    {data : Nat → UInt8} (h : Committed past s) (hexp : Expects past s)
    (ha : s.state ≠ .waitDeviceAddress) (hc : s.state ≠ .waitSetConfiguration)
    (haddr : s'.usbDevAd = s.usbDevAd)
    (hconf : s'.configuration = s.configuration)
    (ha' : s'.state ≠ .waitDeviceAddress)
    (hc' : s'.state ≠ .waitSetConfiguration) :
    Committed (.packet uisTokenIn rxLen data :: past) s' where
  address := by
    rw [haddr, h.address]
    exact (committed_in_of_not _ _ _ _ fun p hp => (hexp.other ha hc p hp).1).symm
  configuration := by
    rw [hconf, h.configuration]
    exact (committed_in_of_not _ _ _ _ fun p hp => (hexp.other ha hc p hp).2).symm
  expects := fun _ => expects_of_none (pending_in past rxLen data) ha' hc'

/-- An IN that fills the next packet is one of those. -/
theorem Committed.of_fill {past : List Ep0Event} {s r s' : Ep0}
    {length rxLen : UInt8} {data : Nat → UInt8} (h : Committed past s)
    (hexp : Expects past s) (hstate : s.state = .sendConfigurationDescriptor)
    (hprep : usbEp0PrepareDescriptor fw s = some (length, r))
    (haddr : s'.usbDevAd = r.usbDevAd)
    (hconf : s'.configuration = r.configuration)
    (ha' : s'.state ≠ .waitDeviceAddress)
    (hc' : s'.state ≠ .waitSetConfiguration) :
    Committed (.packet uisTokenIn rxLen data :: past) s' := by
  have hframe := usbEp0PrepareDescriptor_frame hprep
  have haddr' := congrArg Ep0.usbDevAd hframe
  have hconf' := congrArg Ep0.configuration hframe
  exact h.of_in hexp (by simp [hstate]) (by simp [hstate]) (haddr.trans haddr')
    (hconf.trans hconf') ha' hc'

/-- A completed IN commits what is pending, if there is something to commit,
and never touches the flag above the address. -/
theorem committed_in {past : List Ep0Event} {s s' : Ep0} {rxLen : UInt8}
    {data : Nat → UInt8} (h : Committed past s) (hack : s.tRes = uepTResAck)
    (hstep : InStep fw s s') :
    Committed (.packet uisTokenIn rxLen data :: past) s' := by
  have hexp := h.expects hack
  cases hstep with
  | address ha =>
      simp only [Expects, ha] at hexp
      obtain ⟨p, hp, hset, hcand⟩ := hexp
      obtain ⟨hword, hle⟩ := wValueL_of_le (wValue_of_setAddress hset)
      refine ⟨?_, ?_, fun hack' => absurd hack' (nak_tRes rfl)⟩
      · rw [committed_in_of_pending _ _ _ _ hp hset, hcand,
          (commit_address hle).1, hword]
      · rw [committed_in_of_not]
        · exact h.configuration
        · intro q hq
          rw [hp, Option.some.injEq] at hq
          subst hq
          simpa using fun hc => not_setAddress_of_setConfiguration hc hset
  | configuration hc =>
      simp only [Expects, hc] at hexp
      obtain ⟨p, hp, hset, hcand⟩ := hexp
      obtain ⟨hword, _⟩ := wValueL_of_le (wValue_of_setConfiguration hset)
      refine ⟨?_, ?_, fun hack' => absurd hack' (nak_tRes rfl)⟩
      · rw [committed_in_of_not]
        · exact h.address
        · intro q hq
          rw [hp, Option.some.injEq] at hq
          subst hq
          simpa using not_setAddress_of_setConfiguration hset
      · rw [committed_in_of_pending _ _ _ _ hp hset, hcand, hword]
  | finished hstate =>
      have hne : s.state ≠ .waitDeviceAddress ∧ s.state ≠ .waitSetConfiguration := by
        rcases hstate with h | h | ⟨h, _⟩ <;> simp [h]
      exact h.of_in hexp hne.1 hne.2 rfl rfl (by simp [awaitStatusOut])
        (by simp [awaitStatusOut])
  | short hstate _ r hprep _ =>
      exact h.of_fill hexp hstate hprep rfl rfl (by simp [awaitStatusOut])
        (by simp [awaitStatusOut])
  | zlp hstate _ r hprep _ =>
      exact h.of_fill hexp hstate hprep rfl rfl (by simp [armNext])
        (by simp [armNext])
  | next hstate _ length r hprep _ =>
      have hstate' : r.state = .sendConfigurationDescriptor :=
        (congrArg Ep0.state (usbEp0PrepareDescriptor_frame hprep)).trans hstate
      exact h.of_fill hexp hstate hprep rfl rfl (by simp [armNext, hstate'])
        (by simp [armNext, hstate'])
  | ignored hstate =>
      have hne : s.state ≠ .waitDeviceAddress ∧ s.state ≠ .waitSetConfiguration := by
        rcases hstate with h | h | h <;> simp [h]
      exact h.of_in hexp hne.1 hne.2 rfl rfl hne.1 hne.2

/-- A token that is neither a SETUP nor an IN leaves what is pending, and what
the state says about it. -/
theorem Committed.skip {past : List Ep0Event} {s s' : Ep0} {token : UInt8}
    (h : Committed past s) (hsetup : token ≠ uisTokenSetup)
    (hin : token ≠ uisTokenIn) (rxLen : UInt8) (data : Nat → UInt8)
    (haddr : s'.usbDevAd = s.usbDevAd)
    (hconf : s'.configuration = s.configuration) (hstate : s'.state = s.state)
    (harms : s'.arms = s.arms) (hctrl : s'.uep0Ctrl = s.uep0Ctrl) :
    Committed (.packet token rxLen data :: past) s' := by
  refine h.of_same haddr hconf (fun kind => committed_skip kind past rxLen data hin) ?_
  intro hack
  rw [Ep0.tRes, hctrl] at hack
  have hexp := h.expects hack
  unfold Expects at hexp ⊢
  rw [hstate, harms, pending_skip past rxLen data hsetup hin]
  exact hexp

theorem committed_out {past : List Ep0Event} {s s' : Ep0} {rxLen : UInt8}
    {data : Nat → UInt8} (h : Committed past s)
    (hstep : OutStep (receive uisTokenOut rxLen data s) rxLen s') :
    Committed (.packet uisTokenOut rxLen data :: past) s' := by
  have hskip : ∀ kind, committed kind (.packet uisTokenOut rxLen data :: past) =
      committed kind past := by
    intro kind
    exact committed_skip kind past rxLen data (by decide)
  cases hstep with
  | stalled _ _ =>
      exact h.of_same rfl rfl hskip fun hack => absurd hack (stall_tRes _)
  | finished _ _ =>
      exact h.of_same rfl rfl hskip fun hack => absurd hack (nak_tRes rfl)
  | ignored _ =>
      exact h.skip (by decide) (by decide) rxLen data rfl rfl rfl rfl rfl

theorem committed_fresh {past : List Ep0Event} (s : Ep0)
    (h : ∀ kind, committed kind past = 0) : Committed past (usbEp0Reset s) where
  address := by
    rw [h]
    change ((0 : UInt8) &&& maskUsbAddr).toUInt16 = 0
    decide
  configuration := (h _).symm
  expects := fun hack => absurd hack (nak_tRes rfl)

theorem tRes_of_responds {s : Ep0} {rxLen : UInt8} {data : Nat → UInt8}
    (h : responds s (.packet uisTokenIn rxLen data) = true) :
    s.tRes = uepTResAck := by
  simp only [responds, Bool.and_eq_true] at h
  simpa using h.1

theorem committed_step {past : List Ep0Event} {s s' : Ep0} {e : Ep0Event}
    (h : Committed past s)
    (hstep : guarded responds (ep0Step fw) s e = some s') :
    Committed (e :: past) s' := by
  obtain ⟨hok, hstep⟩ := guarded_eq_some hstep
  cases ep0Step_event hstep with
  | setup data _ hsetup => exact committed_setup h hsetup
  | malformed rxLen data _ =>
      refine h.of_same rfl rfl ?_ fun hack => absurd hack (stall_tRes _)
      intro kind
      exact committed_skip kind past rxLen data (by decide)
  | tokenIn rxLen data _ hin =>
      exact committed_in h (tRes_of_responds hok) hin
  | tokenOut rxLen data _ hout => exact committed_out h hout
  | other token rxLen data hsetup hin _ =>
      exact h.skip hsetup hin rxLen data rfl rfl rfl rfl rfl
  | busReset => exact committed_fresh s fun _ => rfl

theorem committed_run {s₀ s : Ep0} {es : List Ep0Event}
    (h : runs (guarded responds (ep0Step fw)) (usbEp0Init s₀) es = some s) :
    Committed es.reverse s := by
  refine runs_history (P := fun es s => Committed es.reverse s) ?_ ?_ h
  · exact committed_fresh _ fun _ => rfl
  · intro es s e s' hs hstep
    rw [List.reverse_concat]
    exact committed_step hs hstep

theorem Committed.flag {past : List Ep0Event} {s s' : Ep0} {rxLen : UInt8}
    {data : Nat → UInt8} (h : Committed past s) (d : UInt8)
    (hstep : guarded responds (ep0Step fw) { s with usbDevAd := d }
      (.packet uisTokenIn rxLen data) = some s') :
    s'.usbDevAd &&& ~~~maskUsbAddr = d &&& ~~~maskUsbAddr := by
  obtain ⟨hok, hstep⟩ := guarded_eq_some hstep
  have hack := tRes_of_responds hok
  have hexp := h.expects hack
  rw [ep0Step_in] at hstep
  cases handleIn_step hstep with
  | address ha =>
      have hs : s.state = .waitDeviceAddress := ha
      simp only [Expects, hs] at hexp
      obtain ⟨p, hp, hset, hcand⟩ := hexp
      have hle := (wValueL_of_le (wValue_of_setAddress hset)).2
      rw [← hcand] at hle
      exact (commit_address hle).2
  | short _ _ r hprep _ | zlp _ _ r hprep _ | next _ _ _ r hprep _ =>
      have haddr := congrArg Ep0.usbDevAd (usbEp0PrepareDescriptor_frame hprep)
      exact congrArg (· &&& ~~~maskUsbAddr) haddr
  | configuration _ | finished _ | ignored _ => rfl

/-- In every reachable state the address and the configuration are those of
the last requests that went through, and an IN leaves the flag of
`USB_DEV_AD` alone. -/
theorem commits_follow_history {s₀ s : Ep0} {es : List Ep0Event}
    (h : runs (guarded responds (ep0Step fw)) (usbEp0Init s₀) es = some s) :
    (s.usbDevAd &&& maskUsbAddr).toUInt16 = committed isSetAddress es.reverse ∧
      s.configuration.toUInt16 = committed isSetConfiguration es.reverse ∧
      ∀ d rxLen data s', guarded responds (ep0Step fw) { s with usbDevAd := d }
          (.packet uisTokenIn rxLen data) = some s' →
        s'.usbDevAd &&& ~~~maskUsbAddr = d &&& ~~~maskUsbAddr := by
  have hs := committed_run h
  exact ⟨hs.address, hs.configuration,
    fun d _ _ _ hstep => hs.flag d hstep⟩

/-- A SET_ADDRESS that goes through, and one that a stalled SETUP overtakes. -/
def overtaken : List Ep0Event :=
  [.setup (packetOf [0x00, 0x05, 5, 0, 0, 0, 0, 0]), .tokenIn,
    .setup (packetOf [0x00, 0x05, 9, 0, 0, 0, 0, 0]),
    .packet uisTokenSetup 3 fun _ => 0]

theorem commits_follow_history_overtaken :
    ∃ s, runs (guarded responds (ep0Step demo)) (usbEp0Init powerOn)
          overtaken = some s ∧
      (s.usbDevAd &&& maskUsbAddr).toUInt16 =
        committed isSetAddress overtaken.reverse ∧
      s.configuration.toUInt16 =
        committed isSetConfiguration overtaken.reverse ∧
      ∀ d rxLen data s', guarded responds (ep0Step demo) { s with usbDevAd := d }
          (.packet uisTokenIn rxLen data) = some s' →
        s'.usbDevAd &&& ~~~maskUsbAddr = d &&& ~~~maskUsbAddr := by
  have hsome : (runs (guarded responds (ep0Step demo)) (usbEp0Init powerOn)
      overtaken).isSome := rfl
  obtain ⟨s, hs⟩ := Option.isSome_iff_exists.mp hsome
  exact ⟨s, hs, commits_follow_history hs⟩

end Ch552e.Proofs
