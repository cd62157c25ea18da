import Ch552e.Proofs.FillTurn
import Ch552e.Proofs.Steps

/-!
# States that cannot be told apart

`Agree` is what shows on the bus: the packet that is armed, the handshake, the
address and the configuration. `Alike` adds the state tag, and of the shared
storage only what that tag gives a meaning to; the rest of the storage, the
rest of the buffer, the log queue and the indicator may differ.

`ep0Step_alike` says that this is enough: an event leaves states that are alike
alike, and either both handlers return or neither does.
-/

namespace Ch552e.Proofs

open Ch552e.Lib Ch552e.Ref

variable {fw : Firmware}

/-- What shows on the bus. -/
structure Agree (s t : Ep0) : Prop where
  length : s.uep0TLen = t.uep0TLen
  ctrl : s.uep0Ctrl = t.uep0Ctrl
  armed : s.armed = t.armed
  address : s.usbDevAd = t.usbDevAd
  configuration : s.configuration = t.configuration

/-- The part of the storage that the state gives a meaning to. -/
def SameArms (s t : Ep0) : Prop :=
  match s.state with
  | .waitDeviceAddress => s.arms.addressCandidate = t.arms.addressCandidate
  | .waitSetConfiguration =>
      s.arms.configurationCandidate = t.arms.configurationCandidate
  | .sendConfigurationDescriptor => s.arms = t.arms
  | .init | .sendDeviceDescriptor | .sendConfigurationZlp | .waitStatusOut
  | .idle => True

/-- Nothing that happens from here on can tell the two apart. -/
structure Alike (s t : Ep0) : Prop extends Agree s t where
  state : s.state = t.state
  arms : SameArms s t

/-! ## The fill function -/

def SameFill (r q : UInt8 × Ep0) : Prop :=
  r.1 = q.1 ∧ r.2.arms = q.2.arms ∧
    slice r.2.xram usbEp0BufferAddress r.1.toNat =
      slice q.2.xram usbEp0BufferAddress q.1.toNat

structure SameFilling (f g : Filling) : Prop where
  arms : f.arms = g.arms
  filled : f.filledBytes = g.filledBytes
  level : f.filledBytes.toNat ≤ usbEp0BufferSize
  bytes : slice f.xram usbEp0BufferAddress f.filledBytes.toNat =
    slice g.xram usbEp0BufferAddress g.filledBytes.toNat

theorem fillTurn_same {f g : Filling} (h : SameFilling f g) :
    (fillTurn fw f).1 = (fillTurn fw g).1 ∧
      SameFilling (fillTurn fw f).2 (fillTurn fw g).2 := by
  obtain ⟨hflag, harms, hfilled⟩ := fillTurn_control fw h.arms h.filled
  obtain ⟨hxf, hlf⟩ := fillTurn_buffer fw f
  obtain ⟨hxg, hlg⟩ := fillTurn_buffer fw g
  have hcont : f.continues = g.continues := by
    rw [Filling.continues, Filling.continues, h.arms, h.filled]
  refine ⟨hflag, harms, hfilled, ?_, ?_⟩
  · rw [hlf]
    split
    · obtain ⟨hsum, hle⟩ := toNat_filled_add (a := f.arms) h.level
      exact hsum ▸ hle
    · exact h.level
  · rw [hxf, hlf, hxg, hlg, ← hcont]
    split
    · rw [slice_copy fw h.level, slice_copy fw (h.filled ▸ h.level), h.bytes,
        h.arms, h.filled]
    · exact h.bytes

theorem prepare_same (fw : Firmware) {s t : Ep0} (hstate : s.state = t.state)
    (harms : s.arms = t.arms) :
    Option.Rel SameFill (usbEp0PrepareDescriptor fw s)
      (usbEp0PrepareDescriptor fw t) := by
  unfold usbEp0PrepareDescriptor
  rw [← hstate, ← harms]
  split
  · exact .some ⟨rfl, harms, rfl⟩
  · split
    · exact .some ⟨rfl, harms, rfl⟩
    · refine rel_map (loop_rel (fun _ _ => fillTurn_same) fillFuel
        (R := SameFilling) ⟨rfl, rfl, Nat.zero_le _, rfl⟩) ?_
      exact fun f g h => ⟨h.filled, h.arms, h.bytes⟩

theorem prepare_keeps {s r : Ep0} {length : UInt8}
    (h : usbEp0PrepareDescriptor fw s = some (length, r)) :
    r.state = s.state ∧ r.uep0Ctrl = s.uep0Ctrl ∧ r.usbDevAd = s.usbDevAd ∧
      r.configuration = s.configuration := by
  rw [usbEp0PrepareDescriptor_frame h]
  exact ⟨rfl, rfl, rfl, rfl⟩

/-! ## The ends of a transfer -/

section Ends

variable {s t : Ep0} (haddr : s.usbDevAd = t.usbDevAd)
  (hconf : s.configuration = t.configuration)

include haddr hconf

theorem alike_awaitStatusOut : Alike (awaitStatusOut s) (awaitStatusOut t) where
  length := rfl
  ctrl := rfl
  armed := rfl
  address := haddr
  configuration := hconf
  state := rfl
  arms := trivial

theorem agree_stall : Agree (usbEp0Stall s) (usbEp0Stall t) where
  length := rfl
  ctrl := rfl
  armed := rfl
  address := haddr
  configuration := hconf

theorem alike_armFirst {state : UsbEp0State} {length : UInt8}
    (hbytes : slice s.xram usbEp0BufferAddress length.toNat =
      slice t.xram usbEp0BufferAddress length.toNat)
    (harms : SameArms (armFirst state length s) (armFirst state length t)) :
    Alike (armFirst state length s) (armFirst state length t) where
  length := rfl
  ctrl := rfl
  armed := hbytes
  address := haddr
  configuration := hconf
  state := rfl
  arms := harms

theorem alike_armNext {state : UsbEp0State} {length : UInt8}
    (hctrl : s.uep0Ctrl = t.uep0Ctrl)
    (hbytes : slice s.xram usbEp0BufferAddress length.toNat =
      slice t.xram usbEp0BufferAddress length.toNat)
    (harms : SameArms (armNext state length s) (armNext state length t)) :
    Alike (armNext state length s) (armNext state length t) where
  length := rfl
  ctrl := by simp only [armNext, nextTToggle, hctrl]
  armed := hbytes
  address := haddr
  configuration := hconf
  state := rfl
  arms := harms

end Ends

/-! ## IN -/

theorem handleIn_stream_alike {s t : Ep0} (h : Alike s t)
    (hs : s.state = .sendConfigurationDescriptor) :
    Option.Rel Alike (usbEp0HandleIn fw s) (usbEp0HandleIn fw t) := by
  have ht : t.state = .sendConfigurationDescriptor := h.state ▸ hs
  have harms := h.arms
  simp only [SameArms, hs] at harms
  by_cases hreq : s.arms.requestRemaining = 0
  · rw [handleIn_complete hs hreq, handleIn_complete ht (harms ▸ hreq)]
    exact .some (alike_awaitStatusOut h.address h.configuration)
  · have hrel := prepare_same fw h.state harms
    match hp : usbEp0PrepareDescriptor fw s, hq : usbEp0PrepareDescriptor fw t with
    | none, none =>
        simp only [usbEp0HandleIn, hs, ht, ← harms, hreq, if_false, hp, hq]
        exact .none
    | some (length, r), some (length', r') =>
        rw [hp, hq] at hrel
        cases hrel with
        | some hfill =>
            obtain ⟨hlen, hra, hbytes⟩ := hfill
            dsimp only at hlen hra hbytes
            subst hlen
            obtain ⟨hrs, hrc, hrd, hrf⟩ := prepare_keeps hp
            obtain ⟨hts, htc, htd, htf⟩ := prepare_keeps hq
            have haddr : r.usbDevAd = r'.usbDevAd := by rw [hrd, htd, h.address]
            have hconf : r.configuration = r'.configuration := by
              rw [hrf, htf, h.configuration]
            have hctrl : r.uep0Ctrl = r'.uep0Ctrl := by rw [hrc, htc, h.ctrl]
            rw [handleIn_prepare hs hreq hp,
              handleIn_prepare ht (harms ▸ hreq) hq, ← h.length, hrs, hts, hs, ht]
            split
            · split
              · exact .some (alike_armNext haddr hconf hctrl rfl trivial)
              · exact .some (alike_awaitStatusOut haddr hconf)
            · exact .some (alike_armNext haddr hconf hctrl hbytes hra)
    | none, some _ | some _, none =>
        rw [hp, hq] at hrel
        cases hrel

theorem handleIn_alike {s t : Ep0} (h : Alike s t) :
    Option.Rel Alike (usbEp0HandleIn fw s) (usbEp0HandleIn fw t) := by
  have harms := h.arms
  match hs : s.state with
  | .sendConfigurationDescriptor => exact handleIn_stream_alike h hs
  | .waitDeviceAddress =>
      have ht : t.state = .waitDeviceAddress := h.state ▸ hs
      simp only [SameArms, hs] at harms
      simp only [usbEp0HandleIn, hs, ht]
      exact .some ⟨⟨rfl, rfl, rfl, by rw [harms, h.address], h.configuration⟩,
        rfl, trivial⟩
  | .waitSetConfiguration =>
      have ht : t.state = .waitSetConfiguration := h.state ▸ hs
      simp only [SameArms, hs] at harms
      simp only [usbEp0HandleIn, hs, ht]
      exact .some ⟨⟨rfl, rfl, rfl, h.address, harms⟩, rfl, trivial⟩
  | .sendDeviceDescriptor =>
      have ht : t.state = .sendDeviceDescriptor := h.state ▸ hs
      simp only [usbEp0HandleIn, hs, ht]
      exact .some (alike_awaitStatusOut h.address h.configuration)
  | .sendConfigurationZlp =>
      have ht : t.state = .sendConfigurationZlp := h.state ▸ hs
      simp only [usbEp0HandleIn, hs, ht]
      exact .some (alike_awaitStatusOut h.address h.configuration)
  | .init | .waitStatusOut | .idle =>
      have ht := h.state ▸ hs
      simp only [usbEp0HandleIn, hs, ht]
      exact .some h

/-! ## OUT -/

/-- What an OUT brings is the same for both, and lands on what is armed the
same way. -/
theorem alike_receive_out {s t : Ep0} (h : Alike s t) (rxLen : UInt8)
    (data : Nat → UInt8) :
    Alike (receive uisTokenOut rxLen data s) (receive uisTokenOut rxLen data t) where
  length := h.length
  ctrl := h.ctrl
  armed := by
    have harmed := h.armed
    have hlen := h.length
    change slice (blit s.xram _ _ data) _ s.uep0TLen.toNat =
      slice (blit t.xram _ _ data) _ t.uep0TLen.toNat
    rw [Ep0.armed, Ep0.armed, ← hlen] at harmed
    rw [← hlen]
    exact slice_blit_congr harmed _ _ data
  address := h.address
  configuration := h.configuration
  state := h.state
  arms := h.arms

theorem handleOut_alike {s t : Ep0} (h : Alike s t) (length : UInt8) :
    Alike (usbEp0HandleOut length s) (usbEp0HandleOut length t) := by
  rw [handleOut_eq, handleOut_eq, ← h.state]
  split
  · next hs =>
      split
      · have hstate : SameArms (usbEp0Stall s) (usbEp0Stall t) := by
          have hs' : (usbEp0Stall s).state = .waitStatusOut := hs
          simp only [SameArms, hs']
        exact ⟨agree_stall h.address h.configuration, h.state, hstate⟩
      · exact ⟨⟨rfl, rfl, rfl, h.address, h.configuration⟩, rfl, trivial⟩
  · exact h

/-! ## SETUP -/

/-- An accepted request makes any two states alike that agree on the address
and the configuration. -/
theorem handleSetup_alike {s t : Ep0} {p : UsbSetupPacket}
    (hp : accepts p = true) (haddr : s.usbDevAd = t.usbDevAd)
    (hconf : s.configuration = t.configuration) :
    Option.Rel (fun r q => Alike (answerSetup r) (answerSetup q))
      (usbEp0HandleSetup fw p s) (usbEp0HandleSetup fw p t) := by
  rcases accepts_cases p with ha | hd | hc | hset | hno
  · rw [handleSetup_address fw s ha, handleSetup_address fw t ha]
    refine .some (alike_armFirst ?_ ?_ ?_ ?_)
    exacts [haddr, hconf, rfl, rfl]
  · rw [handleSetup_device fw s hd, handleSetup_device fw t hd]
    refine .some (alike_armFirst ?_ ?_ ?_ ?_)
    · exact haddr
    · exact hconf
    · -- the packet is the head of what was copied
      have hle := deviceLength_le fw p
      apply slice_congr
      intro i hi
      exact (blit_inside (by omega)).trans (blit_inside (by omega)).symm
    · trivial
  · by_cases hlen : p.wLength = 0
    · rw [handleSetup_zero fw s hc hlen, handleSetup_zero fw t hc hlen]
      exact .some (alike_awaitStatusOut haddr hconf)
    · rw [handleSetup_stream fw s hc hlen, handleSetup_stream fw t hc hlen]
      have harms : (startConfigStream fw p s).arms =
          (startConfigStream fw p t).arms := startConfigStream_arms fw p s t
      have hrel := prepare_same fw
        (s := startConfigStream fw p s) (t := startConfigStream fw p t) rfl harms
      match hps : usbEp0PrepareDescriptor fw (startConfigStream fw p s),
        hpt : usbEp0PrepareDescriptor fw (startConfigStream fw p t) with
      | none, none => exact .none
      | some (length, r), some (length', r') =>
          rw [hps, hpt] at hrel
          cases hrel with
          | some hfill =>
              obtain ⟨hl, hra, hbytes⟩ := hfill
              dsimp only at hl hra hbytes
              subst hl
              obtain ⟨hrs, _, hrd, hrf⟩ := prepare_keeps hps
              obtain ⟨hts, _, htd, htf⟩ := prepare_keeps hpt
              refine .some ?_
              simp only [hrs, hts]
              exact alike_armFirst (hrd.trans (haddr.trans htd.symm))
                (hrf.trans (hconf.trans htf.symm)) hbytes hra
      | none, some _ | some _, none =>
          rw [hps, hpt] at hrel
          cases hrel
  · rw [handleSetup_configuration fw s hset, handleSetup_configuration fw t hset]
    refine .some (alike_armFirst ?_ ?_ ?_ ?_)
    exacts [haddr, hconf, rfl, rfl]
  · rw [hno] at hp
    exact absurd hp (by simp)

/-- A SETUP that is not accepted, by its length or its request, stalls and
leaves the state and the storage. -/
theorem setup_stalls (fw : Firmware) {rxLen : UInt8} {data : Nat → UInt8}
    (h : ¬ (rxLen = 8 ∧ accepts (.ofData data) = true)) (s : Ep0) :
    ∃ r, ep0Step fw s (.packet uisTokenSetup rxLen data) =
        some (usbEp0Stall r) ∧ r.state = s.state ∧ r.arms = s.arms ∧
      r.usbDevAd = s.usbDevAd ∧ r.configuration = s.configuration := by
  by_cases hlen : rxLen = 8
  · subst hlen
    have hno : accepts (.ofData data) = false := by simpa using h
    refine ⟨received fw data s, ?_, rfl, rfl, rfl, rfl⟩
    rw [ep0Step_setup, handleSetup_rejected fw _ hno]
    rfl
  · exact ⟨_, ep0Step_setup_length fw data s hlen, rfl, rfl, rfl, rfl⟩

theorem setup_alike {s t : Ep0} {rxLen : UInt8} {data : Nat → UInt8}
    (h : rxLen = 8 ∧ accepts (.ofData data) = true)
    (haddr : s.usbDevAd = t.usbDevAd) (hconf : s.configuration = t.configuration) :
    Option.Rel Alike (ep0Step fw s (.packet uisTokenSetup rxLen data))
      (ep0Step fw t (.packet uisTokenSetup rxLen data)) := by
  obtain ⟨rfl, hp⟩ := h
  rw [ep0Step_setup, ep0Step_setup]
  exact rel_map (handleSetup_alike hp haddr hconf) fun _ _ hrq => hrq

theorem setup_stalls_alike {s t : Ep0} {rxLen : UInt8} {data : Nat → UInt8}
    (h : Alike s t) (hp : ¬ (rxLen = 8 ∧ accepts (.ofData data) = true)) :
    Option.Rel Alike (ep0Step fw s (.packet uisTokenSetup rxLen data))
      (ep0Step fw t (.packet uisTokenSetup rxLen data)) := by
  obtain ⟨r, hr, hrs, hra, hrd, hrc⟩ := setup_stalls fw hp s
  obtain ⟨q, hq, hqs, hqa, hqd, hqc⟩ := setup_stalls fw hp t
  rw [hr, hq]
  refine .some ⟨agree_stall (by rw [hrd, hqd, h.address])
    (by rw [hrc, hqc, h.configuration]), ?_, ?_⟩
  · exact hrs.trans (h.state.trans hqs.symm)
  · have harms := h.arms
    have hstate : (usbEp0Stall r).state = s.state := hrs
    have hra' : (usbEp0Stall r).arms = s.arms := hra
    have hqa' : (usbEp0Stall q).arms = t.arms := hqa
    simp only [SameArms, hstate, hra', hqa'] at harms ⊢
    exact harms

/-! ## Any event -/

theorem alike_reset (s t : Ep0) : Alike (usbEp0Reset s) (usbEp0Reset t) :=
  ⟨⟨rfl, rfl, rfl, rfl, rfl⟩, rfl, trivial⟩

theorem ep0Step_alike {s t : Ep0} (h : Alike s t) (e : Ep0Event) :
    Option.Rel Alike (ep0Step fw s e) (ep0Step fw t e) := by
  cases e using ep0Event_cases with
  | setup data =>
      by_cases hp : accepts (.ofData data) = true
      · exact setup_alike ⟨rfl, hp⟩ h.address h.configuration
      · exact setup_stalls_alike h fun h8 => hp h8.2
  | malformed rxLen data hlen =>
      exact setup_stalls_alike h fun h8 => hlen h8.1
  | tokenIn rxLen data => exact handleIn_alike h
  | tokenOut rxLen data =>
      rw [ep0Step_out, ep0Step_out]
      exact .some (handleOut_alike (alike_receive_out h rxLen data) rxLen)
  | other token rxLen data hsetup hin hout =>
      rw [ep0Step_other fw rxLen data s hsetup hin hout,
        ep0Step_other fw rxLen data t hsetup hin hout]
      exact .some h
  | busReset => exact .some (alike_reset s t)

end Ch552e.Proofs
