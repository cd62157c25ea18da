import Ch552e.Proofs.StreamBounds

/-!
# The handshake register and the state tag

`UEP0_CTRL` and `UEP0_T_LEN` are assigned beside the state in a dozen places.
`Consistent` is what every such pair has in common. It is kept by a case
analysis over `EventStep`: each arm arms an IN (`consistent_of_ack`), closes the
IN direction (`consistent_of_nak`), stalls, or leaves everything as it is.
-/

namespace Ch552e.Proofs

open Ch552e.Lib Ch552e.Ref

variable {fw : Firmware} {s s' : Ep0} {p : UsbSetupPacket}

/-- The states in which the completion of an IN is waited for. -/
def awaitsIn : UsbEp0State → Bool
  | .waitDeviceAddress | .waitSetConfiguration | .sendDeviceDescriptor
  | .sendConfigurationDescriptor | .sendConfigurationZlp => true
  | .init | .waitStatusOut | .idle => false

/-- Nothing to send, and open to what the host sends. -/
def Listening (s : Ep0) : Prop :=
  s.tRes = uepTResNak ∧ s.uep0TLen = 0 ∧ s.rRes = uepRResAck

structure Consistent (s : Ep0) : Prop where
  length : s.uep0TLen.toNat ≤ 64
  answer : (s.uep0Ctrl = uepRResStall ||| uepTResStall ∧ s.uep0TLen = 0) ∨
    ((s.tRes = uepTResAck ↔ awaitsIn s.state = true) ∧
      (Listening s ↔ awaitsIn s.state = false))

theorem consistent_of_ack (hack : s.tRes = uepTResAck)
    (hstate : awaitsIn s.state = true) (hlen : s.uep0TLen.toNat ≤ 64) :
    Consistent s where
  length := hlen
  answer := by
    refine .inr ⟨iff_of_true hack hstate, iff_of_false ?_ (by simp [hstate])⟩
    rintro ⟨hnak, _⟩
    rw [hack] at hnak
    exact absurd hnak (by decide)

theorem consistent_of_nak (hlisten : Listening s)
    (hstate : awaitsIn s.state = false) : Consistent s where
  length := by rw [hlisten.2.1]; exact Nat.zero_le _
  answer := by
    refine .inr ⟨iff_of_false ?_ (by simp [hstate]), iff_of_true hlisten hstate⟩
    intro hack
    rw [hlisten.1] at hack
    exact absurd hack (by decide)

theorem consistent_stall (s : Ep0) : Consistent (usbEp0Stall s) where
  length := Nat.zero_le _
  answer := .inl ⟨rfl, rfl⟩

theorem listening_of_ctrl (hlen : s.uep0TLen = 0)
    (hctrl : s.uep0Ctrl = uepRResAck ||| uepTResNak) : Listening s := by
  rw [Listening, Ep0.tRes, Ep0.rRes, hctrl]
  exact ⟨by decide, hlen, by decide⟩

theorem consistent_awaitStatusOut (s : Ep0) : Consistent (awaitStatusOut s) := by
  obtain ⟨hnak, hack, _⟩ := awaitStatusOut_ctrl s
  exact consistent_of_nak ⟨hnak, rfl, hack⟩ rfl

theorem consistent_armFirst {state : UsbEp0State} {length : UInt8}
    (hstate : awaitsIn state = true) (hlen : length.toNat ≤ 64) (s : Ep0) :
    Consistent (armFirst state length s) :=
  consistent_of_ack (armFirst_ctrl ..).2.1 hstate hlen

theorem consistent_armNext {state : UsbEp0State} {length : UInt8}
    (hstate : awaitsIn state = true) (hlen : length.toNat ≤ 64) (s : Ep0) :
    Consistent (armNext state length s) :=
  consistent_of_ack (armNext_ctrl _ _ rfl).2 hstate hlen

/-- What a call of the fill function leaves can be armed. -/
theorem prepare_armable {length : UInt8} {r : Ep0}
    (hstate : s.state = .sendConfigurationDescriptor)
    (hprep : usbEp0PrepareDescriptor fw s = some (length, r)) :
    awaitsIn r.state = true ∧ length.toNat ≤ 64 := by
  refine ⟨?_, (usbEp0PrepareDescriptor_spends hprep).1⟩
  rw [usbEp0PrepareDescriptor_frame hprep]
  exact congrArg awaitsIn hstate

/-! ## The handlers -/

theorem consistent_setup (hdev : fw.code fw.usbGetDeviceDescriptor = 18)
    (h : SetupStep fw p s s') : Consistent s' := by
  cases h with
  | address _ | configuration _ => exact consistent_armFirst rfl (by decide) _
  | device _ =>
      have hle := deviceLength_le fw p
      rw [hdev] at hle
      exact consistent_armFirst rfl (Nat.le_trans hle (by decide)) _
  | zero _ _ => exact consistent_awaitStatusOut _
  | stream _ _ length r hprep =>
      obtain ⟨hstate, hlen⟩ := prepare_armable rfl hprep
      exact consistent_armFirst hstate hlen r
  | rejected _ => exact consistent_stall s

theorem consistent_in (hs : Consistent s) (h : InStep fw s s') :
    Consistent s' := by
  cases h with
  | address _ | configuration _ =>
      exact consistent_of_nak (listening_of_ctrl rfl rfl) rfl
  | finished _ => exact consistent_awaitStatusOut s
  | short _ _ r _ _ => exact consistent_awaitStatusOut r
  | zlp _ _ r _ _ => exact consistent_armNext rfl (by decide) r
  | next hstate _ length r hprep _ =>
      obtain ⟨hstate', hlen⟩ := prepare_armable hstate hprep
      exact consistent_armNext hstate' hlen r
  | ignored _ => exact hs

theorem consistent_out {length : UInt8} (hs : Consistent s)
    (h : OutStep s length s') : Consistent s' := by
  cases h with
  | stalled _ _ => exact consistent_stall s
  | finished _ _ => exact consistent_of_nak (listening_of_ctrl rfl rfl) rfl
  | ignored _ => exact hs

theorem consistent_reset (s : Ep0) : Consistent (usbEp0Reset s) :=
  consistent_of_nak (listening_of_ctrl rfl rfl) rfl

theorem consistent_receive (hs : Consistent s) (token rxLen : UInt8)
    (data : Nat → UInt8) : Consistent (receive token rxLen data s) := by
  unfold receive
  split
  · exact ⟨hs.length, hs.answer⟩
  · exact hs

theorem consistent_step {e : Ep0Event}
    (hdev : fw.code fw.usbGetDeviceDescriptor = 18) (hs : Consistent s)
    (h : ep0Step fw s e = some s') : Consistent s' := by
  cases ep0Step_event h with
  | setup _ _ h => exact consistent_setup hdev h
  | malformed _ _ _ => exact consistent_stall _
  | tokenIn _ _ _ h => exact consistent_in hs h
  | tokenOut _ _ _ h => exact consistent_out (consistent_receive hs _ _ _) h
  | other => exact hs
  | busReset => exact consistent_reset s

/-- In every state of every run, whatever tokens come and in whatever order:
what is armed fits the buffer, and unless the endpoint is stalled, an IN is
answered exactly in the states that wait for one, and in the others there is
nothing to send and the endpoint listens. -/
theorem handshake_consistent (hdev : fw.code fw.usbGetDeviceDescriptor = 18)
    {s₀ : Ep0} {es : List Ep0Event}
    (h : runs (ep0Step fw) (usbEp0Init s₀) es = some s) : Consistent s :=
  runs_inv (I := Consistent) (fun _ _ _ hs hstep => consistent_step hdev hs hstep)
    (consistent_reset _) h

theorem handshake_consistent_demo :
    ∃ s, runs (ep0Step demo) (usbEp0Init powerOn)
        [.setup (readConfiguration 255), .tokenIn, .statusOut] = some s ∧
      Consistent s := by
  have hsome : (runs (ep0Step demo) (usbEp0Init powerOn)
      [.setup (readConfiguration 255), .tokenIn, .statusOut]).isSome := by
    decide +kernel
  obtain ⟨s, hs⟩ := Option.isSome_iff_exists.mp hsome
  exact ⟨s, hs, handshake_consistent (by decide) hs⟩

end Ch552e.Proofs
