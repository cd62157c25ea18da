import Ch552e.Proofs.FillTurn
import Ch552e.Proofs.Steps

/-!
# The runs of a configuration stream

The hooks are arbitrary here, so a call of the fill function may never return.
`StreamAt` says where a data stage can be all the same: at any turn of the loop
the request runs, or of a loop one of the INs after it runs, whether that loop
ends or not.

`StreamAt.inv` is the invariant rule for it. What holds where the stream
starts, survives the start of another call and is kept by a turn, holds
wherever the stream is.
-/

namespace Ch552e.Proofs

open Ch552e.Lib Ch552e.Ref

variable {fw : Firmware} {s₀ : Ep0} {p : UsbSetupPacket} {J : Filling → Prop}

def filling (s : Ep0) : Filling := ⟨s.arms, s.xram, 0, s.trace⟩

/-- The state in which a request starts its stream. -/
def streamStart (fw : Firmware) (s₀ : Ep0) (p : UsbSetupPacket) : Ep0 :=
  startConfigStream fw p
    (received fw (fun i => if h : i < 8 then p.bytes ⟨i, h⟩ else 0) s₀)

def dataStageEvents (p : UsbSetupPacket) (k : Nat) : List Ep0Event :=
  .setup p :: List.replicate k .tokenIn

/-- The points of a data stage: some turns into the call that the request
makes, or that an IN makes. Once a loop has ended, further turns change
nothing. -/
inductive StreamAt (fw : Firmware) (s₀ : Ep0) (p : UsbSetupPacket) :
    Filling → Prop where
  | setup (n : Nat) :
      StreamAt fw s₀ p (orbit (fillTurn fw) n (filling (streamStart fw s₀ p)))
  | tokenIn {k : Nat} {s : Ep0}
      (h : runs (ep0Step fw) s₀ (dataStageEvents p k) = some s)
      (hstate : s.state = .sendConfigurationDescriptor) (n : Nat) :
      StreamAt fw s₀ p (orbit (fillTurn fw) n (filling s))

/-! ## The invariant rule -/

theorem usbEp0PrepareDescriptor_inv
    (restart : ∀ f, J f → J { f with filledBytes := 0 })
    (turn : ∀ f, J f → J (fillTurn fw f).2) {s r : Ep0} {length : UInt8}
    (h : usbEp0PrepareDescriptor fw s = some (length, r))
    (hs : J (filling s)) : J (filling r) := by
  cases usbEp0PrepareDescriptor_step h with
  | nothing _ => exact hs
  | filled _ _ f hloop => exact restart f (loop_keeps turn hs hloop)

theorem tokenIn_inv (restart : ∀ f, J f → J { f with filledBytes := 0 })
    (turn : ∀ f, J f → J (fillTurn fw f).2) {s s' : Ep0}
    (h : ep0Step fw s .tokenIn = some s') (hs : J (filling s)) :
    J (filling s') := by
  rw [Ep0Event.tokenIn, ep0Step_in] at h
  cases handleIn_step h with
  | address | configuration | finished | ignored => exact hs
  | short _ _ r hprep _ | zlp _ _ r hprep _ | next _ _ _ r hprep _ =>
      have hr := usbEp0PrepareDescriptor_inv restart turn hprep hs
      exact hr

/-- The state after the request: no data stage, or a first packet. -/
theorem setup_cases (hp : isGetConfigurationDescriptor p = true) {s : Ep0}
    (h : ep0Step fw s₀ (.setup p) = some s) :
    (p.wLength = 0 ∧ s = awaitStatusOut (streamStart fw s₀ p)) ∨
      ∃ length r, usbEp0PrepareDescriptor fw (streamStart fw s₀ p) =
        some (length, r) ∧ s = armFirst r.state length r := by
  rw [Ep0Event.setup, ep0Step_setup, ofData_bytes] at h
  by_cases hlen : p.wLength = 0
  · rw [handleSetup_zero fw _ hp hlen, Option.map_some, Option.some.injEq] at h
    exact .inl ⟨hlen, h.symm⟩
  · rw [handleSetup_stream fw _ hp hlen, Option.map_map] at h
    obtain ⟨⟨length, r⟩, hprep, hs⟩ := Option.map_eq_some_iff.mp h
    exact .inr ⟨length, r, hprep, hs.symm⟩

theorem setup_inv (hp : isGetConfigurationDescriptor p = true)
    (start : J (filling (streamStart fw s₀ p)))
    (restart : ∀ f, J f → J { f with filledBytes := 0 })
    (turn : ∀ f, J f → J (fillTurn fw f).2) {s : Ep0}
    (h : ep0Step fw s₀ (.setup p) = some s) : J (filling s) := by
  rcases setup_cases hp h with ⟨_, rfl⟩ | ⟨length, r, hprep, rfl⟩
  · exact start
  · have hr := usbEp0PrepareDescriptor_inv restart turn hprep start
    exact hr

theorem tokenIns_inv (restart : ∀ f, J f → J { f with filledBytes := 0 })
    (turn : ∀ f, J f → J (fillTurn fw f).2) {k : Nat} {s s' : Ep0}
    (h : runs (ep0Step fw) s (List.replicate k .tokenIn) = some s')
    (hs : J (filling s)) : J (filling s') := by
  induction k generalizing s with
  | zero =>
      rw [List.replicate_zero, runs_nil, Option.some.injEq] at h
      exact h ▸ hs
  | succ k ih =>
      rw [List.replicate_succ, runs_cons] at h
      obtain ⟨t, hin, hrest⟩ := Option.bind_eq_some_iff.mp h
      exact ih hrest (tokenIn_inv restart turn hin hs)

theorem StreamAt.inv (hp : isGetConfigurationDescriptor p = true)
    (start : J (filling (streamStart fw s₀ p)))
    (restart : ∀ f, J f → J { f with filledBytes := 0 })
    (turn : ∀ f, J f → J (fillTurn fw f).2) {f : Filling}
    (h : StreamAt fw s₀ p f) : J f := by
  cases h with
  | setup n => exact orbit_keeps turn n start
  | tokenIn h _ n =>
      rw [dataStageEvents, runs_cons] at h
      obtain ⟨s₁, hsetup, hrest⟩ := Option.bind_eq_some_iff.mp h
      have hs₁ := setup_inv hp start restart turn hsetup
      exact orbit_keeps turn n (tokenIns_inv restart turn hrest hs₁)

end Ch552e.Proofs
