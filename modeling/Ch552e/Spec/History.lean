import Ch552e.Ref.Handlers

/-!
# What the events so far amount to

The address and the configuration a device is to have are functions of what
has happened on the bus, newest event first. A request takes effect with the
first IN after its SETUP, unless another SETUP or a bus reset comes in between;
a bus reset makes the device forget.

`responds` is the one thing assumed of the hardware: that a token which is not
answered with ACK does not complete.
-/

namespace Ch552e.Spec

open Ch552e.Lib Ch552e.Ref

/-- The request whose status IN is still to come, if there is one. -/
def pending : List Ep0Event → Option UsbSetupPacket
  | [] => none
  | .busReset :: _ => none
  | .packet token rxLen data :: past =>
      if token = uisTokenSetup then
        if rxLen = 8 then some (.ofData data) else none
      else if token = uisTokenIn then none
      else pending past

/-- The `wValue` of the last request of the kind `kind` that went through, since
the last bus reset; 0 if there is none. -/
def committed (kind : UsbSetupPacket → Bool) : List Ep0Event → UInt16
  | [] => 0
  | .busReset :: _ => 0
  | .packet token _ _ :: past =>
      if token = uisTokenIn then
        match pending past with
        | some p => if kind p then p.wValue else committed kind past
        | none => committed kind past
      else committed kind past

/-- An IN or an OUT completes only where it is answered with ACK. -/
def responds (s : Ep0) : Ep0Event → Bool
  | .packet token _ _ =>
      (token ≠ uisTokenIn || s.tRes = uepTResAck) &&
        (token ≠ uisTokenOut || s.rRes = uepRResAck)
  | .busReset => true

/-! ## Event by event -/

section Events

variable (kind : UsbSetupPacket → Bool) (past : List Ep0Event)
  (rxLen : UInt8) (data : Nat → UInt8)

@[simp] theorem pending_reset : pending (.busReset :: past) = none := rfl

@[simp] theorem committed_reset : committed kind (.busReset :: past) = 0 := rfl

theorem pending_setup :
    pending (.packet uisTokenSetup rxLen data :: past) =
      if rxLen = 8 then some (.ofData data) else none := if_pos rfl

theorem pending_in : pending (.packet uisTokenIn rxLen data :: past) = none := rfl

theorem pending_skip {token : UInt8} (hsetup : token ≠ uisTokenSetup)
    (hin : token ≠ uisTokenIn) :
    pending (.packet token rxLen data :: past) = pending past := by
  rw [pending, if_neg hsetup, if_neg hin]

theorem committed_skip {token : UInt8} (hin : token ≠ uisTokenIn) :
    committed kind (.packet token rxLen data :: past) = committed kind past :=
  if_neg hin

/-- An IN lets the pending request take effect, if it is of the kind. -/
theorem committed_in_of_pending {p : UsbSetupPacket} (h : pending past = some p)
    (hk : kind p = true) :
    committed kind (.packet uisTokenIn rxLen data :: past) = p.wValue := by
  rw [committed, if_pos rfl, h]
  exact if_pos hk

theorem committed_in_of_not (h : ∀ p, pending past = some p → kind p = false) :
    committed kind (.packet uisTokenIn rxLen data :: past) =
      committed kind past := by
  rw [committed, if_pos rfl]
  match hp : pending past with
  | none => rfl
  | some p => exact if_neg (by simp [h p hp])

end Events

end Ch552e.Spec
