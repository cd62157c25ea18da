import Ch552e.Lib.Instrumented
import Ch552e.Proofs.Steps
import Ch552e.Ref.StrictUnion

/-!
# No handler misreads the union

On the strict union every access of the stream is an access to its own arm as
long as `config_stream` owns the storage, and then the strict functions compute
what the plain ones do (the first section). Across events the owner is what
`Tagged` says of the state tag: the states that wait for a candidate, and the
one that sends the stream, have the owner to match; the other states read
nothing.

`Tagged` survives every event because the two change together only in an
accepted SETUP, which writes the arm its state will read. The one accepted
request that writes an arm its state does not stand for, a configuration
request of length zero, goes to a state without one; a stall and a reset leave
the storage and either keep the tag or move it to such a state.
-/

namespace Ch552e.Proofs

open Ch552e.Lib Ch552e.Ref

/-! ## While the stream owns the storage -/

/-- The storage `a`, owned by `config_stream`. -/
def streaming (a : Ep0Arms) : Strict.Union := ⟨a, some .configStream⟩

section Streaming

variable (fw : Firmware) (a : Ep0Arms)

@[simp] theorem read_streaming {α : Type} (field : Ep0Arms → α) :
    (streaming a).read .configStream field = .ok (field a) := rfl

@[simp] theorem update_streaming (store : Ep0Arms → Ep0Arms) :
    (streaming a).update .configStream store = .ok (streaming (store a)) := rfl

/-- What the walk answers, on the strict union. -/
def found (r : Bool × Ep0Arms) : Bool × Strict.Union := (r.1, streaming r.2)

theorem strict_moveToInterface :
    Strict.moveToInterfaceDescriptor fw (streaming a) =
      .ok (found (moveToInterfaceDescriptor fw a)) := by
  simp only [Strict.moveToInterfaceDescriptor, moveToInterfaceDescriptor,
    read_streaming, ok_bind]
  split <;> rfl

theorem strict_moveToChild :
    Strict.moveToInterfaceChildDescriptor fw (streaming a) =
      .ok (found (moveToInterfaceChildDescriptor fw a)) := by
  simp only [Strict.moveToInterfaceChildDescriptor,
    moveToInterfaceChildDescriptor, read_streaming, ok_bind]
  split <;> rfl

theorem strict_moveToNext :
    Strict.moveToNextDescriptor fw (streaming a) =
      .ok (found (moveToNextDescriptor fw a)) := by
  simp only [Strict.moveToNextDescriptor, moveToNextDescriptor, read_streaming,
    strict_moveToInterface, strict_moveToChild, ok_bind]
  by_cases hchild : a.child = 0b00011111
  · rw [if_pos hchild, if_pos hchild]
  · rw [if_neg hchild, if_neg hchild]
    match moveToInterfaceChildDescriptor fw a with
    | (true, a') => rfl
    | (false, a') =>
        simp only [found, read_streaming, update_streaming, ok_bind]
        by_cases hlast : a'.interface = 0b00000111
        · rw [if_pos hlast, if_pos hlast]
          rfl
        · rw [if_neg hlast, if_neg hlast]
          exact strict_moveToInterface fw _

/-- The loop's state, its stream owned by `config_stream`. -/
def owning (f : Filling) : Strict.Filling := ⟨f, some .configStream⟩

@[simp] theorem owning_union (f : Filling) :
    (owning f).union = streaming f.arms := rfl

theorem strict_continues (f : Filling) :
    (owning f).continues = .ok f.continues := rfl

theorem strict_copy (f : Filling) :
    (owning f).copy fw = .ok (owning (f.copy fw)) := rfl

theorem strict_next (f : Filling) :
    (owning f).next fw = .ok ((f.next fw).1, owning (f.next fw).2) := by
  simp only [Strict.Filling.next, Filling.next, owning_union, strict_moveToNext,
    ok_bind]
  obtain ⟨found, a⟩ := moveToNextDescriptor fw f.arms
  cases found with
  | true => rfl
  | false => rfl

theorem strict_fillTurn (f : Filling) :
    Strict.fillTurn fw (owning f) =
      .ok ((fillTurn fw f).1, owning (fillTurn fw f).2) := by
  simp only [Strict.fillTurn, fillTurn, strict_continues, strict_copy,
    owning_union, read_streaming, ok_bind, strict_next]
  split
  · split
    · rfl
    · split <;> rfl
  · rfl

theorem strict_fillLoop (f : Filling) :
    Agrees .diverges (fun x y => x = owning y) (Strict.fillLoop fw (owning f))
      (fillLoop fw f) := by
  have hturn : ∀ x g, x = .ok (owning g) →
      (Strict.fillBody fw x).1 = (fillTurn fw g).1 ∧
        (Strict.fillBody fw x).2 = .ok (owning (fillTurn fw g).2) := by
    rintro _ g rfl
    rw [Strict.fillBody, strict_fillTurn]
    exact ⟨rfl, rfl⟩
  have hloop := loop_rel hturn fillFuel (s := .ok (owning f)) rfl
  rw [Strict.fillLoop, fillLoop]
  generalize loop (Strict.fillBody fw) fillFuel _ = x at hloop
  generalize loop (fillTurn fw) fillFuel f = y at hloop
  cases hloop with
  | none => exact .stop
  | some h => exact agrees_of_eq h rfl

/-- The device, its union owned by `config_stream`. -/
def sending (s : Ep0) : Strict.Device := ⟨s, some .configStream⟩

theorem strict_prepare (s : Ep0) :
    Agrees .diverges
      (fun x y => x = (y.1, sending y.2) ∧ y.2.state = s.state)
      (Strict.usbEp0PrepareDescriptor fw (sending s))
      (usbEp0PrepareDescriptor fw s) := by
  have hread : (sending s).union.read .configStream Ep0Arms.cursor =
      .ok s.arms.cursor := rfl
  have hdev : (sending s).dev = s := rfl
  simp only [Strict.usbEp0PrepareDescriptor, usbEp0PrepareDescriptor, hread,
    hdev, ok_bind]
  split
  · exact .ok ⟨rfl, rfl⟩
  · split
    · exact .ok ⟨rfl, rfl⟩
    · refine agrees_map (strict_fillLoop fw _) ?_
      intro x f hx
      subst hx
      exact .ok ⟨rfl, rfl⟩

end Streaming

/-! ## The tag -/

/-- The arm that a state's handlers read. -/
def armOf : UsbEp0State → Option Arm
  | .waitDeviceAddress => some .addressPending
  | .waitSetConfiguration => some .configurationPending
  | .sendConfigurationDescriptor => some .configStream
  | .init | .sendDeviceDescriptor | .sendConfigurationZlp | .waitStatusOut
  | .idle => none

/-- The arm that the state stands for, if there is one, owns the storage. -/
def Tagged (d : Strict.Device) : Prop :=
  ∀ arm, armOf d.dev.state = some arm → d.owner = some arm

/-- A strict device in place of the plain one. -/
def StandsFor (d : Strict.Device) (s : Ep0) : Prop := d.dev = s ∧ Tagged d

variable {fw : Firmware} {d : Strict.Device} {s : Ep0}

theorem standsFor_of_owner {owner : Option Arm} (h : armOf s.state = owner) :
    StandsFor ⟨s, owner⟩ s := by
  refine ⟨rfl, ?_⟩
  intro arm harm
  rw [← h]
  exact harm

theorem standsFor_of_none (owner : Option Arm) (h : armOf s.state = none) :
    StandsFor ⟨s, owner⟩ s := by
  refine ⟨rfl, ?_⟩
  intro arm harm
  rw [h] at harm
  exact absurd harm (by simp)

/-- What leaves the tag alone. -/
theorem Tagged.same (h : Tagged d) (hstate : s.state = d.dev.state) :
    StandsFor ⟨s, d.owner⟩ s := by
  refine ⟨rfl, fun arm harm => h arm ?_⟩
  rw [← hstate]
  exact harm

/-! ## The handlers -/

theorem strict_handleSetup (p : UsbSetupPacket) (htag : Tagged d) :
    Agrees .diverges (fun x y => x.1 = y.1 ∧ StandsFor x.2 y.2)
      (Strict.usbEp0HandleSetup fw p d) (usbEp0HandleSetup fw p d.dev) := by
  unfold Strict.usbEp0HandleSetup usbEp0HandleSetup
  by_cases haddress : isSetAddress p = true
  · simp only [if_pos haddress]
    exact .ok ⟨rfl, standsFor_of_owner rfl⟩
  · simp only [if_neg haddress]
    by_cases hdevice : isGetDeviceDescriptor p = true
    · simp only [if_pos hdevice]
      exact .ok ⟨rfl, standsFor_of_none none rfl⟩
    · simp only [if_neg hdevice]
      by_cases hconfig : isGetConfigurationDescriptor p = true
      · simp only [if_pos hconfig]
        by_cases hzero : p.wLength = 0
        · simp only [if_pos hzero]
          exact .ok ⟨rfl, standsFor_of_none _ rfl⟩
        · simp only [if_neg hzero]
          refine agrees_map (strict_prepare fw _) ?_
          intro x y hxy
          obtain ⟨rfl, hstate⟩ := hxy
          exact .ok ⟨rfl, standsFor_of_owner (congrArg armOf hstate)⟩
      · simp only [if_neg hconfig]
        by_cases hset : isSetConfiguration p = true
        · simp only [if_pos hset]
          exact .ok ⟨rfl, standsFor_of_owner rfl⟩
        · simp only [if_neg hset]
          exact .ok ⟨rfl, htag.same rfl⟩

theorem strict_handleIn (htag : Tagged d) :
    Agrees .diverges StandsFor (Strict.usbEp0HandleIn fw d)
      (usbEp0HandleIn fw d.dev) := by
  obtain ⟨s, owner⟩ := d
  match hstate : s.state with
  | .waitDeviceAddress =>
      obtain rfl : owner = some .addressPending := htag _ (congrArg armOf hstate)
      simp only [Strict.usbEp0HandleIn, usbEp0HandleIn, hstate]
      exact .ok (standsFor_of_none _ rfl)
  | .waitSetConfiguration =>
      obtain rfl : owner = some .configurationPending :=
        htag _ (congrArg armOf hstate)
      simp only [Strict.usbEp0HandleIn, usbEp0HandleIn, hstate]
      exact .ok (standsFor_of_none _ rfl)
  | .sendConfigurationDescriptor =>
      obtain rfl : owner = some .configStream := htag _ (congrArg armOf hstate)
      have hread : (Strict.Device.mk s (some .configStream)).union.read
          .configStream Ep0Arms.requestRemaining =
          .ok s.arms.requestRemaining := rfl
      simp only [Strict.usbEp0HandleIn, usbEp0HandleIn, hstate, hread, ok_bind]
      by_cases hreq : s.arms.requestRemaining = 0
      · rw [if_pos hreq, if_pos hreq]
        exact .ok (standsFor_of_none _ rfl)
      · rw [if_neg hreq, if_neg hreq]
        refine agrees_map (strict_prepare fw s) ?_
        intro x y hxy
        obtain ⟨rfl, hsame⟩ := hxy
        have harm := congrArg armOf (hsame.trans hstate)
        dsimp only
        split
        · split
          · exact .ok (standsFor_of_none _ rfl)
          · exact .ok (standsFor_of_none _ rfl)
        · exact .ok (standsFor_of_owner harm)
  | .sendDeviceDescriptor | .sendConfigurationZlp =>
      simp only [Strict.usbEp0HandleIn, usbEp0HandleIn, hstate]
      exact .ok (standsFor_of_none _ rfl)
  | .init | .waitStatusOut | .idle =>
      simp only [Strict.usbEp0HandleIn, usbEp0HandleIn, hstate]
      exact .ok ⟨rfl, htag⟩

/-- The check is not idle by itself: an IN finds out that its arm does not own
the storage. -/
theorem misread_of_not_tagged (h : ¬Tagged d) :
    Strict.usbEp0HandleIn fw d = .error .misread := by
  obtain ⟨s, owner⟩ := d
  simp only [Tagged, not_forall] at h
  obtain ⟨arm, harm, howner⟩ := h
  have hread : ∀ {α : Type} (field : Ep0Arms → α),
      (Strict.Device.mk s owner).union.read arm field = .error .misread :=
    fun field => if_neg howner
  match hstate : s.state with
  | .waitDeviceAddress | .waitSetConfiguration | .sendConfigurationDescriptor =>
      rw [hstate] at harm
      obtain rfl := Option.some.inj harm
      simp only [Strict.usbEp0HandleIn, hstate, hread]
      rfl
  | .sendDeviceDescriptor | .sendConfigurationZlp | .init | .waitStatusOut
  | .idle =>
      rw [hstate] at harm
      exact absurd harm (by simp [armOf])

theorem standsFor_handleOut (length : UInt8) (htag : Tagged d) :
    StandsFor { d with dev := usbEp0HandleOut length d.dev }
      (usbEp0HandleOut length d.dev) := by
  have hout := handleOut_step length d.dev
  generalize usbEp0HandleOut length d.dev = s at hout
  cases hout with
  | stalled _ _ => exact htag.same rfl
  | finished _ _ => exact standsFor_of_none _ rfl
  | ignored _ => exact htag.same rfl

theorem strict_handlePacket (token : UInt8) (htag : Tagged d) :
    Agrees .diverges StandsFor (Strict.usbEp0HandlePacket fw token d)
      (usbEp0HandlePacket fw token d.dev) := by
  unfold Strict.usbEp0HandlePacket usbEp0HandlePacket usbEp0HandlePacketWith
  by_cases hsetup : token = uisTokenSetup
  · rw [if_pos hsetup, if_pos hsetup]
    by_cases hlen : d.dev.usbRxLen ≠ 8
    · rw [if_pos hlen, if_pos hlen]
      exact .ok (htag.same rfl)
    · rw [if_neg hlen, if_neg hlen]
      have hlogged : Tagged
          { d with dev := logSetup fw (copySetupPacket d.dev.xram) d.dev } := htag
      refine agrees_map (strict_handleSetup _ hlogged) ?_
      rintro ⟨answer, d'⟩ ⟨_, s'⟩ ⟨rfl, rfl, htag'⟩
      cases answer with
      | true => exact .ok ⟨rfl, htag'⟩
      | false => exact .ok (htag'.same rfl)
  · rw [if_neg hsetup, if_neg hsetup]
    by_cases hin : token = uisTokenIn
    · rw [if_pos hin, if_pos hin]
      exact strict_handleIn htag
    · rw [if_neg hin, if_neg hin]
      by_cases hout : token = uisTokenOut
      · rw [if_pos hout, if_pos hout]
        exact .ok (standsFor_handleOut _ htag)
      · rw [if_neg hout, if_neg hout]
        exact .ok ⟨rfl, htag⟩

theorem receive_state (token rxLen : UInt8) (data : Nat → UInt8) (s : Ep0) :
    (receive token rxLen data s).state = s.state := by
  unfold receive
  split <;> rfl

theorem strict_step (e : Ep0Event) (h : StandsFor d s) :
    Agrees .diverges StandsFor (Strict.ep0Step fw d e) (ep0Step fw s e) := by
  obtain ⟨rfl, htag⟩ := h
  cases e with
  | packet token rxLen data =>
      have hreceived := htag.same (receive_state token rxLen data d.dev)
      exact strict_handlePacket token hreceived.2
  | busReset => exact .ok (standsFor_of_none _ rfl)

/-- In every run from `usb_ep0_init`, whatever tokens, lengths and contents
come and wherever it is reset: no handler reads the union through an arm that
was not the last one written, since the last accepted SETUP, and the strict
device does in every run what the device does. -/
theorem union_never_misread (fw : Firmware) (s₀ : Ep0) (es : List Ep0Event) :
    Strict.run fw ⟨usbEp0Init s₀, none⟩ es ≠ .error .misread ∧
      (Strict.run fw ⟨usbEp0Init s₀, none⟩ es).toOption.map Strict.Device.dev =
        runs (ep0Step fw) (usbEp0Init s₀) es := by
  have hinit : StandsFor ⟨usbEp0Init s₀, none⟩ (usbEp0Init s₀) :=
    standsFor_of_none none rfl
  have hrun : Agrees .diverges StandsFor
      (es.foldlM (Strict.ep0Step fw) ⟨usbEp0Init s₀, none⟩)
      (runs (ep0Step fw) (usbEp0Init s₀) es) :=
    agrees_runs (fun _ _ e h => strict_step e h) hinit es
  refine ⟨ne_error_of_agrees hrun (by decide), ?_⟩
  have hrel := rel_of_agrees hrun
  rw [Strict.run]
  generalize (es.foldlM (Strict.ep0Step fw) _).toOption = x at hrel
  generalize runs (ep0Step fw) (usbEp0Init s₀) es = y at hrel
  cases hrel with
  | none => rfl
  | some hstands => exact congrArg some hstands.1

end Ch552e.Proofs
