import Ch552e.Proofs.Alike
import Ch552e.Ref.Main

/-!
# What a SETUP and a bus reset leave behind

Two statements about pairs of runs. A SETUP leaves nothing of what came before
it but the address and the configuration, and a bus reset leaves nothing at
all: from there on, devices with different pasts show the same on the bus.

A stalled SETUP is the delicate case, because `usb_ep0_stall` touches neither
the state nor the storage. What separates the old transfer from later tokens
there is the handshake register alone: `stallStep` is the endpoint with that
register at work, answering IN and OUT by itself while it stalls.
`stalled_setup_commits` is what the handlers would do without it. After an accepted
SETUP they need no such help (`accepted_supersedes`).
-/

namespace Ch552e.Proofs

open Ch552e.Lib Ch552e.Ref

variable {fw : Firmware}

/-- The endpoint answers the token with STALL. -/
def stalls (s : Ep0) : Ep0Event → Bool
  | .packet token _ _ =>
      s.uep0Ctrl = uepRResStall ||| uepTResStall &&
        (token = uisTokenIn || token = uisTokenOut)
  | .busReset => false

/-- An event at the endpoint: a token that is stalled does not reach the
handlers. -/
def stallStep (fw : Firmware) (s : Ep0) (e : Ep0Event) : Option Ep0 :=
  if stalls s e then some s else ep0Step fw s e

def Superseded (s t : Ep0) : Prop :=
  Alike s t ∨ Agree s t ∧ s.uep0Ctrl = uepRResStall ||| uepTResStall

theorem Superseded.agree {s t : Ep0} (h : Superseded s t) : Agree s t :=
  h.elim Alike.toAgree And.left

/-- After the same SETUP, two devices with the same address and configuration
cannot be told apart, or are both stalled. -/
theorem setup_superseded (fw : Firmware) {s t : Ep0}
    (haddr : s.usbDevAd = t.usbDevAd) (hconf : s.configuration = t.configuration)
    (rxLen : UInt8) (data : Nat → UInt8) :
    Option.Rel Superseded (ep0Step fw s (.packet uisTokenSetup rxLen data))
      (ep0Step fw t (.packet uisTokenSetup rxLen data)) := by
  by_cases hp : rxLen = 8 ∧ accepts (.ofData data) = true
  · exact rel_mono (setup_alike hp haddr hconf) fun _ _ h => .inl h
  · obtain ⟨r, hr, _, _, hrd, hrc⟩ := setup_stalls fw hp s
    obtain ⟨q, hq, _, _, hqd, hqc⟩ := setup_stalls fw hp t
    rw [hr, hq]
    exact .some (.inr ⟨agree_stall (by rw [hrd, hqd, haddr])
      (by rw [hrc, hqc, hconf]), rfl⟩)

theorem stallStep_setup (fw : Firmware) (s : Ep0) (rxLen : UInt8)
    (data : Nat → UInt8) :
    stallStep fw s (.packet uisTokenSetup rxLen data) =
      ep0Step fw s (.packet uisTokenSetup rxLen data) :=
  if_neg (by simp [stalls, uisTokenSetup, uisTokenIn, uisTokenOut])

/-- A stalled endpoint ignores everything but a SETUP and a bus reset. -/
theorem stallStep_stalled (fw : Firmware) {s : Ep0} {token : UInt8}
    (hs : s.uep0Ctrl = uepRResStall ||| uepTResStall)
    (hsetup : token ≠ uisTokenSetup) (rxLen : UInt8) (data : Nat → UInt8) :
    stallStep fw s (.packet token rxLen data) = some s := by
  by_cases hin : token = uisTokenIn
  · exact if_pos (by simp [stalls, hs, hin])
  · by_cases hout : token = uisTokenOut
    · exact if_pos (by simp [stalls, hs, hout])
    · rw [stallStep, if_neg (by simp [stalls, hin, hout])]
      exact ep0Step_other fw rxLen data s hsetup hin hout

theorem stallStep_superseded {s t : Ep0} (h : Superseded s t) (e : Ep0Event) :
    Option.Rel Superseded (stallStep fw s e) (stallStep fw t e) := by
  have hagree := h.agree
  match e with
  | .busReset => exact .some (.inl (alike_reset s t))
  | .packet token rxLen data =>
      by_cases hsetup : token = uisTokenSetup
      · subst hsetup
        rw [stallStep_setup, stallStep_setup]
        exact setup_superseded fw hagree.address hagree.configuration rxLen data
      · rcases h with halike | ⟨_, hs⟩
        · have hsame : stalls s (.packet token rxLen data) =
              stalls t (.packet token rxLen data) := by
            rw [stalls, stalls, hagree.ctrl]
          rw [stallStep, stallStep, ← hsame]
          split
          · exact .some (.inl halike)
          · exact rel_mono (ep0Step_alike halike _) fun _ _ h => .inl h
        · have ht := hagree.ctrl.symm.trans hs
          rw [stallStep_stalled fw hs hsetup, stallStep_stalled fw ht hsetup]
          exact .some (.inr ⟨hagree, hs⟩)

theorem stalled_stays {s : Ep0} (hs : s.uep0Ctrl = uepRResStall ||| uepTResStall)
    {es : List Ep0Event} (hes : ∀ e ∈ es, ∃ token rxLen data,
      e = .packet token rxLen data ∧ token ≠ uisTokenSetup) :
    runs (stallStep fw) s es = some s := by
  induction es with
  | nil => rfl
  | cons e es ih =>
      obtain ⟨token, rxLen, data, rfl, hsetup⟩ := hes _ List.mem_cons_self
      rw [runs_cons, stallStep_stalled fw hs hsetup]
      exact ih fun e he => hes e (List.mem_cons_of_mem _ he)

/-- After an accepted SETUP nothing of the old transfer is left for a handler to
take up, so that it does not matter which tokens reach it. -/
theorem accepted_supersedes (fw : Firmware) {s t : Ep0} {rxLen : UInt8}
    {data : Nat → UInt8} (haccepted : rxLen = 8 ∧ accepts (.ofData data) = true)
    (haddr : s.usbDevAd = t.usbDevAd) (hconf : s.configuration = t.configuration)
    (es : List Ep0Event) :
    Option.Rel Alike (runs (ep0Step fw) s (.packet uisTokenSetup rxLen data :: es))
      (runs (ep0Step fw) t (.packet uisTokenSetup rxLen data :: es)) := by
  have hfirst : Option.Rel Alike (ep0Step fw s (.packet uisTokenSetup rxLen data))
      (ep0Step fw t (.packet uisTokenSetup rxLen data)) :=
    setup_alike haccepted haddr hconf
  rw [runs_cons, runs_cons]
  generalize ep0Step fw s (.packet uisTokenSetup rxLen data) = a at hfirst ⊢
  generalize ep0Step fw t (.packet uisTokenSetup rxLen data) = b at hfirst ⊢
  cases hfirst with
  | none => exact .none
  | some hst => exact runs_rel (fun _ _ e h => ep0Step_alike h e) hst es

/-- A SETUP supersedes everything before it: whatever tokens follow, two
devices that had the same address and configuration show the same. If it is
stalled, nothing at all happens until the next SETUP or reset; and if it is
accepted, they show the same also where every token reaches the handlers. -/
theorem setup_supersedes (fw : Firmware) {s t : Ep0}
    (haddr : s.usbDevAd = t.usbDevAd) (hconf : s.configuration = t.configuration)
    (rxLen : UInt8) (data : Nat → UInt8) (es : List Ep0Event) :
    Option.Rel Agree
        (runs (stallStep fw) s (.packet uisTokenSetup rxLen data :: es))
        (runs (stallStep fw) t (.packet uisTokenSetup rxLen data :: es)) ∧
      (∀ s', stallStep fw s (.packet uisTokenSetup rxLen data) = some s' →
        s'.uep0Ctrl = uepRResStall ||| uepTResStall →
        (∀ e ∈ es, ∃ token rxLen data,
          e = .packet token rxLen data ∧ token ≠ uisTokenSetup) →
        runs (stallStep fw) s' es = some s') ∧
      (rxLen = 8 ∧ accepts (.ofData data) = true →
        Option.Rel Agree
          (runs (ep0Step fw) s (.packet uisTokenSetup rxLen data :: es))
          (runs (ep0Step fw) t (.packet uisTokenSetup rxLen data :: es))) := by
  refine ⟨?_, fun s' _ hs' hes => stalled_stays hs' hes, fun haccepted =>
    rel_mono (accepted_supersedes fw haccepted haddr hconf es) fun _ _ h => h.toAgree⟩
  have hfirst := setup_superseded fw haddr hconf rxLen data
  rw [runs_cons, runs_cons, stallStep_setup, stallStep_setup]
  generalize ep0Step fw s (.packet uisTokenSetup rxLen data) = a at hfirst ⊢
  generalize ep0Step fw t (.packet uisTokenSetup rxLen data) = b at hfirst ⊢
  cases hfirst with
  | none => exact .none
  | some hst =>
      exact rel_mono (runs_rel (fun _ _ e h => stallStep_superseded h e) hst es)
        fun _ _ h => h.agree

def setAddressFive : Ep0Event :=
  .setup (packetOf [0x00, 0x05, 0x05, 0x00, 0x00, 0x00, 0x00, 0x00])
def shortSetup : Ep0Event := .packet uisTokenSetup 3 fun _ => 0

theorem setup_supersedes_short :
    ∃ s, ep0Step demo (usbEp0Init powerOn) setAddressFive = some s ∧
      Option.Rel Agree
        (runs (stallStep demo) s [shortSetup, .tokenIn])
        (runs (stallStep demo) (usbEp0Init powerOn) [shortSetup, .tokenIn]) ∧
      (∀ s', stallStep demo s shortSetup = some s' →
        s'.uep0Ctrl = uepRResStall ||| uepTResStall →
        (∀ e ∈ [Ep0Event.tokenIn], ∃ token rxLen data,
          e = .packet token rxLen data ∧ token ≠ uisTokenSetup) →
        runs (stallStep demo) s' [.tokenIn] = some s') ∧
      Option.Rel Agree
        (runs (ep0Step demo) s [.setup (readConfiguration 255), .tokenIn])
        (runs (ep0Step demo) (usbEp0Init powerOn)
          [.setup (readConfiguration 255), .tokenIn]) := by
  have hsome : (ep0Step demo (usbEp0Init powerOn) setAddressFive).isSome := rfl
  obtain ⟨s, hs⟩ := Option.isSome_iff_exists.mp hsome
  have hkept : (ep0Step demo (usbEp0Init powerOn) setAddressFive).map
      (fun s => (s.usbDevAd, s.configuration)) = some (0, 0) := rfl
  rw [hs, Option.map_some, Option.some.injEq, Prod.mk.injEq] at hkept
  have hboth := setup_supersedes demo (t := usbEp0Init powerOn) hkept.1 hkept.2
  obtain ⟨hshow, hstays, _⟩ := hboth 3 (fun _ => 0) [.tokenIn]
  obtain ⟨_, _, haccepted⟩ := hboth 8
    (fun i => if h : i < 8 then (readConfiguration 255).bytes ⟨i, h⟩ else 0)
    [.tokenIn]
  exact ⟨s, hs, hshow, hstays, haccepted ⟨rfl, by decide⟩⟩

/-- Without the handshake register in the way, the handlers let the old request
take effect: the device that had SET_ADDRESS(5) pending, and one that had not,
get the same stalled SETUP and the same IN, and end up at different
addresses. -/
theorem stalled_setup_commits :
    ∃ s, runs (ep0Step demo) (usbEp0Init powerOn) [setAddressFive] = some s ∧
      s.usbDevAd = (usbEp0Init powerOn).usbDevAd ∧
      s.configuration = (usbEp0Init powerOn).configuration ∧
      (runs (ep0Step demo) s [shortSetup, .tokenIn]).map Ep0.usbDevAd = some 5 ∧
      (runs (ep0Step demo) (usbEp0Init powerOn) [shortSetup, .tokenIn]).map
        Ep0.usbDevAd = some 0 :=
  ⟨_, rfl, rfl, rfl, rfl, rfl⟩

/-! ## A bus reset -/

theorem isrStep_eq (fw : Firmware) (s : Ep0) (e : IsrEvent) :
    isrStep fw s e =
      (if e.irq.uifTransfer = true ∧ e.irq.usbIntSt &&& maskUisEndp = 0 then
        ep0Step fw s (.packet (e.irq.usbIntSt &&& maskUisToken) e.rxLen e.data)
      else some s).map fun s =>
        if e.irq.uifBusRst then usbEp0Reset s else s := by
  obtain ⟨⟨transfer, busRst, suspend, intSt⟩, rxLen, data⟩ := e
  simp only [isrStep, usbIsr, usbIsrTransfer, usbIsrTransferWith, Option.map_map]
  by_cases hendp : intSt &&& maskUisEndp = 0
  · cases transfer <;> cases busRst <;> cases suspend <;>
      simp [hendp, ep0Step, Function.comp_def]
  · cases transfer <;> cases busRst <;> cases suspend <;> simp [hendp]

theorem isrStep_alike {s t : Ep0} (h : Alike s t) (e : IsrEvent) :
    Option.Rel Alike (isrStep fw s e) (isrStep fw t e) := by
  rw [isrStep_eq, isrStep_eq]
  have hfirst : Option.Rel Alike
      (if e.irq.uifTransfer = true ∧ e.irq.usbIntSt &&& maskUisEndp = 0 then
        ep0Step fw s (.packet (e.irq.usbIntSt &&& maskUisToken) e.rxLen e.data)
      else some s)
      (if e.irq.uifTransfer = true ∧ e.irq.usbIntSt &&& maskUisEndp = 0 then
        ep0Step fw t (.packet (e.irq.usbIntSt &&& maskUisToken) e.rxLen e.data)
      else some t) := by
    split
    · exact ep0Step_alike h _
    · exact .some h
  refine rel_map hfirst ?_
  intro a b hab
  split
  · exact alike_reset a b
  · exact hab

/-- A bus reset is as good as a fresh start: after a run of the interrupt that
served one, whatever else it served, the device shows the same as one just
initialised, whatever comes. -/
theorem reset_as_fresh {s s' : Ep0} {e : IsrEvent}
    (hreset : e.irq.uifBusRst = true) (h : isrStep fw s e = some s') (s₀ : Ep0)
    (es : List IsrEvent) :
    Option.Rel Agree (runs (isrStep fw) s' es)
      (runs (isrStep fw) (usbEp0Init s₀) es) := by
  rw [isrStep_eq] at h
  obtain ⟨r, _, hr⟩ := Option.map_eq_some_iff.mp h
  rw [if_pos hreset] at hr
  subst hr
  have hstart : Alike (usbEp0Reset r) (usbEp0Init s₀) := alike_reset r _
  exact rel_mono (runs_rel (fun _ _ e h => isrStep_alike h e) hstart es)
    fun _ _ h => h.toAgree

def resetWithSetup : IsrEvent where
  irq := ⟨true, true, false, uisTokenSetup⟩
  rxLen := 8
  data := fun i => [0x00, 0x05, 0x05, 0x00, 0x00, 0x00, 0x00, 0x00].getD i 0

theorem reset_as_fresh_setup :
    ∃ s', isrStep demo (usbEp0Init powerOn) resetWithSetup = some s' ∧
      Option.Rel Agree
        (runs (isrStep demo) s' [⟨⟨true, false, false, uisTokenIn⟩, 0, fun _ => 0⟩])
        (runs (isrStep demo) (usbEp0Init powerOn)
          [⟨⟨true, false, false, uisTokenIn⟩, 0, fun _ => 0⟩]) := by
  have hsome : (isrStep demo (usbEp0Init powerOn) resetWithSetup).isSome := rfl
  obtain ⟨s', hs'⟩ := Option.isSome_iff_exists.mp hsome
  exact ⟨s', hs', reset_as_fresh rfl hs' powerOn _⟩

end Ch552e.Proofs
