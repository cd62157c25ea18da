import Ch552e.Proofs.Control
import Ch552e.Spec.Session

/-!
# A host gets what it asks for

Whatever the host of `Spec/Session.lean` does, transfer by transfer, it is served.
It sees nothing but the bus, so what it can do with one device it can do with any
other that shows the same and follows (`session_follows`), and it is enough to
look at the control pipe, where a data stage is a list of packets.
-/

namespace Ch552e.Proofs

open Ch552e.Lib Ch552e.Ref Ch552e.Spec

/-! ## Two devices that show the same -/

section Follow

variable {σ τ : Type} {dev : Peripheral σ} {dev' : Peripheral τ} {R : σ → τ → Prop}
  {a : UInt8} {s s' : σ} {t : τ}

/-- The second device shows what the first does, and can follow it. -/
structure FollowedBy (dev : Peripheral σ) (dev' : Peripheral τ)
    (R : σ → τ → Prop) : Prop where
  face : ∀ {s t}, R s t → dev.face s = dev'.face t
  step : ∀ {s t token s'}, R s t → dev.step s token s' →
    ∃ t', dev'.step t token t' ∧ R s' t'

theorem FollowedBy.trans {ρ : Type} {dev'' : Peripheral ρ} {S : τ → ρ → Prop}
    (h : FollowedBy dev dev' R) (h' : FollowedBy dev' dev'' S) :
    FollowedBy dev dev'' fun s r => ∃ t, R s t ∧ S t r where
  face := fun ⟨_, hst, htr⟩ => (h.face hst).trans (h'.face htr)
  step := by
    rintro s r token s' ⟨t, hst, htr⟩ hstep
    obtain ⟨t', ht', hst'⟩ := h.step hst hstep
    obtain ⟨r', hr', htr'⟩ := h'.step htr ht'
    exact ⟨r', hr', t', hst', htr'⟩

theorem sends_follows (h : FollowedBy dev dev' R) (hst : R s t) {data1 : Bool}
    {packet : List UInt8} (hs : dev.Sends a s data1 packet s') :
    ∃ t', dev'.Sends a t data1 packet t' ∧ R s' t' := by
  obtain ⟨t', hstep, hst'⟩ := h.step hst hs.step
  exact ⟨t', ⟨h.face hst ▸ hs.addressed, h.face hst ▸ hs.reply, hstep⟩, hst'⟩

theorem readsData_follows (h : FollowedBy dev dev' R) {want : Nat} {data1 : Bool}
    {bytes : List UInt8} (hs : dev.ReadsData a want data1 s bytes s')
    (hst : R s t) : ∃ t', dev'.ReadsData a want data1 t bytes t' ∧ R s' t' := by
  induction hs generalizing t with
  | last hsends hlast =>
      obtain ⟨t', ht', hst'⟩ := sends_follows h hst hsends
      exact ⟨t', .last ht' hlast, hst'⟩
  | more hsends hmore _ ih =>
      obtain ⟨n, hn, hmn⟩ := sends_follows h hst hsends
      obtain ⟨t', ht', hst'⟩ := ih hmn
      exact ⟨t', .more hn hmore ht', hst'⟩

theorem proceeds_follows (h : FollowedBy dev dev' R) (hst : R s t)
    {p : UsbSetupPacket} {outcome : Outcome} (hs : dev.Proceeds a p s outcome s') :
    ∃ t', dev'.Proceeds a p t outcome t' ∧ R s' t' := by
  cases hs with
  | refused hin hout =>
      exact ⟨t, .refused (h.face hst ▸ hin) (h.face hst ▸ hout), hst⟩
  | noData hlen hstatus =>
      obtain ⟨t', ht', hst'⟩ := sends_follows h hst hstatus
      exact ⟨t', .noData hlen ht', hst'⟩
  | read hlen hdirection hdata haddr hreply hstatus =>
      obtain ⟨n, hn, hmn⟩ := readsData_follows h hdata hst
      obtain ⟨t', ht', hst'⟩ := h.step hmn hstatus
      exact ⟨t', .read hlen hdirection hn (h.face hmn ▸ haddr) (h.face hmn ▸ hreply)
        ht', hst'⟩

theorem transfers_follows (h : FollowedBy dev dev' R) (hst : R s t)
    {p : UsbSetupPacket} {outcome : Outcome}
    (hs : dev.Transfers a p s outcome s') :
    ∃ t', dev'.Transfers a p t outcome t' ∧ R s' t' := by
  obtain ⟨m, hsetup, hproceeds⟩ := hs.proceeds
  obtain ⟨n, hn, hmn⟩ := h.step hst hsetup
  obtain ⟨t', ht', hst'⟩ := proceeds_follows h hmn hproceeds
  exact ⟨t', ⟨h.face hst ▸ hs.addressed, n, hn, ht'⟩, hst'⟩

/-- The host cannot tell them apart. -/
theorem session_follows (h : FollowedBy dev dev' R) {host host' : Host}
    {cs : List HostCommand} {outcomes : List Outcome}
    (hs : dev.Session host cs s outcomes host' s') (hst : R s t) :
    ∃ t', dev'.Session host cs t outcomes host' t' ∧ R s' t' := by
  induction hs generalizing t with
  | nil => exact ⟨t, .nil, hst⟩
  | busReset hreset _ ih =>
      obtain ⟨n, hn, hmn⟩ := h.step hst hreset
      obtain ⟨t', ht', hst'⟩ := ih hmn
      exact ⟨t', .busReset hn ht', hst'⟩
  | transfer htransfer _ ih =>
      obtain ⟨n, hn, hmn⟩ := transfers_follows h hst htransfer
      obtain ⟨t', ht', hst'⟩ := ih hmn
      exact ⟨t', .transfer hn ht', hst'⟩

end Follow

/-! ## A device that goes one way -/

section Unique

variable {σ : Type} {dev : Peripheral σ} {a : UInt8} {s s' s'' : σ}

def OneWay (dev : Peripheral σ) : Prop :=
  ∀ {s token s' s''}, dev.step s token s' → dev.step s token s'' → s' = s''

theorem sends_unique (h : OneWay dev) {data1 data1' : Bool}
    {packet packet' : List UInt8} (hs : dev.Sends a s data1 packet s')
    (hs' : dev.Sends a s data1' packet' s'') : packet = packet' ∧ s' = s'' := by
  have hreply := hs.reply.symm.trans hs'.reply
  rw [Reply.ack.injEq, Prod.mk.injEq] at hreply
  exact ⟨hreply.2, h hs.step hs'.step⟩

theorem readsData_unique (h : OneWay dev) {want : Nat} {data1 : Bool}
    {bytes bytes' : List UInt8} (hs : dev.ReadsData a want data1 s bytes s')
    (hs' : dev.ReadsData a want data1 s bytes' s'') :
    bytes = bytes' ∧ s' = s'' := by
  induction hs generalizing bytes' s'' with
  | last hsends hlast =>
      cases hs' with
      | last hsends' _ => exact sends_unique h hsends hsends'
      | more hsends' hmore _ =>
          obtain ⟨rfl, _⟩ := sends_unique h hsends hsends'
          exact absurd hlast hmore
  | more hsends hmore _ ih =>
      cases hs' with
      | last hsends' hlast =>
          obtain ⟨rfl, _⟩ := sends_unique h hsends hsends'
          exact absurd hlast hmore
      | more hsends' _ hrest =>
          obtain ⟨rfl, rfl⟩ := sends_unique h hsends hsends'
          obtain ⟨rfl, hst⟩ := ih hrest
          exact ⟨rfl, hst⟩

theorem onIn_of_readsData {want : Nat} {data1 : Bool} {bytes : List UInt8}
    (hs : dev.ReadsData a want data1 s bytes s') :
    (dev.face s).onIn ≠ .stall := by
  cases hs with
  | last hsends _ | more hsends _ _ =>
      rw [hsends.reply]
      exact fun h => nomatch h

theorem proceeds_unique (h : OneWay dev) {p : UsbSetupPacket}
    {outcome outcome' : Outcome} (hs : dev.Proceeds a p s outcome s')
    (hs' : dev.Proceeds a p s outcome' s'') : outcome = outcome' ∧ s' = s'' := by
  cases hs with
  | refused hin _ =>
      cases hs' with
      | refused _ _ => exact ⟨rfl, rfl⟩
      | noData _ hstatus => exact nomatch hin.symm.trans hstatus.reply
      | read _ _ hdata _ _ _ => exact absurd hin (onIn_of_readsData hdata)
  | noData hlen hstatus =>
      cases hs' with
      | refused hin _ => exact nomatch hin.symm.trans hstatus.reply
      | noData _ hstatus' => exact ⟨rfl, h hstatus.step hstatus'.step⟩
      | read hlen' _ _ _ _ _ => exact absurd hlen hlen'
  | read hlen _ hdata _ _ hstatus =>
      cases hs' with
      | refused hin _ => exact absurd hin (onIn_of_readsData hdata)
      | noData hlen' _ => exact absurd hlen' hlen
      | read _ _ hdata' _ _ hstatus' =>
          obtain ⟨rfl, rfl⟩ := readsData_unique h hdata hdata'
          exact ⟨rfl, h hstatus hstatus'⟩

theorem transfers_unique (h : OneWay dev) {p : UsbSetupPacket}
    {outcome outcome' : Outcome} (hs : dev.Transfers a p s outcome s')
    (hs' : dev.Transfers a p s outcome' s'') : outcome = outcome' ∧ s' = s'' := by
  obtain ⟨m, hsetup, hproceeds⟩ := hs.proceeds
  obtain ⟨m', hsetup', hproceeds'⟩ := hs'.proceeds
  obtain rfl := h hsetup hsetup'
  exact proceeds_unique h hproceeds hproceeds'

theorem session_unique (h : OneWay dev) {host host' host'' : Host}
    {cs : List HostCommand} {outcomes outcomes' : List Outcome}
    (hs : dev.Session host cs s outcomes host' s')
    (hs' : dev.Session host cs s outcomes' host'' s'') :
    outcomes = outcomes' ∧ host' = host'' ∧ s' = s'' := by
  induction hs generalizing outcomes' host'' s'' with
  | nil =>
      cases hs'
      exact ⟨rfl, rfl, rfl⟩
  | busReset hreset _ ih =>
      cases hs' with
      | busReset hreset' hrest' =>
          obtain rfl := h hreset hreset'
          exact ih hrest'
  | transfer htransfer _ ih =>
      cases hs' with
      | transfer htransfer' hrest' =>
          obtain ⟨rfl, rfl⟩ := transfers_unique h htransfer htransfer'
          obtain ⟨rfl, hsame⟩ := ih hrest'
          exact ⟨rfl, hsame⟩

end Unique

/-! ## The pipe serves the host -/

def pipe (d : Descriptors) : Peripheral Control where
  face := Control.face
  step c token c' := controlStep d c token.event = some c'

/-- What the host has noted of a device that serves it. -/
def hostOf (f : Face) : Host := ⟨f.address, f.configuration⟩

section Pipe

variable {d : Descriptors} {c : Control} {p : UsbSetupPacket}

theorem oneWay_pipe (d : Descriptors) : OneWay (pipe d) :=
  fun h h' => Option.some.inj (h.symm.trans h')

theorem pipe_setup (d : Descriptors) (c : Control) (p : UsbSetupPacket) :
    (pipe d).step c (.setup p) (c.setup d (request p)) := by
  have hok : c.face.allows (.setup p) = true := by
    simp [Ep0Event.setup, Face.allows, uisTokenSetup, uisTokenIn, uisTokenOut]
  have hstep : c.step d (.setup p) = c.setup d (request p) := by
    rw [Ep0Event.setup, Control.step, if_pos rfl, if_pos rfl, ofData_bytes]
  exact guarded_of hok (congrArg some hstep)

theorem pipe_sends (d : Descriptors) {data1 : Bool} {packet : List UInt8}
    (hreply : c.face.onIn = .ack (data1, packet)) :
    (pipe d).Sends c.address c data1 packet c.tokenIn := by
  have hok : c.face.allows .tokenIn = true := by
    simp [Ep0Event.tokenIn, Face.allows, hreply, Reply.isAck, uisTokenIn,
      uisTokenOut]
  exact ⟨rfl, hreply, guarded_of hok rfl⟩

/-- A data stage: all of it is read, packet by packet. -/
theorem pipe_readsData (d : Descriptors) (c : Control) {want : Nat}
    {packet bytes : List UInt8} {rest : List (List UInt8)} {data1 first : Bool}
    (hstage : c.stage = .reading packet data1 rest first)
    (hpackets : packets usbEp0BufferSize want bytes = packet :: rest)
    (hle : bytes.length ≤ want) (hpos : 0 < want) :
    (pipe d).ReadsData c.address want data1 c bytes
      { c with stage := .statusOut } := by
  have hsize : usbEp0BufferSize = 64 := rfl
  have hnext : c.tokenIn = { c with stage := .next data1 rest } := by
    simp only [Control.tokenIn, hstage]
  have hreply : c.face.onIn = .ack (data1, packet) := by
    simp only [Control.face, hstage]
  have hsends := pipe_sends d hreply
  rw [hnext] at hsends
  by_cases hlast : bytes.length < usbEp0BufferSize ∨ want ≤ usbEp0BufferSize
  · rw [packets_of_last (by decide) hpos hle hlast] at hpackets
    obtain ⟨rfl, rfl⟩ := List.cons.inj hpackets
    exact .last hsends (by omega)
  · have hfull : usbEp0BufferSize ≤ bytes.length := by omega
    have hmore : usbEp0BufferSize < want := by omega
    rw [packets_of_more (by decide) hfull hmore] at hpackets
    obtain ⟨rfl, hrest⟩ := List.cons.inj hpackets
    have hlen : (bytes.take usbEp0BufferSize).length = usbEp0BufferSize := by
      rw [List.length_take]
      omega
    have hdrop : (bytes.drop usbEp0BufferSize).length ≤ want - usbEp0BufferSize := by
      rw [List.length_drop]
      omega
    cases rest with
    | nil => exact absurd hrest (packets_ne_nil (by decide) (by omega) hdrop)
    | cons q qs =>
        have hmoreData := pipe_readsData d
          { c with stage := .next data1 (q :: qs) } rfl hrest hdrop (by omega)
        rw [← hlen] at hmoreData
        have hall := Peripheral.ReadsData.more hsends (by omega) hmoreData
        rw [hlen, List.take_append_drop] at hall
        exact hall
termination_by want
decreasing_by omega

theorem pipe_noData (d : Descriptors) (hlen : p.wLength = 0)
    (hreply : c.face.onIn = .ack (true, [])) :
    (pipe d).Proceeds c.address p c (.done []) c.tokenIn :=
  .noData hlen (pipe_sends d hreply)

theorem pipe_read (d : Descriptors) (c : Control) {bytes : List UInt8}
    (hget : isGetDescriptor p = true) (hlen : p.wLength ≠ 0)
    (hle : bytes.length ≤ p.wLength.toNat) :
    (pipe d).Proceeds c.address p
      (c.read (packets usbEp0BufferSize p.wLength.toNat bytes)) (.done bytes)
      { c with stage := .idle } := by
  have hpos := word_pos hlen
  have hdirection : p.bmRequestType &&& mreqDirectionD2h ≠ 0 := by
    simp only [isGetDescriptor, Bool.and_eq_true, decide_eq_true_eq] at hget
    rw [hget.1.1.1]
    decide
  cases hpackets : packets usbEp0BufferSize p.wLength.toNat bytes with
  | nil => exact absurd hpackets (packets_ne_nil (by decide) hpos hle)
  | cons packet rest =>
      have hdata := pipe_readsData d (c.read (packet :: rest)) rfl hpackets hle hpos
      exact .read hlen hdirection hdata rfl rfl rfl

/-- The host is served: it gets what the request is for, and its note is right. -/
def Serviced (d : Descriptors) (c : Control) (p : UsbSetupPacket) : Prop :=
  ∃ c', (pipe d).Transfers c.address p c (d.outcome p) c' ∧
    hostOf c'.face = (hostOf c.face).note p (d.outcome p)

theorem serviced_of {m c' : Control} {outcome : Outcome}
    (hout : d.outcome p = outcome) (hsetup : c.setup d (request p) = m)
    (hgo : (pipe d).Proceeds c.address p m outcome c')
    (hnote : hostOf c'.face = (hostOf c.face).note p outcome) :
    Serviced d c p := by
  subst hout hsetup
  exact ⟨c', ⟨rfl, _, pipe_setup d c p, hgo⟩, hnote⟩

theorem serviced_address (h : isSetAddress p = true) : Serviced d c p := by
  have hreq := request_address h
  have hgo := pipe_noData d (c := { c with stage := .addressing p.wValueL })
    (wLength_of_setAddress h) rfl
  refine serviced_of (by rw [Descriptors.outcome, hreq]) (by rw [hreq]; rfl) hgo ?_
  rw [Host.note, hreq]
  rfl

theorem serviced_setConfiguration (h : isSetConfiguration p = true) :
    Serviced d c p := by
  have hreq := request_setConfiguration h
  have hgo := pipe_noData d (c := { c with stage := .configuring p.wValueL })
    (wLength_of_setConfiguration h) rfl
  refine serviced_of (by rw [Descriptors.outcome, hreq]) (by rw [hreq]; rfl) hgo ?_
  rw [Host.note, hreq]
  rfl

theorem serviced_device (h : isGetDeviceDescriptor p = true) : Serviced d c p := by
  have hreq := request_device h
  have hout : d.outcome p = .done (d.device.take p.wLength.toNat) := by
    rw [Descriptors.outcome, hreq]
  have hnote : hostOf c.face =
      (hostOf c.face).note p (.done (d.device.take p.wLength.toNat)) := by
    rw [Host.note, hreq]
  by_cases hlen : p.wLength = 0
  · -- the one packet of an empty data stage passes for the status stage
    have hzero : p.wLength.toNat = 0 := by rw [hlen]; rfl
    rw [hzero, List.take_zero] at hout hnote
    have hgo := pipe_noData d (c := c.read [[]]) hlen rfl
    refine serviced_of hout ?_ hgo hnote
    rw [hreq, hzero]
    rfl
  · have hle := List.length_take_le p.wLength.toNat d.device
    have hgo := pipe_read d c (getDevice_iff.mp h).1 hlen hle
    refine serviced_of hout ?_ hgo hnote
    rw [hreq, Control.setup, if_neg (Nat.pos_iff_ne_zero.mp (word_pos hlen))]
    rfl

theorem serviced_configuration (h : isGetConfigurationDescriptor p = true)
    (hlen : p.wLength ≠ 0) : Serviced d c p := by
  have hreq := request_configuration h
  have hle := List.length_take_le p.wLength.toNat d.configuration
  have hgo := pipe_read d c (getConfiguration_iff.mp h).1 hlen hle
  refine serviced_of (by rw [Descriptors.outcome, hreq]) (by rw [hreq]; rfl) hgo ?_
  rw [Host.note, hreq]
  rfl

theorem serviced_refused (h : accepts p = false) : Serviced d c p := by
  have hreq := request_rejected h
  have hgo : (pipe d).Proceeds c.address p { c with stage := .stalled } .refused
      { c with stage := .stalled } := .refused rfl rfl
  exact serviced_of (by rw [Descriptors.outcome, hreq]) (by rw [hreq]; rfl) hgo rfl

theorem pipe_serves (d : Descriptors) (c : Control)
    (hsensible : request p ≠ some (.getConfiguration 0)) : Serviced d c p := by
  rcases accepts_cases p with ha | hd | hc | hset | hno
  · exact serviced_address ha
  · exact serviced_device hd
  · refine serviced_configuration hc fun hlen => hsensible ?_
    rw [request_configuration hc, hlen]
    rfl
  · exact serviced_setConfiguration hset
  · exact serviced_refused hno

/-- No bytes of the configuration: the device waits for an OUT, and the host, which
has nothing to read, for the answer to an IN. -/
theorem pipe_stuck (d : Descriptors) {a : UInt8} {outcome : Outcome}
    {c' : Control} (h : request p = some (.getConfiguration 0)) :
    ¬ (pipe d).Transfers a p c outcome c' := by
  intro htransfer
  obtain ⟨m, hsetup, hproceeds⟩ := htransfer.proceeds
  obtain rfl := oneWay_pipe d hsetup (pipe_setup d c p)
  have hread : c.setup d (request p) = { c with stage := .statusOut } := by
    rw [h, Control.setup, packetsFor, List.take_zero]
    rfl
  have hnak : ((pipe d).face (c.setup d (request p))).onIn = .nak := by
    rw [hread]
    rfl
  cases hproceeds with
  | refused hin _ => cases hnak.symm.trans hin
  | noData _ hstatus => cases hnak.symm.trans hstatus.reply
  | read _ _ hdata _ _ _ =>
      cases hdata with
      | last hsends _ | more hsends _ _ => cases hnak.symm.trans hsends.reply

theorem pipe_session (d : Descriptors) (c : Control) {cs : List HostCommand}
    (hsensible : cs.all HostCommand.sensible = true) :
    ∃ c', (pipe d).Session (hostOf c.face) cs c (d.outcomes cs)
        (cs.foldl d.noted (hostOf c.face)) c' ∧
      hostOf c'.face = cs.foldl d.noted (hostOf c.face) := by
  induction cs generalizing c with
  | nil => exact ⟨c, .nil, rfl⟩
  | cons command cs ih =>
      rw [List.all_cons, Bool.and_eq_true] at hsensible
      cases command with
      | busReset =>
          obtain ⟨c', hrest, hnote⟩ := ih .fresh hsensible.2
          exact ⟨c', .busReset rfl hrest, hnote⟩
      | transfer p =>
          have hp : request p ≠ some (.getConfiguration 0) := by
            simpa [HostCommand.sensible] using hsensible.1
          obtain ⟨m, htransfer, hm⟩ := pipe_serves d c hp
          obtain ⟨c', hrest, hnote⟩ := ih m hsensible.2
          rw [hm] at hrest hnote
          exact ⟨c', .transfer htransfer hrest, hnote⟩

theorem sensible_of_session {host host' : Host} {cs : List HostCommand}
    {outcomes : List Outcome} {c' : Control}
    (h : (pipe d).Session host cs c outcomes host' c') :
    cs.all HostCommand.sensible = true := by
  induction h with
  | nil => rfl
  | busReset _ _ ih => rw [List.all_cons, ih]; rfl
  | @transfer _ _ p _ _ _ _ _ _ htransfer _ ih =>
      have hp : request p ≠ some (.getConfiguration 0) :=
        fun hreq => pipe_stuck d hreq htransfer
      rw [List.all_cons, ih, HostCommand.sensible, decide_eq_true hp]
      rfl

end Pipe

/-! ## Whoever shows the pipe serves the host -/

/-- The host gets through a session exactly when it is sensible, and then with the
outcomes it is to have and its notes right. -/
structure ServesHost {σ : Type} (dev : Peripheral σ) (d : Descriptors) (s : σ)
    (cs : List HostCommand) : Prop where
  through : cs.all HostCommand.sensible = true ↔
    ∃ outcomes host s', dev.Session (hostOf (dev.face s)) cs s outcomes host s'
  served : ∀ outcomes host s',
    dev.Session (hostOf (dev.face s)) cs s outcomes host s' →
      outcomes = d.outcomes cs ∧ host = cs.foldl d.noted (hostOf (dev.face s)) ∧
        hostOf (dev.face s') = host

theorem servesHost_of_pipe {σ : Type} {dev : Peripheral σ} {d : Descriptors}
    {R : σ → Control → Prop} {R' : Control → σ → Prop} {s : σ} {c : Control}
    (hdown : FollowedBy dev (pipe d) R) (hup : FollowedBy (pipe d) dev R')
    (hsc : R s c) (hcs : R' c s) (cs : List HostCommand) : ServesHost dev d s cs := by
  have hface : dev.face s = c.face := hdown.face hsc
  have hpipe : ∀ outcomes host s',
      dev.Session (hostOf (dev.face s)) cs s outcomes host s' →
        cs.all HostCommand.sensible = true ∧ outcomes = d.outcomes cs ∧
          host = cs.foldl d.noted (hostOf (dev.face s)) ∧
          hostOf (dev.face s') = host := by
    intro outcomes host s' hsession
    obtain ⟨t', ht', hst'⟩ := session_follows hdown hsession hsc
    have hsensible := sensible_of_session ht'
    obtain ⟨c', hc', hnote⟩ := pipe_session d c hsensible
    rw [hface] at ht' ⊢
    obtain ⟨rfl, rfl, rfl⟩ := session_unique (oneWay_pipe d) ht' hc'
    have hface' : dev.face s' = t'.face := hdown.face hst'
    exact ⟨hsensible, rfl, rfl, hface' ▸ hnote⟩
  refine ⟨⟨fun hsensible => ?_, fun ⟨outcomes, host, s', hsession⟩ =>
    (hpipe outcomes host s' hsession).1⟩, fun outcomes host s' hsession =>
      (hpipe outcomes host s' hsession).2⟩
  obtain ⟨c', hc', _⟩ := pipe_session d c hsensible
  obtain ⟨s', hs', _⟩ := session_follows hup hc' hcs
  exact ⟨_, _, s', hface ▸ hs'⟩

/-! ## Endpoint 0 -/

def endpoint0 (fw : Firmware) : Peripheral Ep0 where
  face := faceOf
  step s token s' := guarded responds (ep0Step fw) s token.event = some s'

section Endpoint

variable {fw : Firmware} {tree : Tree} {s₀ s : Ep0} {es : List Ep0Event}

/-- For every program whose hooks describe a tree and whose device descriptor is
shorter than a packet, and whatever has been on the bus: a host that follows the
rules and sees only the bus gets through any session of transfers and resets, if
only it never asks for no bytes of the configuration; each request has the outcome
it is to have, the descriptors are read as they are, and the device has the address
and the configuration that the host gave it last. -/
theorem endpoint0_serves_host (hs : Serves fw tree)
    (hdev : (fw.code fw.usbGetDeviceDescriptor).toNat < usbEp0BufferSize)
    (h : runs (guarded responds (ep0Step fw)) (usbEp0Init s₀) es = some s)
    (cs : List HostCommand) :
    ServesHost (endpoint0 fw) (descriptors fw tree) s cs := by
  obtain ⟨c, _, hc⟩ := rel_left (presents_runs hs hdev s₀ es) h
  have hdown : FollowedBy (endpoint0 fw) (pipe (descriptors fw tree))
      (Presents fw tree) :=
    ⟨fun hsc => hsc.face, fun hsc hstep =>
      rel_left (presents_step hs hdev hsc _) hstep⟩
  have hup : FollowedBy (pipe (descriptors fw tree)) (endpoint0 fw)
      fun c s => Presents fw tree s c :=
    ⟨fun hsc => hsc.face.symm, fun hsc hstep =>
      rel_left (rel_swap (presents_step hs hdev hsc _)) hstep⟩
  exact servesHost_of_pipe hdown hup hc hc cs

/-- How an operating system begins: the device descriptor, a reset, an address, all
descriptors, a string that there is not, and a configuration. -/
def demoSession : List HostCommand :=
  [.transfer (readDevice 64), .busReset,
    .transfer (packetOf [0x00, 0x05, 0x07, 0x00, 0x00, 0x00, 0x00, 0x00]),
    .transfer (readDevice 18), .transfer (readConfiguration 255),
    .transfer (packetOf [0x80, 0x06, 0x00, 0x03, 0x00, 0x00, 0xff, 0x00]),
    .transfer (packetOf [0x00, 0x09, 0x01, 0x00, 0x00, 0x00, 0x00, 0x00])]

theorem endpoint0_serves_host_demo :
    (descriptors demo demoTree).outcomes demoSession =
        [.done deviceDescriptor, .done [], .done deviceDescriptor,
          .done (configurationDescriptor ++ interfaceDescriptor), .refused,
          .done []] ∧
      demoSession.foldl (descriptors demo demoTree).noted .fresh = ⟨7, 1⟩ ∧
      ∃ s, runs (guarded responds (ep0Step demo)) (usbEp0Init powerOn)
          [.setup (readConfiguration 9)] = some s ∧
        ServesHost (endpoint0 demo) (descriptors demo demoTree) s demoSession := by
  have hsome : (runs (guarded responds (ep0Step demo)) (usbEp0Init powerOn)
      [.setup (readConfiguration 9)]).isSome := rfl
  obtain ⟨s, hs⟩ := Option.isSome_iff_exists.mp hsome
  exact ⟨rfl, rfl, s, hs,
    endpoint0_serves_host demo_serves (by decide) hs demoSession⟩

end Endpoint

end Ch552e.Proofs
