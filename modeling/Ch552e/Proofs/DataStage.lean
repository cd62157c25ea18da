import Ch552e.Lib.Framing
import Ch552e.Proofs.Steps
import Ch552e.Proofs.Stream
import Ch552e.Ref.Main
import Mathlib.Data.List.Iterate

/-!
# The data stage of a configuration request

`Streaming` is the invariant between two INs: the packet in the buffer is the
head of what is still due, and the stream is due the rest. `Answers` is what
the data stage amounts to from such a state: the packets are the framing of
what is due (`Lib.packets`), the toggle alternates, and both the device and a
host that counts for itself stop at the same packet.

The induction is on what is due, one packet at a time. The source decides the
end of the stage in four places; they are the ways `Lib.packets` ends.
-/

namespace Ch552e.Proofs

open Ch552e.Lib Ch552e.Ref Ch552e.Spec

variable {fw : Firmware} {tree : Tree}

/-- Between two INs: `bytes` are left of the answer, the packet in the buffer
included, and the host still wants `want`. -/
structure Streaming (fw : Firmware) (tree : Tree) (s : Ep0) (want : Nat)
    (bytes : List UInt8) : Prop where
  state : s.state = .sendConfigurationDescriptor
  ack : s.tRes = uepTResAck
  armed : s.armed = bytes.take usbEp0BufferSize
  rest : due fw tree s.arms = bytes.drop usbEp0BufferSize
  request : s.arms.requestRemaining.toNat = want - s.uep0TLen.toNat
  le : bytes.length ≤ want
  pos : 0 < want
  tracks : Tracks tree s.arms

/-- What the data stage from `s` sends and leaves, on `n` units of fuel. -/
structure Answers (fw : Firmware) (n : Nat) (s : Ep0) (want : Nat)
    (bytes : List UInt8) (sent : List Ep0) (last : Ep0) : Prop where
  stage : dataStage fw n s = some (sent, last)
  read : hostRead fw n want s = some (sent, last)
  armed : sent.map Ep0.armed = packets usbEp0BufferSize want bytes
  ack : ∀ t ∈ sent, t.tRes = uepTResAck
  inStage : ∀ t ∈ sent, inDataStage t = true
  toggle : sent.map Ep0.tTog = List.iterate not s.tTog sent.length
  finished : ∃ t, last = awaitStatusOut t

theorem length_armed (s : Ep0) : s.armed.length = s.uep0TLen.toNat :=
  length_slice _ _ _

theorem answers_last {s t : Ep0} {want : Nat} {bytes : List UInt8}
    (hstage : inDataStage s = true) (hack : s.tRes = uepTResAck)
    (hstep : ep0Step fw s .tokenIn = some (awaitStatusOut t))
    (harmed : s.armed = bytes) (hpos : 0 < want) (hle : bytes.length ≤ want)
    (hlast : bytes.length < usbEp0BufferSize ∨ want ≤ usbEp0BufferSize) :
    Answers fw 2 s want bytes [s] (awaitStatusOut t) := by
  have hout : inDataStage (awaitStatusOut t) = false := rfl
  refine ⟨?_, ?_, ?_, ?_, ?_, rfl, t, rfl⟩
  · simp [dataStage, hstage, hstep, hout]
  · simp only [hostRead, hack, hstep, harmed, Option.bind_some, if_true]
    exact if_pos (by omega)
  · rw [packets_of_last (by decide) hpos hle hlast, List.map_singleton, harmed]
  · simpa using hack
  · simpa using hstage

/-- A packet that is not the last: full, and followed by the answer to the
rest. -/
theorem answers_more {n : Nat} {s s' last : Ep0} {want : Nat}
    {bytes : List UInt8} {sent : List Ep0}
    (hstage : inDataStage s = true) (hack : s.tRes = uepTResAck)
    (hstep : ep0Step fw s .tokenIn = some s') (htog : s'.tTog = !s.tTog)
    (harmed : s.armed = bytes.take usbEp0BufferSize)
    (hfull : usbEp0BufferSize ≤ bytes.length) (hmore : usbEp0BufferSize < want)
    (h : Answers fw n s' (want - usbEp0BufferSize)
      (bytes.drop usbEp0BufferSize) sent last) :
    Answers fw (n + 1) s want bytes (s :: sent) last := by
  have hlen : s.armed.length = usbEp0BufferSize := by
    rw [harmed, List.length_take]
    omega
  refine ⟨?_, ?_, ?_, ?_, ?_, ?_, h.finished⟩
  · simp [dataStage, hstage, hstep, h.stage]
  · simp only [hostRead, hack, hstep, hlen, Option.bind_some, if_true]
    rw [if_neg (by omega), h.read]
    rfl
  · rw [List.map_cons, h.armed, harmed,
      packets_of_more (by decide) hfull hmore]
  · simpa [hack] using h.ack
  · simpa [hstage] using h.inStage
  · rw [List.map_cons, h.toggle, htog]
    rfl

theorem zlp_answers {s : Ep0} {want : Nat}
    (hstate : s.state = .sendConfigurationZlp) (hack : s.tRes = uepTResAck)
    (hlen : s.uep0TLen = 0) (hpos : 0 < want) :
    Answers fw 2 s want [] [s] (awaitStatusOut s) := by
  refine answers_last (by simp [inDataStage, hstate]) hack ?_ ?_ hpos
    (Nat.zero_le _) (.inl (by decide))
  · rw [Ep0Event.tokenIn, ep0Step_in, usbEp0HandleIn, hstate]
  · rw [Ep0.armed, hlen]
    rfl

theorem Streaming.answers (hs : Serves fw tree) {s : Ep0} {want : Nat}
    {bytes : List UInt8} (h : Streaming fw tree s want bytes) :
    ∃ n sent last, Answers fw n s want bytes sent last := by
  have hstage : inDataStage s = true := by simp [inDataStage, h.state]
  have harmed := congrArg List.length h.armed
  rw [length_armed, List.length_take] at harmed
  have hle := h.le
  have hreqNat := h.request
  have hsize : usbEp0BufferSize = 64 := rfl
  by_cases hreq : s.arms.requestRemaining = 0
  · -- everything asked for is in this packet
    rw [hreq, UInt16.toNat_zero] at hreqNat
    have hstep : ep0Step fw s .tokenIn = some (awaitStatusOut s) :=
      handleIn_complete h.state hreq
    refine ⟨2, _, _, answers_last hstage h.ack hstep ?_ h.pos h.le (.inr ?_)⟩
    · rw [h.armed, List.take_of_length_le (by omega)]
    · omega
  · have hreqPos := word_pos hreq
    obtain ⟨length, s', hprep, hdel⟩ :=
      usbEp0PrepareDescriptor_serves hs h.state h.tracks
    have hctrl : s'.uep0Ctrl = s.uep0Ctrl := by rw [hdel.frame]
    have htog : s'.tTog = s.tTog := by rw [Ep0.tTog, Ep0.tTog, hctrl]
    have hstep := handleIn_prepare h.state hreq hprep
    rw [← ep0Step_in fw 0 (fun _ => 0) s] at hstep
    have hdlen := congrArg List.length hdel.bytes
    rw [length_slice, h.rest, List.length_take, List.length_drop] at hdlen
    by_cases hzero : length = 0
    · -- nothing follows: a zero-length packet if this one was full
      have hz : length.toNat = 0 := by rw [hzero]; rfl
      rw [if_pos hzero] at hstep
      by_cases hfull : s.uep0TLen.toNat = usbEp0BufferSize
      · rw [if_pos hfull] at hstep
        have hnil : bytes.drop usbEp0BufferSize = [] :=
          List.drop_eq_nil_of_le (by omega)
        obtain ⟨hflip, hack⟩ := armNext_ctrl .sendConfigurationZlp 0 htog
        have hmore : usbEp0BufferSize < want := by omega
        have hzlp : Answers fw 2 (armNext .sendConfigurationZlp 0 s')
            (want - usbEp0BufferSize) [] _ _ :=
          zlp_answers rfl hack rfl (by omega)
        rw [← hnil] at hzlp
        exact ⟨_, _, _, answers_more hstage h.ack hstep hflip h.armed (by omega)
          hmore hzlp⟩
      · rw [if_neg hfull] at hstep
        refine ⟨2, _, _,
          answers_last hstage h.ack hstep ?_ h.pos h.le (.inl ?_)⟩
        · rw [h.armed, List.take_of_length_le (by omega)]
        · omega
    · -- another packet with data
      have hpos := byte_pos hzero
      rw [if_neg hzero] at hstep
      have hlong : usbEp0BufferSize < bytes.length := by omega
      obtain ⟨hflip, hack⟩ := armNext_ctrl s'.state length htog
      have hnext : Streaming fw tree (armNext s'.state length s')
          (want - usbEp0BufferSize) (bytes.drop usbEp0BufferSize) := by
        refine ⟨?_, hack, ?_, ?_, ?_, ?_, by omega, hdel.tracks⟩
        · rw [hdel.frame]
          exact h.state
        · rw [← h.rest]
          exact hdel.bytes
        · rw [← h.rest]
          exact hdel.rest
        · have hr := hdel.request
          rw [hreqNat] at hr
          change s'.arms.requestRemaining.toNat =
            want - usbEp0BufferSize - length.toNat
          omega
        · rw [List.length_drop]
          omega
      obtain ⟨n, sent, last, hans⟩ := hnext.answers hs
      exact ⟨n + 1, _, _, answers_more hstage h.ack hstep hflip h.armed
        (by omega) (by omega) hans⟩
termination_by bytes.length
decreasing_by
  rw [List.length_drop]
  have : usbEp0BufferSize = 64 := rfl
  omega

/-! ## From the SETUP on -/

theorem ep0Step_setup_packet (fw : Firmware) (p : UsbSetupPacket) (s : Ep0) :
    ∃ r, ep0Step fw s (.setup p) =
      (usbEp0HandleSetup fw p r).map answerSetup := by
  refine ⟨received fw (fun i => if h : i < 8 then p.bytes ⟨i, h⟩ else 0) s, ?_⟩
  rw [Ep0Event.setup, ep0Step_setup, ofData_bytes]

/-- The state a configuration request leaves is between two INs, with the
whole answer to go. -/
theorem streaming_start (hs : Serves fw tree) {p : UsbSetupPacket}
    (hp : isGetConfigurationDescriptor p = true) (hlen : p.wLength ≠ 0)
    (s₀ : Ep0) :
    ∃ s₁, ep0Step fw s₀ (.setup p) = some s₁ ∧ s₁.tTog = true ∧
      Streaming fw tree s₁ p.wLength.toNat (answer fw tree p) := by
  obtain ⟨r, hstep⟩ := ep0Step_setup_packet fw p s₀
  rw [handleSetup_stream fw r hp hlen] at hstep
  obtain ⟨hdue, htracks⟩ := startConfigStream_serves hs p r
  obtain ⟨length, s', hprep, hdel⟩ := usbEp0PrepareDescriptor_serves hs
    (s := startConfigStream fw p r) rfl htracks
  rw [hprep] at hstep
  refine ⟨armFirst s'.state length s', hstep, (armFirst_ctrl ..).1, ?_⟩
  have hbytes := hdel.bytes
  have hrest := hdel.rest
  rw [hdue] at hbytes hrest
  refine ⟨?_, (armFirst_ctrl ..).2.1, hbytes, hrest, hdel.request, ?_, ?_,
    hdel.tracks⟩
  · change s'.state = _
    rw [hdel.frame]
    rfl
  · rw [answer, List.length_take]
    omega
  · exact word_pos hlen

theorem setup_answers (hs : Serves fw tree) {p : UsbSetupPacket}
    (hp : isGetConfigurationDescriptor p = true) (hlen : p.wLength ≠ 0)
    (s₀ : Ep0) :
    ∃ s₁ n sent last, ep0Step fw s₀ (.setup p) = some s₁ ∧ s₁.tTog = true ∧
      Answers fw n s₁ p.wLength.toNat (answer fw tree p) sent last := by
  obtain ⟨s₁, hstep, htog, hstream⟩ := streaming_start hs hp hlen s₀
  obtain ⟨n, sent, last, hans⟩ := hstream.answers hs
  exact ⟨s₁, n, sent, last, hstep, htog, hans⟩

/-- The configuration stream sends the flattened tree: every byte that was
asked for and is there, once and in order. -/
theorem dataStage_sends_tree (hs : Serves fw tree) {p : UsbSetupPacket}
    (hp : isGetConfigurationDescriptor p = true) (hlen : p.wLength ≠ 0)
    (s₀ : Ep0) :
    ∃ s₁ n sent last, ep0Step fw s₀ (.setup p) = some s₁ ∧
      dataStage fw n s₁ = some (sent, last) ∧
      (sent.map Ep0.armed).flatten =
        (tree.bytes fw).take (min p.wLength.toNat fw.wTotalLength.toNat) := by
  obtain ⟨s₁, n, sent, last, hstep, _, hans⟩ := setup_answers hs hp hlen s₀
  refine ⟨s₁, n, sent, last, hstep, hans.stage, ?_⟩
  rw [hans.armed, flatten_packets (by decide)]
  rfl

theorem dataStage_sends_tree_serial :
    (serialTree.bytes serial).length = 67 ∧ serial.wTotalLength.toNat = 67 ∧
      ∃ s₁ n sent last,
        ep0Step serial powerOn (.setup (readConfiguration 255)) = some s₁ ∧
        dataStage serial n s₁ = some (sent, last) ∧
        (sent.map Ep0.armed).flatten = (serialTree.bytes serial).take
          (min (readConfiguration 255).wLength.toNat serial.wTotalLength.toNat) :=
  ⟨by decide, by decide,
    dataStage_sends_tree serial_serves (by decide) (by decide) powerOn⟩

theorem iterate_not (i : Nat) : not^[i] true = decide (i % 2 = 0) := by
  induction i with
  | zero => rfl
  | succ i ih =>
      rw [Function.iterate_succ_apply', ih, ← decide_not]
      exact decide_eq_decide.mpr (by omega)

/-- The framing of the data stage is the one USB prescribes. The packets
alternate from DATA1, and the IN after the last one, no earlier one, ends the
stage. -/
theorem dataStage_framing (hs : Serves fw tree) {p : UsbSetupPacket}
    (hp : isGetConfigurationDescriptor p = true) (hlen : p.wLength ≠ 0)
    (s₀ : Ep0) :
    ∃ s₁ k sent last, ep0Step fw s₀ (.setup p) = some s₁ ∧
      dataStage fw k s₁ = some (sent, last) ∧
      sent.map (fun t => t.uep0TLen.toNat) =
        packetLengths p.wLength.toNat (answerLength fw tree p) ∧
      (∀ i (h : i < sent.length), sent[i].tTog = decide (i % 2 = 0)) ∧
      (∀ t ∈ sent, t.uep0TLen.toNat ≤ 64 ∧ t.tRes = uepTResAck ∧
        t.state ≠ .waitStatusOut) ∧
      last.state = .waitStatusOut ∧ last.tRes = uepTResNak ∧
      last.rRes = uepRResAck ∧ last.rTog = true := by
  obtain ⟨s₁, k, sent, last, hstep, htog, hans⟩ := setup_answers hs hp hlen s₀
  have hlengths : sent.map (fun t => t.uep0TLen.toNat) =
      (packets usbEp0BufferSize p.wLength.toNat (answer fw tree p)).map
        List.length := by
    rw [← hans.armed, List.map_map]
    exact List.map_congr_left fun t _ => (length_armed t).symm
  refine ⟨s₁, k, sent, last, hstep, hans.stage, ?_, ?_, ?_, ?_⟩
  · rw [hlengths, map_length_packets, length_answer]
    rfl
  · intro i hi
    have htogs := hans.toggle
    rw [htog] at htogs
    have hget := congrArg (fun l => l[i]?) htogs
    simp only [List.getElem?_map, List.getElem?_eq_getElem hi, Option.map_some,
      List.getElem?_iterate _ _ _ _ hi, iterate_not, Option.some.injEq] at hget
    exact hget
  · intro t ht
    have hstage := hans.inStage t ht
    refine ⟨?_, hans.ack t ht, fun hw => by simp [inDataStage, hw] at hstage⟩
    have hmem : t.uep0TLen.toNat ∈ sent.map (fun t => t.uep0TLen.toNat) :=
      List.mem_map_of_mem ht
    rw [hlengths] at hmem
    obtain ⟨q, hq, hlenq⟩ := List.mem_map.mp hmem
    rw [← hlenq]
    exact length_le_of_mem_packets (by decide) hq
  · obtain ⟨t, rfl⟩ := hans.finished
    exact ⟨rfl, awaitStatusOut_ctrl t⟩

theorem dataStage_framing_serial :
    packetLengths (readConfiguration 255).wLength.toNat
        (answerLength serial serialTree (readConfiguration 255)) = [64, 3] ∧
      ∃ s₁ k sent last,
        ep0Step serial powerOn (.setup (readConfiguration 255)) = some s₁ ∧
        dataStage serial k s₁ = some (sent, last) ∧
        sent.map (fun t => t.uep0TLen.toNat) =
          packetLengths (readConfiguration 255).wLength.toNat
            (answerLength serial serialTree (readConfiguration 255)) ∧
        (∀ i (h : i < sent.length), sent[i].tTog = decide (i % 2 = 0)) ∧
        (∀ t ∈ sent, t.uep0TLen.toNat ≤ 64 ∧ t.tRes = uepTResAck ∧
          t.state ≠ .waitStatusOut) ∧
        last.state = .waitStatusOut ∧ last.tRes = uepTResNak ∧
        last.rRes = uepRResAck ∧ last.rTog = true :=
  ⟨by decide, dataStage_framing serial_serves (by decide) (by decide) powerOn⟩

end Ch552e.Proofs
