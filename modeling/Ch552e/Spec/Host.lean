import Ch552e.Spec.Tree

/-!
# The host's side of a control transfer

`dataStage` is a device whose host keeps reading: INs, until the device leaves
the data stage of a configuration request. It collects the state each packet is
sent from.

`controlTransfer` is a host that follows the rules of its own. It knows what it
asked for and what it has got; it ends the data stage at a packet shorter than
64 bytes or when it has everything, and it gives up (`none`) when a token is
not answered with ACK.
-/

namespace Ch552e.Spec

open Ch552e.Lib Ch552e.Ref

/-- What a configuration request is to be answered with. -/
def answer (fw : Firmware) (tree : Tree) (p : UsbSetupPacket) : List UInt8 :=
  (tree.bytes fw).take (min p.wLength.toNat fw.wTotalLength.toNat)

def answerLength (fw : Firmware) (tree : Tree) (p : UsbSetupPacket) : Nat :=
  min (min p.wLength.toNat fw.wTotalLength.toNat) (tree.bytes fw).length

theorem length_answer (fw : Firmware) (tree : Tree) (p : UsbSetupPacket) :
    (answer fw tree p).length = answerLength fw tree p := List.length_take

/-- The packet lengths of an answer of `n` bytes to a request for `want`: full
packets, the remainder, and a zero-length packet exactly where the answer ends
on a boundary short of what was asked for. -/
def packetLengths (want n : Nat) : List Nat :=
  List.replicate (n / 64) 64 ++
    ((if n % 64 = 0 then [] else [n % 64]) ++
      if n % 64 = 0 ∧ n < want then [0] else [])

def inDataStage (s : Ep0) : Bool :=
  s.state = .sendConfigurationDescriptor || s.state = .sendConfigurationZlp

/-- INs until the data stage is over: the states the packets are sent from,
and the state after the last one. -/
def dataStage (fw : Firmware) : Nat → Ep0 → Option (List Ep0 × Ep0)
  | 0, _ => none
  | n + 1, s =>
      if inDataStage s then
        (ep0Step fw s .tokenIn).bind fun s' =>
          (dataStage fw n s').map fun (sent, last) => (s :: sent, last)
      else
        some ([], s)

/-- The data stage of a control read of `want` bytes, as the host sees it. -/
def hostRead (fw : Firmware) : Nat → Nat → Ep0 → Option (List Ep0 × Ep0)
  | 0, _, _ => none
  | n + 1, want, s =>
      if s.tRes = uepTResAck then
        (ep0Step fw s .tokenIn).bind fun s' =>
          if s.armed.length < usbEp0BufferSize ∨ want ≤ s.armed.length then
            some ([s], s')
          else
            (hostRead fw n (want - s.armed.length) s').map
              fun (sent, last) => (s :: sent, last)
      else
        none

/-- The status stage of a transfer without data: an empty DATA1. -/
def statusIn (fw : Firmware) (s : Ep0) : Option Ep0 :=
  if s.tRes = uepTResAck ∧ s.armed = [] ∧ s.tTog = true then
    ep0Step fw s .tokenIn
  else none

def statusOut (fw : Firmware) (s : Ep0) : Option Ep0 :=
  if s.rRes = uepRResAck then ep0Step fw s .statusOut else none

/-- The transfer of request `p`, from the state its SETUP left, with at most
`n` packets of data. -/
def controlTransfer (fw : Firmware) (n : Nat) (p : UsbSetupPacket) (s : Ep0) :
    Option Ep0 :=
  if p.wLength = 0 then statusIn fw s
  else (hostRead fw n p.wLength.toNat s).bind fun (_, s) => statusOut fw s

/-- Idle: no data to send, open to what comes. -/
def Ready (s : Ep0) : Prop :=
  s.state = .idle ∧ s.rRes = uepRResAck ∧ s.tRes = uepTResNak

end Ch552e.Spec
