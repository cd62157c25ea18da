import Ch552e.Spec.Control

/-!
# A host and its transfers

A host that knows of the device what the bus shows of it (`Face`) and no more. It
speaks to the address that it gave, checks the toggle of every packet, ends a data
stage at a packet shorter than 64 bytes or when it has what it asked for, and
takes note of an address or a configuration once the request's status stage is
over. There is no transfer where it is not answered like that.

Any device will do that has a face and gets through tokens. What else goes on in
it meanwhile is left open: a step is a relation.
-/

namespace Ch552e.Spec

open Ch552e.Lib Ch552e.Ref

/-- What this host puts on the bus. -/
inductive HostToken where
  | setup (p : UsbSetupPacket)
  | tokenIn
  | statusOut
  | busReset

def HostToken.event : HostToken → Ep0Event
  | .setup p => .setup p
  | .tokenIn => .tokenIn
  | .statusOut => .statusOut
  | .busReset => .busReset

/-- What is at the other end of the bus. -/
structure Peripheral (σ : Type) where
  face : σ → Face
  step : σ → HostToken → σ → Prop

/-- What a transfer comes to. -/
inductive Outcome where
  | done (bytes : List UInt8)
  | refused

/-- What the host has noted of the device. -/
structure Host where
  address : UInt8
  configuration : UInt8

def Host.fresh : Host := ⟨0, 0⟩

def Host.note (h : Host) (p : UsbSetupPacket) : Outcome → Host
  | .done _ =>
      match request p with
      | some (.setAddress a) => { h with address := a }
      | some (.setConfiguration v) => { h with configuration := v }
      | some (.getDevice _) | some (.getConfiguration _) | none => h
  | .refused => h

inductive HostCommand where
  | transfer (p : UsbSetupPacket)
  | busReset

namespace Peripheral

variable {σ : Type} (dev : Peripheral σ)

/-- An IN to `address` is answered with a packet. -/
structure Sends (address : UInt8) (s : σ) (data1 : Bool) (packet : List UInt8)
    (s' : σ) : Prop where
  addressed : (dev.face s).address = address
  reply : (dev.face s).onIn = .ack (data1, packet)
  step : dev.step s .tokenIn s'

/-- The data stage of a read of `want` bytes, from a packet that is to be DATA1 or
DATA0. -/
inductive ReadsData (address : UInt8) :
    Nat → Bool → σ → List UInt8 → σ → Prop where
  | last {want : Nat} {data1 : Bool} {s s' : σ} {packet : List UInt8}
      (hsends : dev.Sends address s data1 packet s')
      (hlast : packet.length < usbEp0BufferSize ∨ want ≤ packet.length) :
      ReadsData address want data1 s packet s'
  | more {want : Nat} {data1 : Bool} {s m s' : σ} {packet bytes : List UInt8}
      (hsends : dev.Sends address s data1 packet m)
      (hmore : ¬ (packet.length < usbEp0BufferSize ∨ want ≤ packet.length))
      (hrest : ReadsData address (want - packet.length) (!data1) m bytes s') :
      ReadsData address want data1 s (packet ++ bytes) s'

/-- What follows a SETUP. The host has no data of its own to send. -/
inductive Proceeds (address : UInt8) (p : UsbSetupPacket) (s : σ) :
    Outcome → σ → Prop where
  | refused (hin : (dev.face s).onIn = .stall) (hout : (dev.face s).onOut = .stall) :
      Proceeds address p s .refused s
  | noData {s' : σ} (hlen : p.wLength = 0)
      (hstatus : dev.Sends address s true [] s') :
      Proceeds address p s (.done []) s'
  | read {m s' : σ} {bytes : List UInt8} (hlen : p.wLength ≠ 0)
      (hdirection : p.bmRequestType &&& mreqDirectionD2h ≠ 0)
      (hdata : dev.ReadsData address p.wLength.toNat true s bytes m)
      (haddr : (dev.face m).address = address)
      (hreply : (dev.face m).onOut = .ack true)
      (hstatus : dev.step m .statusOut s') :
      Proceeds address p s (.done bytes) s'

structure Transfers (address : UInt8) (p : UsbSetupPacket) (s : σ)
    (outcome : Outcome) (s' : σ) : Prop where
  addressed : (dev.face s).address = address
  proceeds : ∃ m, dev.step s (.setup p) m ∧ dev.Proceeds address p m outcome s'

/-- One transfer after the other, with a bus reset now and then: what they come to,
and what the host has noted in the end. -/
inductive Session : Host → List HostCommand → σ → List Outcome → Host → σ → Prop where
  | nil {h : Host} {s : σ} : Session h [] s [] h s
  | busReset {h h' : Host} {cs : List HostCommand} {s m s' : σ}
      {outcomes : List Outcome} (hreset : dev.step s .busReset m)
      (hrest : Session .fresh cs m outcomes h' s') :
      Session h (.busReset :: cs) s outcomes h' s'
  | transfer {h h' : Host} {p : UsbSetupPacket} {cs : List HostCommand} {s m s' : σ}
      {outcome : Outcome} {outcomes : List Outcome}
      (htransfer : dev.Transfers h.address p s outcome m)
      (hrest : Session (h.note p outcome) cs m outcomes h' s') :
      Session h (.transfer p :: cs) s (outcome :: outcomes) h' s'

end Peripheral

/-! ## What a session comes to -/

def Descriptors.outcome (d : Descriptors) (p : UsbSetupPacket) : Outcome :=
  match request p with
  | some (.setAddress _) | some (.setConfiguration _) => .done []
  | some (.getDevice want) => .done (d.device.take want)
  | some (.getConfiguration want) => .done (d.configuration.take want)
  | none => .refused

def Descriptors.outcomes (d : Descriptors) : List HostCommand → List Outcome
  | [] => []
  | .transfer p :: cs => d.outcome p :: d.outcomes cs
  | .busReset :: cs => d.outcomes cs

/-- What the host has noted after a command. -/
def Descriptors.noted (d : Descriptors) (h : Host) : HostCommand → Host
  | .transfer p => h.note p (d.outcome p)
  | .busReset => .fresh

/-- All but the one transfer that goes wrong: no bytes of the configuration. -/
def HostCommand.sensible : HostCommand → Bool
  | .transfer p => request p ≠ some (.getConfiguration 0)
  | .busReset => true

end Ch552e.Spec
