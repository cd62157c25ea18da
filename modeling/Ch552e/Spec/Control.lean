import Ch552e.Lib.Framing
import Ch552e.Spec.Host

/-!
# The control pipe

What endpoint 0 is to a host, without registers, without a descriptor walk and
without storage: a device address, a configuration, and a stage. A data stage is
the list of packets that are still to be read. The device behind the pipe is two
byte strings, its descriptors.

Where the code takes a liberty, so does the pipe. It takes an OUT while it waits
for the first IN after a SETUP, and during a data stage what comes with it lands
in the packet to be sent; and of the two GET_DESCRIPTOR requests for no bytes one
has an empty data stage and the other none.
-/

namespace Ch552e.Spec

open Ch552e.Lib Ch552e.Ref

inductive Request where
  | setAddress (address : UInt8)
  | setConfiguration (value : UInt8)
  | getDevice (want : Nat)
  | getConfiguration (want : Nat)
deriving DecidableEq

/-- What an accepted SETUP asks for. -/
def request (p : UsbSetupPacket) : Option Request :=
  if isSetAddress p then some (.setAddress p.wValueL)
  else if isGetDeviceDescriptor p then some (.getDevice p.wLength.toNat)
  else if isGetConfigurationDescriptor p then
    some (.getConfiguration p.wLength.toNat)
  else if isSetConfiguration p then some (.setConfiguration p.wValueL)
  else none

/-- What the device has to say of itself. -/
structure Descriptors where
  device : List UInt8
  configuration : List UInt8

/-- The device descriptor, and the flattened tree as far as `wTotalLength`. -/
def descriptors (fw : Firmware) (tree : Tree) : Descriptors where
  device := Descriptor.bytes fw
    ⟨fw.usbGetDeviceDescriptor, fw.code fw.usbGetDeviceDescriptor⟩
  configuration := (tree.bytes fw).take fw.wTotalLength.toNat

inductive Stage where
  | idle
  | stalled
  /-- An empty packet is to be read, and then the request takes effect. -/
  | addressing (address : UInt8)
  | configuring (value : UInt8)
  /-- A packet is to be read, as DATA1 or DATA0, and then the rest. -/
  | reading (packet : List UInt8) (data1 : Bool) (rest : List (List UInt8))
    (first : Bool)
  | statusOut

structure Control where
  address : UInt8
  configuration : UInt8
  stage : Stage

/-- After a bus reset. -/
def Control.fresh : Control := ⟨0, 0, .idle⟩

/-! ## Events -/

def Control.read (c : Control) : List (List UInt8) → Control
  | [] => { c with stage := .statusOut }
  | p :: ps => { c with stage := .reading p true ps true }

def packetsFor (want : Nat) (bytes : List UInt8) : List (List UInt8) :=
  packets usbEp0BufferSize want (bytes.take want)

def Control.setup (d : Descriptors) (c : Control) : Option Request → Control
  | some (.setAddress a) => { c with stage := .addressing a }
  | some (.setConfiguration v) => { c with stage := .configuring v }
  | some (.getDevice want) =>
      c.read (if want = 0 then [[]] else packetsFor want d.device)
  | some (.getConfiguration want) => c.read (packetsFor want d.configuration)
  | none => { c with stage := .stalled }

/-- After a packet was read that was DATA1 or DATA0. -/
def Stage.next (data1 : Bool) : List (List UInt8) → Stage
  | [] => .statusOut
  | p :: ps => .reading p (!data1) ps false

def Control.tokenIn (c : Control) : Control :=
  match c.stage with
  | .addressing a => { c with address := a, stage := .idle }
  | .configuring v => { c with configuration := v, stage := .idle }
  | .reading _ data1 rest _ => { c with stage := .next data1 rest }
  | .idle | .stalled | .statusOut => c

/-- The packet that is to be sent, after `length` bytes came in over it. -/
def overwrite (packet : List UInt8) (length : Nat) (data : Nat → UInt8) :
    List UInt8 :=
  packet.mapIdx fun i b => if i < length then data i else b

def Control.tokenOut (length : UInt8) (data : Nat → UInt8) (c : Control) :
    Control :=
  match c.stage with
  | .statusOut =>
      { c with stage := if length = 0 then .idle else .stalled }
  | .reading packet data1 rest first =>
      { c with
        stage := .reading
          (overwrite packet (min length.toNat usbEp0BufferSize) data) data1 rest
          first }
  | .idle | .stalled | .addressing _ | .configuring _ => c

def Control.step (d : Descriptors) (c : Control) : Ep0Event → Control
  | .packet token rxLen data =>
      if token = uisTokenSetup then
        if rxLen = 8 then c.setup d (request (.ofData data))
        else { c with stage := .stalled }
      else if token = uisTokenIn then c.tokenIn
      else if token = uisTokenOut then c.tokenOut rxLen data
      else c
  | .busReset => .fresh

/-! ## What the bus sees -/

inductive Reply (α : Type) where
  | ack (what : α)
  | nak
  | stall

/-- The answer to an IN, a packet with its toggle, and to an OUT, the toggle that
is expected. -/
structure Face where
  address : UInt8
  configuration : UInt8
  onIn : Reply (Bool × List UInt8)
  onOut : Reply Bool

def Control.face (c : Control) : Face where
  address := c.address
  configuration := c.configuration
  onIn :=
    match c.stage with
    | .idle | .statusOut => .nak
    | .stalled => .stall
    | .addressing _ | .configuring _ => .ack (true, [])
    | .reading packet data1 _ _ => .ack (data1, packet)
  onOut :=
    match c.stage with
    | .idle => .ack false
    | .stalled => .stall
    | .addressing _ | .configuring _ | .reading _ _ _ true | .statusOut => .ack true
    | .reading _ _ _ false => .nak

/-- The same of the registers and the buffer. -/
def faceOf (s : Ep0) : Face where
  address := s.usbDevAd
  configuration := s.configuration
  onIn :=
    if s.tRes = uepTResAck then .ack (s.tTog, s.armed)
    else if s.tRes = uepTResStall then .stall
    else .nak
  onOut :=
    if s.rRes = uepRResAck then .ack s.rTog
    else if s.rRes = uepRResStall then .stall
    else .nak

def Reply.isAck {α : Type} : Reply α → Bool
  | .ack _ => true
  | .nak | .stall => false

/-- An IN or an OUT completes only where it is acknowledged. -/
def Face.allows (f : Face) : Ep0Event → Bool
  | .packet token _ _ =>
      (token ≠ uisTokenIn || f.onIn.isAck) &&
        (token ≠ uisTokenOut || f.onOut.isAck)
  | .busReset => true

end Ch552e.Spec
