import Ch552e.Ref.Handlers

/-!
# Endpoint 0 on a strict union

The handlers once more, on a union that remembers who owns it. A write through
an arm makes that arm the owner, an accepted SETUP leaves the storage without
one until it is written again, and a read through an arm that is not the owner
is an error (`Fault.misread`). So a run without a misread is a run in which
every read of the union finds storage written last through the same arm, by the
most recent accepted SETUP or by the stream after it.

The bodies follow the same source as `Prepare.lean` and `Handlers.lean`, access
by access; a read of several fields with no write between them is one read.
-/

namespace Ch552e.Ref.Strict

open Ch552e.Lib Ch552e.Ref

inductive Fault where
  | misread
  | diverges
deriving DecidableEq

/-- The storage of the union, and the arm that owns it. -/
structure Union where
  arms : Ep0Arms
  owner : Option Arm

namespace Union

def read {α : Type} (u : Union) (arm : Arm) (field : Ep0Arms → α) :
    Except Fault α :=
  if u.owner = some arm then .ok (field u.arms) else .error .misread

def write (u : Union) (arm : Arm) (store : Ep0Arms → Ep0Arms) : Union :=
  ⟨store u.arms, some arm⟩

/-- An assignment that reads what it overwrites. -/
def update (u : Union) (arm : Arm) (store : Ep0Arms → Ep0Arms) :
    Except Fault Union := do
  let a ← u.read arm store
  return u.write arm fun _ => a

end Union

/-! ## The walk -/

def moveToInterfaceDescriptor (fw : Firmware) (u : Union) :
    Except Fault (Bool × Union) := do
  let interface ← u.read .configStream Ep0Arms.interface
  let interfaceDescriptor :=
    fw.usbGetInterfaceDescriptor (UInt8.ofNat interface.toNat)
  if interfaceDescriptor = 0 then
    return (false, u)
  else
    let bLength := fw.code interfaceDescriptor
    let u := u.write .configStream fun a => a.setCursor interfaceDescriptor
    let u := u.write .configStream fun a => a.setRemaining bLength
    let u := u.write .configStream fun a => a.setChild 0
    return (true, u)

def moveToInterfaceChildDescriptor (fw : Firmware) (u : Union) :
    Except Fault (Bool × Union) := do
  let interface ← u.read .configStream Ep0Arms.interface
  let child ← u.read .configStream Ep0Arms.child
  -- the hook may read behind its `length` pointer before it writes there
  let remaining ← u.read .configStream Ep0Arms.remaining
  let (childDescriptor, length) := fw.usbGetInterfaceChildDescriptor
    (UInt8.ofNat interface.toNat) (UInt8.ofNat child.toNat) remaining
  let u := u.write .configStream fun a => a.setRemaining length
  if childDescriptor = 0 then
    return (false, u)
  else
    let u := u.write .configStream fun a => a.setCursor childDescriptor
    let u ← u.update .configStream fun a => a.setChild (a.child + 1)
    return (true, u)

def moveToNextDescriptor (fw : Firmware) (u : Union) :
    Except Fault (Bool × Union) := do
  let child ← u.read .configStream Ep0Arms.child
  if child = 0b00011111 then
    moveToInterfaceDescriptor fw u
  else
    match ← moveToInterfaceChildDescriptor fw u with
    | (true, u) => return (true, u)
    | (false, u) =>
        let interface ← u.read .configStream Ep0Arms.interface
        if interface = 0b00000111 then
          return (false, u)
        else
          let u ← u.update .configStream fun a => a.setInterface (a.interface + 1)
          moveToInterfaceDescriptor fw u

/-! ## The fill loop -/

/-- What the loop works on, with the owner of its stream's storage. -/
structure Filling where
  fill : Ref.Filling
  owner : Option Arm

def Filling.union (f : Filling) : Union := ⟨f.fill.arms, f.owner⟩

def Filling.continues (f : Filling) : Except Fault Bool := do
  let cursor ← f.union.read .configStream Ep0Arms.cursor
  let requestRemaining ← f.union.read .configStream Ep0Arms.requestRemaining
  let totalRemaining ← f.union.read .configStream Ep0Arms.totalRemaining
  return cursor ≠ 0 && requestRemaining ≠ 0 && totalRemaining ≠ 0 &&
    f.fill.filledBytes.toNat < usbEp0BufferSize

def Filling.copy (fw : Firmware) (f : Filling) : Except Fault Filling := do
  let n ← f.union.read .configStream fun a => copySize a f.fill.filledBytes
  let cursor ← f.union.read .configStream Ep0Arms.cursor
  let dest := usbEp0BufferAddress + f.fill.filledBytes.toNat
  let u ← f.union.update .configStream fun a => a.advance n
  return {
    fill := {
      arms := u.arms
      xram := memcpyCodeToXdata fw.code f.fill.xram dest cursor n.toNat
      filledBytes := f.fill.filledBytes + n
      trace := .copy f.fill.arms f.fill.filledBytes n :: f.fill.trace }
    owner := u.owner }

def Filling.next (fw : Firmware) (f : Filling) :
    Except Fault (Bool × Filling) := do
  match ← moveToNextDescriptor fw f.union with
  | (true, u) =>
      return (true, {
        fill := { f.fill with
          arms := u.arms
          trace := .move f.fill.arms (some u.arms) :: f.fill.trace }
        owner := u.owner })
  | (false, u) =>
      let u := u.write .configStream fun a => a.setCursor 0
      return (false, {
        fill := { f.fill with
          arms := u.arms
          trace := .move f.fill.arms none :: f.fill.trace }
        owner := u.owner })

def fillTurn (fw : Firmware) (f : Filling) : Except Fault (Bool × Filling) := do
  if ← f.continues then
    let f ← f.copy fw
    let requestRemaining ← f.union.read .configStream Ep0Arms.requestRemaining
    let totalRemaining ← f.union.read .configStream Ep0Arms.totalRemaining
    if requestRemaining = 0 ∨ totalRemaining = 0 then
      return (false, f)
    else
      let remaining ← f.union.read .configStream Ep0Arms.remaining
      if remaining ≠ 0 then
        return (true, f)
      else
        f.next fw
  else
    return (false, f)

/-- A turn of the loop, which stops at an error. -/
def fillBody (fw : Firmware) :
    Except Fault Filling → Bool × Except Fault Filling
  | .error e => (false, .error e)
  | .ok f =>
      match fillTurn fw f with
      | .error e => (false, .error e)
      | .ok (again, f) => (again, .ok f)

def fillLoop (fw : Firmware) (f : Filling) : Except Fault Filling :=
  match loop (fillBody fw) fillFuel (.ok f) with
  | some r => r
  | none => .error .diverges

/-! ## The handlers -/

/-- The device, with the owner of its union. -/
structure Device where
  dev : Ep0
  owner : Option Arm

namespace Device

def union (d : Device) : Union := ⟨d.dev.arms, d.owner⟩

/-- `dev`, with the storage of the union as it is in `u`. -/
def ofUnion (dev : Ep0) (u : Union) : Device :=
  ⟨{ dev with arms := u.arms }, u.owner⟩

end Device

def usbEp0PrepareDescriptor (fw : Firmware) (d : Device) :
    Except Fault (UInt8 × Device) := do
  if d.dev.state ≠ .sendConfigurationDescriptor then
    return (0, d)
  else
    let cursor ← d.union.read .configStream Ep0Arms.cursor
    if cursor = 0 then
      return (0, d)
    else
      let f ← fillLoop fw ⟨⟨d.dev.arms, d.dev.xram, 0, d.dev.trace⟩, d.owner⟩
      return (f.fill.filledBytes, {
        dev := { d.dev with
          arms := f.fill.arms
          xram := f.fill.xram
          trace := f.fill.trace }
        owner := f.owner })

def startConfigStream (fw : Firmware) (p : UsbSetupPacket) (d : Device) :
    Device :=
  let config := fw.usbGetConfigurationDescriptor
  let u := d.union.write .configStream fun a => a.setCursor config
  let u := u.write .configStream fun a => a.setRemaining (fw.code config)
  let u := u.write .configStream fun a => a.setRequestRemaining p.wLength
  let u := u.write .configStream fun a => a.setTotalRemaining fw.wTotalLength
  let u := u.write .configStream fun a => a.setInterface 0
  let u := u.write .configStream fun a => a.setChild 0b00011111
  .ofUnion { d.dev with
    state := .sendConfigurationDescriptor
    trace := [.start u.arms] } u

def usbEp0HandleSetup (fw : Firmware) (p : UsbSetupPacket) (d : Device) :
    Except Fault (Bool × Device) := do
  -- an accepted request: what it does not write itself is nobody's from here on
  let accepted : Device := { d with owner := none }
  if isSetAddress p then
    let u := accepted.union.write .addressPending
      fun a => a.setAddressCandidate p.wValueL
    return (true, .ofUnion { d.dev with
      state := .waitDeviceAddress
      uep0TLen := 0
      uep0Ctrl := bUepTTog ||| bUepRTog ||| uepRResAck ||| uepTResAck } u)
  else if isGetDeviceDescriptor p then
    let descriptor := fw.usbGetDeviceDescriptor
    let descriptorSize := fw.code descriptor
    return (true, .ofUnion { d.dev with
      state := .sendDeviceDescriptor
      xram := memcpyCodeToXdata fw.code d.dev.xram usbEp0BufferAddress descriptor
        descriptorSize.toNat
      uep0TLen :=
        if descriptorSize.toUInt16 > p.wLength then p.wLength.toUInt8
        else descriptorSize
      uep0Ctrl := bUepTTog ||| bUepRTog ||| uepRResAck ||| uepTResAck }
      accepted.union)
  else if isGetConfigurationDescriptor p then
    let d := startConfigStream fw p accepted
    if p.wLength = 0 then
      return (true, .ofUnion { d.dev with
        state := .waitStatusOut
        uep0TLen := 0
        uep0Ctrl := bUepRTog ||| uepRResAck ||| uepTResNak } d.union)
    else
      let (length, d) ← usbEp0PrepareDescriptor fw d
      return (true, .ofUnion { d.dev with
        uep0TLen := length
        uep0Ctrl := bUepTTog ||| bUepRTog ||| uepRResAck ||| uepTResAck } d.union)
  else if isSetConfiguration p then
    let u := accepted.union.write .configurationPending
      fun a => a.setConfigurationCandidate p.wValueL
    return (true, .ofUnion { d.dev with
      state := .waitSetConfiguration
      uep0TLen := 0
      uep0Ctrl := bUepTTog ||| bUepRTog ||| uepRResAck ||| uepTResAck } u)
  else
    return (false, d)

def usbEp0HandleIn (fw : Firmware) (d : Device) : Except Fault Device := do
  match d.dev.state with
  | .waitDeviceAddress =>
      let candidate ← d.union.read .addressPending Ep0Arms.addressCandidate
      return { d with
        dev := { d.dev with
          usbDevAd := (d.dev.usbDevAd &&& ~~~maskUsbAddr) ||| candidate
          state := .idle
          uep0TLen := 0
          uep0Ctrl := uepRResAck ||| uepTResNak } }
  | .sendDeviceDescriptor => return { d with dev := awaitStatusOut d.dev }
  | .sendConfigurationDescriptor =>
      let requestRemaining ← d.union.read .configStream Ep0Arms.requestRemaining
      if requestRemaining = 0 then
        return { d with dev := awaitStatusOut d.dev }
      else
        let previousLength := d.dev.uep0TLen
        let (length, d) ← usbEp0PrepareDescriptor fw d
        if length = 0 then
          if previousLength.toNat = usbEp0BufferSize then
            return { d with
              dev := { d.dev with
                state := .sendConfigurationZlp
                uep0TLen := 0
                uep0Ctrl :=
                  nextTToggle d.dev ||| bUepRTog ||| uepRResNak ||| uepTResAck } }
          else
            return { d with dev := awaitStatusOut d.dev }
        else
          return { d with
            dev := { d.dev with
              uep0TLen := length
              uep0Ctrl :=
                nextTToggle d.dev ||| bUepRTog ||| uepRResNak ||| uepTResAck } }
  | .sendConfigurationZlp => return { d with dev := awaitStatusOut d.dev }
  | .waitSetConfiguration =>
      let candidate ←
        d.union.read .configurationPending Ep0Arms.configurationCandidate
      return { d with
        dev := { d.dev with
          state := .idle
          configuration := candidate
          uep0TLen := 0
          uep0Ctrl := uepRResAck ||| uepTResNak } }
  | .init | .waitStatusOut | .idle => return d

def answerSetup : Bool × Device → Device
  | (true, d) => d
  | (false, d) => { d with dev := usbEp0Stall d.dev }

def usbEp0HandlePacket (fw : Firmware) (token : UInt8) (d : Device) :
    Except Fault Device := do
  if token = uisTokenSetup then
    if d.dev.usbRxLen ≠ 8 then
      return { d with dev := usbEp0Stall d.dev }
    else
      let packet := copySetupPacket d.dev.xram
      let d := { d with dev := logSetup fw packet d.dev }
      return answerSetup (← usbEp0HandleSetup fw packet d)
  else if token = uisTokenIn then
    usbEp0HandleIn fw d
  else if token = uisTokenOut then
    return { d with dev := usbEp0HandleOut d.dev.usbRxLen d.dev }
  else
    return d

def ep0Step (fw : Firmware) (d : Device) : Ep0Event → Except Fault Device
  | .packet token rxLen data =>
      usbEp0HandlePacket fw token { d with dev := receive token rxLen data d.dev }
  | .busReset => return { d with dev := usbEp0Reset d.dev }

/-- A run, as far as it gets. -/
def run (fw : Firmware) (d : Device) (es : List Ep0Event) : Except Fault Device :=
  es.foldlM (ep0Step fw) d

end Ch552e.Ref.Strict
