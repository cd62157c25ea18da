import Ch552e.Ref.Handlers

/-!
# The demo program

The descriptors and hooks of `main.c`: one configuration, one vendor-specific
interface, no child descriptors. Where the linker puts the three tables is not
in the source; any three places apart from each other and from address 0 do.
-/

namespace Ch552e.Ref

def deviceDescriptor : List UInt8 :=
  [18, usbDescriptorTypeDevice, 0x00, 0x02, 0x00, 0x00, 0x00, 64,
    0x09, 0x12, 0x01, 0x00, 0x00, 0x01, 0x00, 0x00, 0x00, 0x01]

def configurationDescriptor : List UInt8 :=
  [0x09, usbDescriptorTypeConfiguration, 0x09 + 0x09, 0x00, 0x01, 0x01, 0x00,
    0x80, 50]

def interfaceDescriptor : List UInt8 :=
  [0x09, usbDescriptorTypeInterface, 0x00, 0x00, 0x00, 0xFF, 0x00, 0x00, 0]

def deviceDescriptorAddress : UInt16 := 0x0100
def configurationDescriptorAddress : UInt16 := 0x0120
def interfaceDescriptorAddress : UInt16 := 0x0140

def demoCode (p : UInt16) : UInt8 :=
  if p < configurationDescriptorAddress then
    deviceDescriptor.getD (p - deviceDescriptorAddress).toNat 0
  else if p < interfaceDescriptorAddress then
    configurationDescriptor.getD (p - configurationDescriptorAddress).toNat 0
  else
    interfaceDescriptor.getD (p - interfaceDescriptorAddress).toNat 0

/-- The program of `main.c`. Its child hook leaves `length` alone. -/
def demo : Firmware where
  code := demoCode
  usbGetDeviceDescriptor := deviceDescriptorAddress
  usbGetConfigurationDescriptor := configurationDescriptorAddress
  usbGetInterfaceDescriptor index :=
    if index > 0 then 0 else interfaceDescriptorAddress
  usbGetInterfaceChildDescriptor _ _ length := (0, length)
  usbSetupFifoSize := 8

/-- The memory and registers before `usb_init`, all zero. -/
def powerOn : Ep0 where
  state := .init
  arms := ⟨0, 0, 0, 0, 0, 0, 0, .addressPending⟩
  configuration := 0
  uep0Dma := 0
  uep0Ctrl := 0
  uep0TLen := 0
  usbDevAd := 0
  usbRxLen := 0
  p1_4 := false
  xram _ := 0
  fifo := ⟨0, 0, fun _ => ⟨0, 0, 0, 0, 0⟩⟩
  trace := []

def packetOf (b : List UInt8) : UsbSetupPacket := ⟨fun i => b.getD i 0⟩

/-- GET_DESCRIPTOR of the configuration, for up to `wLengthL` bytes. -/
def readConfiguration (wLengthL : UInt8) : UsbSetupPacket :=
  packetOf [0x80, 0x06, 0x00, 0x02, 0x00, 0x00, wLengthL, 0x00]

end Ch552e.Ref
