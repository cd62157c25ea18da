import Mathlib.Data.UInt

/-!
# Register fields

The bit fields of the USB registers the firmware reads and writes, as
`ch552e/usb/endpoints/endpoints.h`, `ch552e/usb/control.h` and
`hardware/usb/request.h` define them.
-/

namespace Ch552e.Ref

/-! ## `UEPn_CTRL` -/

/-- Expected DATA toggle for SETUP and OUT. -/
def bUepRTog : UInt8 := 0x80

/-- DATA toggle to send for IN. -/
def bUepTTog : UInt8 := 0x40

/-- Response to SETUP and OUT. -/
def maskUepRRes : UInt8 := 0b00001100
def uepRResAck : UInt8 := 0b00000000
def uepRResNak : UInt8 := 0b00001000
def uepRResStall : UInt8 := 0b00001100

/-- Response to IN. -/
def maskUepTRes : UInt8 := 0b00000011
def uepTResAck : UInt8 := 0b00000000
def uepTResNak : UInt8 := 0b00000010
def uepTResStall : UInt8 := 0b00000011

/-! ## `USB_INT_ST` and `USB_DEV_AD` -/

/-- Token PID field. -/
def maskUisToken : UInt8 := 0b00110000

/-- Endpoint number field. -/
def maskUisEndp : UInt8 := 0b00001111

def uisTokenOut : UInt8 := 0b00000000
def uisTokenIn : UInt8 := 0b00100000
def uisTokenSetup : UInt8 := 0b00110000

/-- The 7-bit device address; bit 7 is a flag of the program's own. -/
def maskUsbAddr : UInt8 := 0b01111111

/-! ## `USB_CTRL`, `UDEV_CTRL` and `USB_INT_EN` -/

def bUcDevPuEn : UInt8 := 0x20

/-- NAK to everything while the transfer flag is up. -/
def bUcIntBusy : UInt8 := 0x08
def bUcDmaEn : UInt8 := 0x01

def bUdPdDis : UInt8 := 0x80
def bUdPortEn : UInt8 := 0x01

def bUieSuspend : UInt8 := 0x04
def bUieTransfer : UInt8 := 0x02
def bUieBusRst : UInt8 := 0x01

/-! ## Requests and descriptor types -/

def mreqDirectionH2d : UInt8 := 0b00000000
def mreqDirectionD2h : UInt8 := 0b10000000
def mreqTypeStandard : UInt8 := 0b00000000
def mreqTargetDevice : UInt8 := 0b00000000

def reqSetAddress : UInt8 := 0x05
def reqGetDescriptor : UInt8 := 0x06
def reqSetConfiguration : UInt8 := 0x09

def usbDescriptorTypeDevice : UInt8 := 0x01
def usbDescriptorTypeConfiguration : UInt8 := 0x02
def usbDescriptorTypeInterface : UInt8 := 0x04

end Ch552e.Ref
