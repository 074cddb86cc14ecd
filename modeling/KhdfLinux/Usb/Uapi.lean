import KhdfLinux.Lib.Bytes

/-!
# Constants of the USB gadget interface

The error codes, the descriptor types and lengths, the FunctionFS header words and the
event numbers that the function driver takes from the kernel headers, under the kernel's
names.
-/

namespace Ffs

/-! ### Error codes -/

def eintr : Int := 4
def eagain : Int := 11
def enomem : Int := 12
def efault : Int := 14
def ebusy : Int := 16
def enodev : Int := 19
def einval : Int := 22
def enotty : Int := 25
def esrch : Int := 3
def enoent : Int := 2
def edom : Int := 33
def erange : Int := 34
def enosys : Int := 38
def eidrm : Int := 43
def el2hlt : Int := 51
def ebadmsg : Int := 74
def ebadfd : Int := 77
def eopnotsupp : Int := 95
def eshutdown : Int := 108
def enotsupp : Int := 524
def eiocbqueued : Int := 529

/-- `KMALLOC_MAX_SIZE`. -/
def kmallocMaxSize : Nat := 4194304

/-! ### Descriptor types and lengths -/

def usbDtDevice : UInt8 := 0x01
def usbDtConfig : UInt8 := 0x02
def usbDtString : UInt8 := 0x03
def usbDtInterface : UInt8 := 0x04
def usbDtEndpoint : UInt8 := 0x05
def usbDtDeviceQualifier : UInt8 := 0x06
def usbDtOtg : UInt8 := 0x09
def usbDtInterfaceAssociation : UInt8 := 0x0b
def hidDtHid : UInt8 := 0x21
def usbDtCsInterface : UInt8 := 0x24
def usbDtSsEndpointComp : UInt8 := 0x30

/-- `sizeof(struct usb_interface_descriptor)`. -/
def usbDtInterfaceSize : Nat := 9
def usbDtEndpointSize : Nat := 7
def usbDtEndpointAudioSize : Nat := 9
/-- `sizeof(struct hid_descriptor)`. -/
def hidDescriptorSize : Nat := 9
/-- `sizeof(struct usb_otg_descriptor)`. -/
def usbOtgDescriptorSize : Nat := 3
/-- `sizeof(struct usb_interface_assoc_descriptor)`. -/
def usbInterfaceAssocSize : Nat := 8
/-- `sizeof(struct usb_ss_ep_comp_descriptor)`. -/
def usbSsEpCompSize : Nat := 6

def usbEndpointNumberMask : UInt8 := 0x0f
def usbDirIn : UInt8 := 0x80

def usbRecipMask : UInt8 := 0x1f
def usbRecipInterface : UInt8 := 0x01
def usbRecipEndpoint : UInt8 := 0x02
/-- `USB_GADGET_DELAYED_STATUS`. -/
def usbGadgetDelayedStatus : Int := 0x7fff

def usbCdcCallManagementType : UInt8 := 0x01
def usbCdcUnionType : UInt8 := 0x06
def usbCdcEthernetType : UInt8 := 0x0f

/-! ### FunctionFS headers -/

def functionfsDescriptorsMagic : Nat := 1
def functionfsStringsMagic : Nat := 2
def functionfsDescriptorsMagicV2 : Nat := 3

def functionfsHasFsDesc : Nat := 1
def functionfsHasHsDesc : Nat := 2
def functionfsHasSsDesc : Nat := 4
def functionfsHasMsOsDesc : Nat := 8
def functionfsVirtualAddr : Nat := 16
def functionfsEventfd : Nat := 32
def functionfsAllCtrlRecip : Nat := 64
def functionfsConfig0Setup : Nat := 128

/-- `sizeof(struct usb_os_desc_header)`. -/
def usbOsDescHeaderSize : Nat := 11
/-- `sizeof(struct usb_ext_compat_desc)`. -/
def usbExtCompatDescSize : Nat := 24
/-- `sizeof(struct usb_ext_prop_desc)`. -/
def usbExtPropDescSize : Nat := 10

def usbExtPropUnicode : Nat := 1
def usbExtPropUnicodeEnv : Nat := 2
def usbExtPropUnicodeLink : Nat := 6
def usbExtPropUnicodeMulti : Nat := 7

/-- `FFS_MAX_EPS_COUNT`. -/
abbrev ffsMaxEpsCount : Nat := 31

/-- Does the flags word hold the flag? -/
def hasFlag (flags flag : Nat) : Bool := flags &&& flag != 0

end Ffs
