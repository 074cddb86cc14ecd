import KhdfLinux.Pnp.Records

/-!
# Sending events

The variables of the driver, `UsbPnpNotifyHdfSendEvent`, with which an event is sent to userspace,
and the commands from userspace.
-/

namespace Pnp

/-- What `g_usbDevice` and `eventData` point to: a `struct usb_device`, or `g_usbPnpInfo`. -/
inductive EventData where
  | device (addr : Nat)
  | pnpInfo
  deriving DecidableEq, Repr

/-- How `eventData` is misused: what is read as a device or as a `struct UsbPnpAddRemoveInfo` is
none, or is a device that was freed. -/
inductive Fault where
  | notADevice
  | notAnInfo
  | freed
  deriving DecidableEq, Repr

/-- An event that userspace receives. -/
structure Event where
  cmd : Cmd
  table : MatchInfoTable
  deriving DecidableEq, Repr

/-- The variables of the driver, with the events that were sent, in order. -/
structure Notifier where
  infoList : List DeviceInfo
  idNum : Nat
  usbDevice : Option EventData
  usbPnpInfo : AddRemoveInfo
  cmdType : Cmd
  removeType : RemoveType
  events : List Event
  deriving DecidableEq, Repr

/-- What the functions that `UsbPnpNotifyHdfSendEvent` calls return: if there is a buffer, if there
is memory for a record, if the table fits into the buffer, and what comes of sending it. -/
structure Outcome where
  obtained : Bool
  allocated : Bool
  written : Bool
  sent : Int
  deriving DecidableEq, Repr

/-- All goes well. -/
def Outcome.fine : Outcome := ⟨true, true, true, Hdf.success⟩

/-- `INT32_MAX`. -/
def int32Max : Nat := 2147483647

/-- The driver when it was just loaded. -/
def notifierNew : Notifier where
  infoList := []
  idNum := 1
  usbDevice := none
  usbPnpInfo := ⟨0, 0, 0, 0, 0, 0⟩
  cmdType := .addInterface
  removeType := .busDevNum
  events := []

namespace Notifier

/-! ### `UsbPnpNotifyHdfSendEvent` -/

/-- The id of the next record. -/
def nextId (s : Notifier) : Nat :=
  if s.idNum = int32Max then 1 else s.idNum

/-- `UsbPnpNotifyCreateInfo`. -/
def createInfo (s : Notifier) (allocated : Bool) : Notifier × Option Place :=
  if allocated then
    ({ s with infoList := s.infoList ++ [.new s.nextId], idNum := s.nextId + 1 },
      some ⟨s.infoList, .new s.nextId, []⟩)
  else
    (s, none)

/-- `UsbPnpNotifyGetDeviceInfo`, up to the remove type. -/
def getDeviceInfo (s : Notifier) (allocated : Bool) (eventData : EventData) :
    Except Fault (Notifier × Option Place) :=
  match s.cmdType with
  | .addInterface | .removeInterface =>
      match eventData with
      | .pnpInfo =>
          .ok (s, findInfo s.infoList (.normal s.usbPnpInfo.devNum s.usbPnpInfo.busNum))
      | .device _ => .error .notAnInfo
  | .addDevice | .removeDevice =>
      match eventData with
      | .device addr => .ok (s, findInfo s.infoList (.deviceAddress addr))
      -- no device is at the address of `g_usbPnpInfo`
      | .pnpInfo => .ok (s, none)
  | _ => .ok (s.createInfo allocated)

/-- `UsbPnpNotifyInitInfo`: the record, the table, and what is returned.  The devices that are not
freed are `live`. -/
def initInfo (s : Notifier) (live : List UsbDevice) (written : Bool) (r : DeviceInfo)
    (eventData : EventData) : Except Fault (DeviceInfo × MatchInfoTable × Int) :=
  let ret := if written then Hdf.success else Hdf.failure
  match s.cmdType with
  | .addInterface | .removeInterface =>
      match eventData with
      | .pnpInfo =>
          let (r, interfaceInfo) := addInterfaceInitInfo s.cmdType r s.usbPnpInfo
          .ok (r, { r.info with removeType := s.removeType, interfaceInfo }, ret)
      | .device _ => .error .notAnInfo
  | .reportInterface =>
      match eventData with
      | .pnpInfo => .error .notADevice
      | .device addr =>
          match live.find? fun usbDev => usbDev.addr = addr with
          | none => .error .freed
          | some usbDev =>
              let (info, init) := addInitInfo r.info usbDev
              .ok ({ r with info }, info, if init ≠ Hdf.success then init else ret)
  | _ => .ok (r, r.info, ret)

/-- Send the table, if no other event is to be sent about the record. -/
def sendTable (s : Notifier) (r : DeviceInfo) (table : MatchInfoTable) (sent : Int) :
    DeviceInfo × Int × Option Event :=
  if r.status = .init then
    if sent ≠ Hdf.success then (r, sent, none)
    else ({ r with status := .add }, Hdf.success, some ⟨s.cmdType, table⟩)
  else
    (r, Hdf.errInvalidObject, none)

/-- What is done with the record that was found or created. -/
def sendRecord (s : Notifier) (live : List UsbDevice) (o : Outcome) (r : DeviceInfo)
    (eventData : EventData) : Except Fault (DeviceInfo × Int × Option Event) :=
  match s.initInfo live o.written r eventData with
  | .error fault => .error fault
  | .ok (r, table, ret) =>
      if ret ≠ Hdf.success then .ok (r, ret, none)
      else .ok (s.sendTable r table o.sent)

/-- `UsbPnpNotifyHdfSendEvent`, up to its label `OUT`, with what is returned and the id of the
record, if there is one. -/
def sendEventBody (s : Notifier) (live : List UsbDevice) (o : Outcome) (eventData : EventData) :
    Except Fault (Notifier × Int × Option Nat) :=
  if ¬o.obtained then
    .ok (s, Hdf.failure, none)
  else
    match s.getDeviceInfo o.allocated eventData with
    | .error fault => .error fault
    | .ok (s, none) => .ok (s, Hdf.failure, none)
    | .ok (s, some p) =>
        let r := { p.record with info.removeType := s.removeType }
        match s.sendRecord live o r eventData with
        | .error fault => .error fault
        | .ok (r, ret, event) =>
            .ok ({ s with infoList := p.put r, events := s.events ++ event.toList }, ret, some r.id)

/-- The end of `UsbPnpNotifyHdfSendEvent`. -/
def sendEventOut (s : Notifier) (ret : Int) (id : Option Nat) : Notifier :=
  match id with
  | none => s
  | some id =>
      if ret ≠ Hdf.success ∨ s.cmdType = .removeDevice then
        { s with infoList := destroyInfo s.infoList id }
      else
        s

/-- `UsbPnpNotifyHdfSendEvent`. -/
def sendEvent (s : Notifier) (live : List UsbDevice) (o : Outcome) (eventData : EventData) :
    Except Fault (Notifier × Int) :=
  match s.sendEventBody live o eventData with
  | .error fault => .error fault
  | .ok (s, ret, id) => .ok (s.sendEventOut ret id, ret)

/-! ### Commands -/

/-- `UsbPnpNotifyReadPnpInfo`, with what can be read from the buffer. -/
def readPnpInfo (s : Notifier) (data : Option AddRemoveInfo) : Notifier :=
  match data with
  | none => s
  | some usbPnpInfo =>
      let s := { s with usbPnpInfo, usbDevice := some .pnpInfo }
      match findInfo s.infoList (.normal usbPnpInfo.devNum usbPnpInfo.busNum) with
      | none => s
      | some p => { s with infoList := p.put (p.record.toggle .interface) }

/-- `usb_for_each_dev` with `UsbPnpNotifyFirstReport`, which stops at the first device that is not
reported; `outcomes` are those for the device at an address. -/
def firstReports (s : Notifier) (live : List UsbDevice) (outcomes : Nat → Outcome) :
    List Nat → Except Fault Notifier
  | [] => .ok s
  | addr :: rest =>
      match s.sendEvent live (outcomes addr) (.device addr) with
      | .error fault => .error fault
      | .ok (s, ret) => if ret ≠ Hdf.success then .ok s else s.firstReports live outcomes rest

/-- `UsbPnpGetDevices`: what is written into a reply that has room for so many values. -/
def getDevices (s : Notifier) (room : Nat) : List Int :=
  (s.infoList.flatMap fun r => r.info.replyValues r.status).take room

/-- `UsbPnpNotifyDispatch`, while it holds the lock, and what it returns; `attached` are the devices
on the bus. -/
def dispatch (s : Notifier) (live : List UsbDevice) (attached : List Nat) (cmd : Cmd)
    (data : Option AddRemoveInfo) (outcomes : Nat → Outcome) : Except Fault (Notifier × Int) :=
  let s := if cmd ≠ .getDevices then { s with cmdType := cmd } else s
  match cmd with
  | .addInterface => .ok (s.readPnpInfo data, Hdf.success)
  | .removeInterface =>
      .ok ({ s.readPnpInfo data with removeType := .interfaceNum }, Hdf.success)
  | .reportInterface =>
      match s.firstReports live outcomes attached with
      | .error fault => .error fault
      | .ok s => .ok (s, Hdf.success)
  | .getDevices => .ok (s, Hdf.success)
  | _ => .ok (s, Hdf.errNotSupport)

/-! ### Notifications -/

/-- `UsbPnpNotifyCallback` of a device that was added, up to the lock, and if it goes on. -/
def deviceAdded (s : Notifier) (usbDev : UsbDevice) (allocated : Bool) : Notifier × Bool :=
  match s.createInfo allocated with
  | (s, none) => (s, false)
  | (s, some p) =>
      let (info, ret) := addInitInfo p.record.info usbDev
      ({ s with infoList := p.put { p.record with info } }, ret = Hdf.success)

/-- `UsbPnpNotifyCallback` of a device that was removed, up to the lock, and if it goes on. -/
def deviceRemoved (s : Notifier) (usbDevAddr : Nat) : Notifier × Bool :=
  match findInfo s.infoList (.deviceAddress usbDevAddr) with
  | none => (s, false)
  | some p => ({ s with infoList := p.put (p.record.toggle .remove) }, true)

/-- The end of `UsbPnpNotifyCallback` of a device that was added. -/
def postAdd (s : Notifier) (addr : Nat) : Notifier :=
  { s with usbDevice := some (.device addr), cmdType := .addDevice }

/-- The end of `UsbPnpNotifyCallback` of a device that was removed. -/
def postRemove (s : Notifier) (addr : Nat) : Notifier :=
  { s with usbDevice := some (.device addr), cmdType := .removeDevice, removeType := .busDevNum }

/-- What `UsbPnpNotifyReportThread` hands to `UsbPnpNotifyHdfSendEvent`. -/
def eventData (s : Notifier) : Option EventData :=
  if s.cmdType.isInterface then some .pnpInfo else s.usbDevice

/-- `UsbPnpNotifyReportThread` while it holds the lock, up to the label `OUT`. -/
def report (s : Notifier) (live : List UsbDevice) (o : Outcome) :
    Except Fault (Notifier × Int × Option Nat) :=
  match s.eventData with
  | none => .ok (s, Hdf.errInvalidParam, none)
  | some eventData => s.sendEventBody live o eventData

/-- `UsbPnpNotifyReportThread` from there to its end of the lock. -/
def finishReport (s : Notifier) (ret : Int) (id : Option Nat) : Notifier :=
  { s.sendEventOut ret id with usbDevice := none }

end Notifier

end Pnp
