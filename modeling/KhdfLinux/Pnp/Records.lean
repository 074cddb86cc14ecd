import KhdfLinux.Hdf.Base

/-!
# The records of the notifier

The records of devices on the list `g_usbPnpInfoListHead`, and the functions of the driver that
create, find, fill and destroy them.
-/

namespace Pnp

/-- `enum UsbPnpNotifyServiceCmd`, as far as the driver names its values, and any other number. -/
inductive Cmd where
  | addInterface
  | removeInterface
  | reportInterface
  | addDevice
  | removeDevice
  | getDevices
  | other (cmd : Int)
  deriving DecidableEq, Repr

/-- The commands that are about an interface, with a `struct UsbPnpAddRemoveInfo`. -/
def Cmd.isInterface : Cmd → Bool
  | .addInterface | .removeInterface => true
  | _ => false

/-- `enum UsbPnpNotifyRemoveType`. -/
inductive RemoveType where
  | busDevNum
  | interfaceNum
  deriving DecidableEq, Repr

/-- `UsbPnpDeviceStatus`. -/
inductive Status where
  | init
  | add
  | remove
  | interface
  deriving DecidableEq, Repr

/-- An interface, in a configuration or in a table. -/
structure InterfaceInfo where
  interfaceClass : UInt8
  interfaceSubClass : UInt8
  interfaceProtocol : UInt8
  interfaceNumber : UInt8
  deriving DecidableEq, Repr, Inhabited

/-- The part `deviceInfo` of a table. -/
structure DescriptorInfo where
  vendorId : UInt16
  productId : UInt16
  bcdDeviceLow : UInt16
  bcdDeviceHigh : UInt16
  deviceClass : UInt8
  deviceSubClass : UInt8
  deviceProtocol : UInt8
  deriving DecidableEq, Repr, Inhabited

/-- `struct usb_device_descriptor`, as far as the driver reads it. -/
structure DeviceDescriptor where
  idVendor : UInt16
  idProduct : UInt16
  bcdDevice : UInt16
  bDeviceClass : UInt8
  bDeviceSubClass : UInt8
  bDeviceProtocol : UInt8
  deriving DecidableEq, Repr, Inhabited

/-- `struct usb_device` at the address `addr`: `bus` is its bus number, if it has a bus, and
`actconfig` the `bNumInterfaces` interfaces of its configuration, if it has one, each with its
`cur_altsetting`, if there is one. -/
structure UsbDevice where
  addr : Nat
  devnum : Int
  bus : Option Int
  descriptor : DeviceDescriptor
  actconfig : Option (List (Option InterfaceInfo))
  deriving DecidableEq, Repr

/-- `struct UsbPnpNotifyMatchInfoTable`, with `numInfos` interfaces. -/
structure MatchInfoTable where
  usbDevAddr : Nat
  devNum : Int
  busNum : Int
  deviceInfo : DescriptorInfo
  removeType : RemoveType
  interfaceInfo : List InterfaceInfo
  deriving DecidableEq, Repr

/-- The value of a status. -/
def Status.value : Status → Int
  | .init => 0
  | .add => 1
  | .remove => 2
  | .interface => 3

/-- What is told of a record with this table and status. -/
def MatchInfoTable.replyValues (table : MatchInfoTable) (status : Status) : List Int :=
  [table.busNum, table.devNum, table.deviceInfo.deviceClass.toNat,
   table.deviceInfo.deviceSubClass.toNat, table.deviceInfo.deviceProtocol.toNat, status.value]

/-- `struct UsbPnpAddRemoveInfo`. -/
structure AddRemoveInfo where
  devNum : Int
  busNum : Int
  interfaceNumber : UInt8
  interfaceClass : UInt8
  interfaceSubClass : UInt8
  interfaceProtocol : UInt8
  deriving DecidableEq, Repr

/-- The interface that is named. -/
def AddRemoveInfo.interface (info : AddRemoveInfo) : InterfaceInfo :=
  ⟨info.interfaceClass, info.interfaceSubClass, info.interfaceProtocol, info.interfaceNumber⟩

/-- `struct UsbPnpDeviceInfo`; what is missing in `interfaceRemoveStatus` is false. -/
structure DeviceInfo where
  id : Nat
  status : Status
  interfaceRemoveStatus : List Bool
  info : MatchInfoTable
  deriving DecidableEq, Repr

/-- A record filled with zeros, but for its id. -/
def DeviceInfo.new (id : Nat) : DeviceInfo where
  id := id
  status := .init
  interfaceRemoveStatus := []
  info := ⟨0, 0, 0, default, .busDevNum, []⟩

/-! ### Finding and destroying -/

/-- `struct UsbInfoQueryPara`. -/
inductive QueryPara where
  | normal (devNum busNum : Int)
  | id (id : Nat)
  | deviceAddress (usbDevAddr : Nat)
  deriving DecidableEq, Repr

/-- Whether the record is asked for. -/
def QueryPara.admits : QueryPara → DeviceInfo → Bool
  | .normal devNum busNum, r => r.info.devNum = devNum ∧ r.info.busNum = busNum
  | .id i, r => r.id = i
  | .deviceAddress usbDevAddr, r => r.info.usbDevAddr = usbDevAddr

/-- A record on the list, between those before and after it. -/
structure Place where
  before : List DeviceInfo
  record : DeviceInfo
  after : List DeviceInfo
  deriving DecidableEq, Repr

/-- The list with another record in this place. -/
def Place.put (p : Place) (r : DeviceInfo) : List DeviceInfo :=
  p.before ++ r :: p.after

/-- `UsbPnpNotifyFindInfo`. -/
def findInfo : List DeviceInfo → QueryPara → Option Place
  | [], _ => none
  | r :: rest, query =>
      if query.admits r then some ⟨[], r, rest⟩
      else (findInfo rest query).map fun p => { p with before := r :: p.before }

/-- `UsbPnpNotifyDestroyInfo`, for a record with the id. -/
def destroyInfo (infoList : List DeviceInfo) (id : Nat) : List DeviceInfo :=
  infoList.eraseP fun r => r.id = id

/-- Note a command for the record: what was announced is to be sent again, and `busy` keeps what is
still to be sent from being sent. -/
def DeviceInfo.toggle (r : DeviceInfo) (busy : Status) : DeviceInfo :=
  { r with status := if r.status ≠ .init then .init else busy }

/-! ### Filling a record -/

/-- Take over the interfaces of a configuration.  One that is missing ends it, and leaves the
rest of the table zero. -/
def fillInterfaces : List (Option InterfaceInfo) → List InterfaceInfo × Bool
  | [] => ([], true)
  | none :: rest => (List.replicate (rest.length + 1) default, false)
  | some intf :: rest =>
      let (filled, ok) := fillInterfaces rest
      (intf :: filled, ok)

/-- The part of the table that is filled from the descriptor. -/
def DeviceDescriptor.deviceInfo (d : DeviceDescriptor) : DescriptorInfo where
  vendorId := d.idVendor
  productId := d.idProduct
  bcdDeviceLow := d.bcdDevice
  bcdDeviceHigh := d.bcdDevice
  deviceClass := d.bDeviceClass
  deviceSubClass := d.bDeviceSubClass
  deviceProtocol := d.bDeviceProtocol

/-- `UsbPnpNotifyAddInitInfo`. -/
def addInitInfo (info : MatchInfoTable) (usbDev : UsbDevice) : MatchInfoTable × Int :=
  let info := { info with usbDevAddr := usbDev.addr, devNum := usbDev.devnum }
  match usbDev.bus with
  | none => (info, Hdf.errInvalidParam)
  | some busNum =>
      let info := { info with busNum, deviceInfo := usbDev.descriptor.deviceInfo }
      match usbDev.actconfig with
      | none => (info, Hdf.errInvalidParam)
      | some interfaces =>
          let (interfaceInfo, ok) := fillInterfaces interfaces
          ({ info with interfaceInfo }, if ok then Hdf.success else Hdf.errInvalidParam)

/-- Whether `UsbPnpNotifyAddInitInfo` finds all it needs. -/
def UsbDevice.Complete (usbDev : UsbDevice) : Prop :=
  usbDev.bus.isSome ∧ ∃ interfaces ∈ usbDev.actconfig, none ∉ interfaces

/-! ### The interfaces of a record -/

/-- Mark each interface that is named as removed or not, by the command. -/
def markInterfaces (cmdType : Cmd) (intf : InterfaceInfo) :
    List InterfaceInfo → List Bool → List Bool
  | [], removed => removed
  | i :: rest, removed =>
      (if intf = i then decide (cmdType = .removeInterface) else removed.headD false)
        :: markInterfaces cmdType intf rest removed.tail

/-- The interfaces that are not marked as removed. -/
def presentInterfaces : List InterfaceInfo → List Bool → List InterfaceInfo
  | [], _ => []
  | i :: rest, removed =>
      if removed.headD false then presentInterfaces rest removed.tail
      else i :: presentInterfaces rest removed.tail

/-- `UsbPnpNotifyAddInterfaceInitInfo`: the record, and the interfaces of the table that is sent. -/
def addInterfaceInitInfo (cmdType : Cmd) (r : DeviceInfo) (infoData : AddRemoveInfo) :
    DeviceInfo × List InterfaceInfo :=
  let removed :=
    markInterfaces cmdType infoData.interface r.info.interfaceInfo r.interfaceRemoveStatus
  ({ r with interfaceRemoveStatus := removed },
    if cmdType = .removeInterface then [infoData.interface]
    else presentInterfaces r.info.interfaceInfo removed)

/-! ### Lemmas -/

/-- What is found is the first record that is asked for. -/
theorem findInfo_eq_some {infoList : List DeviceInfo} {query : QueryPara} {p : Place} :
  findInfo infoList query = some p
    ↔ infoList = p.put p.record ∧ query.admits p.record ∧ ∀ r ∈ p.before, ¬query.admits r
  := by
  induction infoList generalizing p with
  | nil =>
      refine iff_of_false (fun h => by cases h) ?_
      rintro ⟨h, -⟩
      exact absurd h.symm (by simp [Place.put])
  | cons r rest ih =>
      unfold findInfo
      by_cases hr : query.admits r
      · rw [if_pos hr]
        constructor
        · intro h
          obtain rfl := Option.some.inj h
          exact ⟨rfl, hr, fun _ h => absurd h List.not_mem_nil⟩
        · rintro ⟨hlist, -, hbefore⟩
          obtain ⟨before, record, after⟩ := p
          cases before with
          | nil =>
              obtain ⟨rfl, rfl⟩ := List.cons.inj hlist
              rfl
          | cons x before =>
              obtain ⟨rfl, -⟩ := List.cons.inj hlist
              apply absurd hr (hbefore r List.mem_cons_self)
      · rw [if_neg hr, Option.map_eq_some_iff]
        constructor
        · rintro ⟨q, hq, rfl⟩
          obtain ⟨rfl, hadmits, hbefore⟩ := ih.mp hq
          exact ⟨rfl, hadmits, List.forall_mem_cons.mpr ⟨hr, hbefore⟩⟩
        · rintro ⟨hlist, hadmits, hbefore⟩
          obtain ⟨before, record, after⟩ := p
          cases before with
          | nil =>
              obtain ⟨rfl, -⟩ := List.cons.inj hlist
              apply absurd hadmits hr
          | cons x before =>
              obtain ⟨rfl, hrest⟩ := List.cons.inj hlist
              refine ⟨⟨before, record, after⟩, ih.mpr ⟨hrest, hadmits, ?_⟩, rfl⟩
              exact fun y hy => hbefore y (List.mem_cons_of_mem _ hy)

/-- What is found is found again after it was changed. -/
theorem findInfo_put {infoList : List DeviceInfo} {query : QueryPara} {p : Place}
    (h : findInfo infoList query = some p) {r : DeviceInfo} (hadmits : query.admits r) :
  findInfo (p.put r) query = some { p with record := r }
  := by
  obtain ⟨-, -, hbefore⟩ := findInfo_eq_some.mp h
  exact findInfo_eq_some.mpr ⟨rfl, hadmits, hbefore⟩

/-- Nothing is found if no record is asked for. -/
theorem findInfo_eq_none {infoList : List DeviceInfo} {query : QueryPara} :
  findInfo infoList query = none ↔ ∀ r ∈ infoList, ¬query.admits r
  := by
  induction infoList with
  | nil => simp [findInfo]
  | cons r rest ih =>
      unfold findInfo
      by_cases hr : query.admits r
      · simp [hr]
      · rw [if_neg hr, Option.map_eq_none_iff, ih, List.forall_mem_cons, and_iff_right hr]

@[simp] theorem addInitInfo_usbDevAddr (info : MatchInfoTable) (usbDev : UsbDevice) :
  (addInitInfo info usbDev).1.usbDevAddr = usbDev.addr
  := by
  unfold addInitInfo
  cases usbDev.bus with
  | none => rfl
  | some busNum =>
      cases usbDev.actconfig with
      | none => rfl
      | some interfaces => rfl

@[simp] theorem addInitInfo_devNum (info : MatchInfoTable) (usbDev : UsbDevice) :
  (addInitInfo info usbDev).1.devNum = usbDev.devnum
  := by
  unfold addInitInfo
  cases usbDev.bus with
  | none => rfl
  | some busNum =>
      cases usbDev.actconfig with
      | none => rfl
      | some interfaces => rfl

@[simp] theorem addInitInfo_busNum (info : MatchInfoTable) (usbDev : UsbDevice) :
  (addInitInfo info usbDev).1.busNum = usbDev.bus.getD info.busNum
  := by
  unfold addInitInfo
  cases usbDev.bus with
  | none => rfl
  | some busNum =>
      cases usbDev.actconfig with
      | none => rfl
      | some interfaces => rfl

/-- The interfaces can be taken over if none is missing. -/
theorem fillInterfaces_eq_true (interfaces : List (Option InterfaceInfo)) :
  (fillInterfaces interfaces).2 = true ↔ none ∉ interfaces
  := by
  induction interfaces with
  | nil => simp [fillInterfaces]
  | cons intf rest ih =>
      cases intf with
      | none => simp [fillInterfaces]
      | some intf => simpa [fillInterfaces] using ih

/-- A record can be filled from a device that is complete. -/
theorem addInitInfo_eq_success (info : MatchInfoTable) (usbDev : UsbDevice) :
  (addInitInfo info usbDev).2 = Hdf.success ↔ usbDev.Complete
  := by
  unfold addInitInfo UsbDevice.Complete
  cases usbDev.bus with
  | none => simp [Hdf.errInvalidParam, Hdf.success]
  | some busNum =>
      cases usbDev.actconfig with
      | none => simp [Hdf.errInvalidParam, Hdf.success]
      | some interfaces =>
          simp only [Option.isSome_some, true_and, Option.mem_some_iff, exists_eq_left']
          rw [← fillInterfaces_eq_true]
          cases (fillInterfaces interfaces).2 with
          | false => simp [Hdf.errInvalidParam, Hdf.success]
          | true => simp

end Pnp
