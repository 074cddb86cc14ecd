import KhdfLinux.Usb.FfsData

/-!
# Binding a function

`ffsFuncBind` binds a function to a configuration.  It copies the descriptors, which were
accepted before, into a chunk of memory, and walks over them again: once for each speed, to
claim endpoints, once more over all of them, to number interfaces, strings and endpoints, and
then over the OS descriptors.  At the end some class descriptors are patched.

The walks change the copy while they read it.  Which speed a walk is about is told from the
pointers to the arrays of descriptors, which a bind that fails leaves as they are.
-/

namespace Ffs

open Bytes Exec Heap

/-! ### The configuration -/

/-- What `usb_ep_autoconfig` finds for a descriptor: an endpoint, and the address and the
packet size it writes into the descriptor. -/
structure EpConfig where
  ep : Nat
  bEndpointAddress : UInt8
  wMaxPacketSize : Nat
  deriving DecidableEq, Repr

/-- The configuration and the gadget of a bind.  `autoconfig` finds an endpoint for the bytes of
a descriptor, given the endpoints the bind has claimed before; `interfaceId` is what the calls
of `usb_interface_id` return, one after the other, and `stringId` are the ids of the strings. -/
structure UsbConfig where
  useOsString : Bool
  kzalloc : Bool
  autoconfig : List Nat → Bytes → Option EpConfig
  allocRequest : Nat → Bool
  interfaceId : Nat → Int
  stringId : Nat → UInt8

/-! ### The function -/

/-- The speeds, in the order of `ffs_ep.descs`. -/
inductive Speed where
  | full
  | high
  | super
  deriving DecidableEq, Repr

/-- `struct ffs_ep`; a descriptor is given by its position in the copy. -/
structure FfsEp where
  ep : Option Nat
  req : Bool
  descs : Speed → Option Nat
  num : UInt8

/-- An array of pointers to descriptors, in a chunk. -/
structure DescArray where
  size : Nat
  desc : Nat → Option Nat

/-- `struct usb_os_desc_table`, with the `usb_os_desc` it points to. -/
structure OsDescTable where
  ifId : Int
  extCompatId : Bytes
  extPropLen : Nat
  extPropCount : Nat
  deriving DecidableEq, Repr

/-- `struct usb_os_desc_ext_prop`, on the list of the interface given. -/
structure ExtProp where
  interface : Nat
  type : Nat
  nameLen : Nat
  name : Bytes
  dataLen : Nat
  data : Bytes
  deriving DecidableEq, Repr

/-- A call of the callback for OS descriptors, with what it returned. -/
structure OsCall where
  type : OsDescType
  h : Nat
  data : Nat
  len : Nat
  ret : Nat
  deriving DecidableEq, Repr

/-- The function that is bound.  The chunks are numbered; `live` are those that were not freed,
`descArrays` are the arrays of descriptors in each, and `descriptors` are the pointers
`fs_descriptors`, `hs_descriptors` and `ss_descriptors`, which say in which chunk the array is.
The other items are those of the chunk of `eps`; `extPropAvail`, `nameAvail` and `dataAvail` are
the positions of the cursors.  `claimed` are the endpoints the bind has claimed, `ids` is the
number of interface ids it was given, and `bound` tells if the event `BIND` was queued.  `osCalls`
and `patched` are there for the statements: the calls of the callback for OS descriptors, and the
bytes that were touched in patching, each given by the descriptor and the index in it. -/
structure BindState where
  ffs : FfsData
  next : Nat
  live : List Nat
  descArrays : Nat → Speed → DescArray
  descriptors : Speed → Option Nat
  eps : List FfsEp
  epsRevmap : Nat → Nat
  interfacesNums : Nat → Int
  osDescTable : Nat → OsDescTable
  osDescN : Nat
  extProps : List ExtProp
  extPropAvail : Nat
  nameAvail : Nat
  dataAvail : Nat
  claimed : List Nat
  ids : Nat
  osCalls : List OsCall
  patched : List (Nat × Nat)
  bound : Bool

/-- A function that was never bound. -/
def bindStateNew (ffs : FfsData) : BindState where
  ffs := ffs
  next := 0
  live := []
  descArrays _ _ := ⟨0, fun _ => none⟩
  descriptors _ := none
  eps := []
  epsRevmap _ := 0
  interfacesNums _ := 0
  osDescTable _ := ⟨0, [], 0, 0⟩
  osDescN := 0
  extProps := []
  extPropAvail := 0
  nameAvail := 0
  dataAvail := 0
  claimed := []
  ids := 0
  osCalls := []
  patched := []
  bound := false

/-- `fs_descs_count`, `hs_descs_count` and `ss_descs_count`. -/
def FfsData.descsCount (ffs : FfsData) : Speed → Nat
  | .full => ffs.fsDescsCount
  | .high => ffs.hsDescsCount
  | .super => ffs.ssDescsCount

/-- The executions of a bind. -/
abbrev BindExec (α : Type) := Exec (Heap BindState) α

/-- Follow a pointer. -/
def deref {α : Type} (p : Option α) : BindExec α :=
  match p with
  | some a => pure a
  | none => stop (.fault .nullDeref)

/-- Access the cell `i` of an array. -/
def checkIndex (i size : Nat) : BindExec Unit :=
  if i < size then pure () else stop (.fault .outOfBounds)

/-- `memcpy_s` and `memset_s`: the code they return for the sizes given. -/
def memS (destMax count : Nat) : Int := if destMax = 0 ∨ destMax < count then erange else 0

/-- The bytes `memcpy_s` copies. -/
def readBytes : (n p : Nat) → BindExec Bytes
  | 0, _ => pure []
  | n + 1, p => do
      let b ← read8 p
      let bs ← readBytes n (p + 1)
      pure (b :: bs)

/-- Write the little-endian word of 16 bits at position `p`. -/
def write16 (p v : Nat) : BindExec Unit := do
  write8 p (UInt8.ofNat v)
  write8 (p + 1) (UInt8.ofNat (v / 256))

namespace BindState

/-- The speed the next descriptor is taken to be of. -/
def readingSpeed (func : BindState) : Speed :=
  if (func.descriptors .super).isSome then .super
  else if (func.descriptors .high).isSome then .high
  else .full

/-- Put a descriptor into an array. -/
def setDesc (chunk : Nat) (speed : Speed) (i : Nat) (desc : Option Nat) (func : BindState) :
    BindState :=
  let array := func.descArrays chunk speed
  { func with
    descArrays := Function.update func.descArrays chunk (Function.update (func.descArrays chunk)
      speed ⟨array.size, Function.update array.desc i desc⟩) }

/-- Change an endpoint. -/
def setEp (idx : Nat) (f : FfsEp → FfsEp) (func : BindState) : BindState :=
  { func with eps := func.eps.modify idx f }

/-- Set `eps_revmap` for an endpoint address. -/
def setRevmap (addr : UInt8) (num : Nat) (func : BindState) : BindState :=
  { func with
    epsRevmap := Function.update func.epsRevmap (addr &&& usbEndpointNumberMask).toNat num }

/-- Change the entry of an interface in the table of OS descriptors. -/
def modifyTable (interface : Nat) (f : OsDescTable → OsDescTable) (func : BindState) : BindState :=
  { func with
    osDescTable := Function.update func.osDescTable interface (f (func.osDescTable interface)) }

end BindState

/-! ### The callbacks -/

/-- `ffs_ep_addr2idx`. -/
def ffsEpAddr2idx (ffs : FfsData) (addr : UInt8) : Option Nat :=
  (List.range' 1 (ffsMaxEpsCount - 1)).find? fun i => ffs.addrAt i = addr

/-- Claim an endpoint for the descriptor `ds` of the endpoint `idx`. -/
def claimEp (c : UsbConfig) (idx ds : Nat) : BindExec Unit := do
  let bEndpointAddress ← read8 (ds + 2)
  let length ← UInt8.toNat <$> read8 ds
  let bytes ← readBytes length ds
  let func ← look
  match c.autoconfig func.claimed bytes with
  | none => stop (.ret (-enotsupp))
  | some config =>
      write8 (ds + 2) config.bEndpointAddress
      write16 (ds + 4) config.wMaxPacketSize
      update fun func => { func with claimed := config.ep :: func.claimed }
      if ¬c.allocRequest config.ep then
        stop (.ret (-enomem))
      else
        update (BindState.setEp idx fun ep => { ep with ep := some config.ep, req := true })
        update (BindState.setRevmap config.bEndpointAddress (idx + 1))
        if hasFlag func.ffs.userFlags functionfsVirtualAddr then
          write8 (ds + 2) bEndpointAddress

/-- Take the address of the full-speed descriptor over, and its packet size if there is none. -/
def shareEp (ep : FfsEp) (ds : Nat) : BindExec Unit := do
  let desc ← deref (ep.descs .full)
  let bEndpointAddress ← read8 (desc + 2)
  write8 (ds + 2) bEndpointAddress
  let wMaxPacketSize ← read16 (ds + 4)
  if wMaxPacketSize = 0 then
    let wMaxPacketSize ← read16 (desc + 4)
    write16 (ds + 4) wMaxPacketSize

/-- The endpoint part of `__ffs_func_bind_do_descs`, for the endpoint descriptor at `ds`. -/
def bindEpDesc (c : UsbConfig) (speed : Speed) (ds : Nat) : BindExec Unit := do
  let func ← look
  let addr ← read8 (ds + 2)
  match ffsEpAddr2idx func.ffs addr with
  -- `-ENOENT` is lowered by one, too
  | none => stop (.ret (-enoent - 1))
  | some i =>
      let idx := i - 1
      checkIndex idx func.eps.length
      let ep ← deref func.eps[idx]?
      if (ep.descs speed).isSome then
        stop (.ret (-einval))
      else
        update (BindState.setEp idx fun ep =>
          { ep with descs := Function.update ep.descs speed (some ds) })
        if ep.ep.isSome then
          shareEp { ep with descs := Function.update ep.descs speed (some ds) } ds
        else
          claimEp c idx ds

/-- `__ffs_func_bind_do_descs`. -/
def ffsFuncBindDoDescs (c : UsbConfig) : EntityCallback BindState
  | .descriptor num desc => do
      let func ← look
      let speed := func.readingSpeed
      let chunk ← deref (func.descriptors speed)
      checkIndex num (func.descArrays chunk speed).size
      update (BindState.setDesc chunk speed num desc)
      match desc with
      | none => pure ()
      | some ds =>
          let bDescriptorType ← read8 (ds + 1)
          if bDescriptorType = usbDtEndpoint then
            bindEpDesc c speed ds
  | _ => pure ()

/-- `__ffs_func_bind_do_nums`. -/
def ffsFuncBindDoNums (c : UsbConfig) : EntityCallback BindState
  | .descriptor _ _ => pure ()
  | .interface valuep _ => do
      let idx ← UInt8.toNat <$> read8 valuep
      let func ← look
      checkIndex idx func.ffs.interfacesCount
      if func.interfacesNums idx < 0 then
        let id := c.interfaceId func.ids
        if id < 0 then
          stop (.ret id)
        else
          update fun func =>
            { func with
              ids := func.ids + 1
              interfacesNums := Function.update func.interfacesNums idx id }
      let func ← look
      write8 valuep (UInt8.ofNat (u8 (func.interfacesNums idx)))
  | .string valuep _ => do
      let value ← UInt8.toNat <$> read8 valuep
      write8 valuep (c.stringId (value - 1))
  | .endpoint valuep desc => do
      let bDescriptorType ← read8 (desc + 1)
      if bDescriptorType ≠ usbDtEndpoint then
        let value ← read8 valuep
        let func ← look
        let ep ← deref func.eps[(value &&& usbEndpointNumberMask).toNat - 1]?
        if ep.ep.isNone then
          stop (.ret (-einval))
        else
          let desc ← deref (ep.descs (if (ep.descs .full).isSome then .full else .high))
          let newValue ← read8 (desc + 2)
          write8 valuep newValue

/-- Is the data of a property reported as wide characters? -/
def isUnicodeProp (type : Nat) : Bool :=
  type = usbExtPropUnicode ∨ type = usbExtPropUnicodeEnv ∨ type = usbExtPropUnicodeLink
    ∨ type = usbExtPropUnicodeMulti

/-- Link a property, which was stored, to its interface. -/
def linkProp (prop : ExtProp) (func : BindState) : BindState :=
  { func with extProps := func.extProps ++ [prop] }.modifyTable prop.interface fun t =>
    { t with
      extPropLen := t.extPropLen + (prop.nameLen + prop.dataLen + 14)
      extPropCount := t.extPropCount + 1 }

/-- Set the interface id of an OS descriptor. -/
def setIfId (interface : Nat) (func : BindState) : BindState :=
  func.modifyTable interface fun t => { t with ifId := func.interfacesNums interface }

/-- `__ffs_func_bind_do_os_desc`. -/
def ffsFuncBindDoOsDesc : OsDescCallback BindState
  | .extCompat, _, data, _ => do
      let bFirstInterfaceNumber ← UInt8.toNat <$> read8 data
      let func ← look
      checkIndex bFirstInterfaceNumber func.ffs.interfacesCount
      update (setIfId bFirstInterfaceNumber)
      -- the id has 16 bytes, as has the space for it
      let extCompatId ← readBytes 16 (data + 2)
      update (BindState.modifyTable bFirstInterfaceNumber fun t => { t with extCompatId })
      pure usbExtCompatDescSize
  | .extProp, h, data, _ => do
      let interface ← UInt8.toNat <$> read8 h
      let func ← look
      checkIndex interface func.ffs.interfacesCount
      update (setIfId interface)
      checkIndex func.extPropAvail func.ffs.msOsDescsExtPropCount
      update fun func => { func with extPropAvail := func.extPropAvail + 1 }
      let type ← read32 (data + 4)
      let nameLen ← read16 (data + 8)
      let dataLen ← read32 (data + 10 + nameLen)
      let length := u8 (nameLen + dataLen + 14)
      update fun func =>
        { func with
          nameAvail := func.nameAvail + nameLen
          dataAvail := func.dataAvail + dataLen }
      if memS dataLen dataLen ≠ 0 then
        pure (memS dataLen dataLen).toNat
      else
        checkIndex (func.dataAvail + dataLen - 1) func.ffs.msOsDescsExtPropDataLen
        let bytes ← readBytes dataLen (data + 14 + nameLen)
        if memS nameLen nameLen ≠ 0 then
          pure (memS nameLen nameLen).toNat
        else
          checkIndex (func.nameAvail + nameLen - 1) func.ffs.msOsDescsExtPropNameLen
          let name ← readBytes nameLen (data + 10)
          update (linkProp
            { interface
              type := type % 256
              nameLen := nameLen * 2
              name
              dataLen := if isUnicodeProp (type % 256) then dataLen * 2 else dataLen
              data := bytes })
          pure length

/-- The callback for OS descriptors, with its calls noted. -/
def noteOsCalls (entity : OsDescCallback BindState) : OsDescCallback BindState :=
  fun type h data len => do
    let ret ← entity type h data len
    update fun func => { func with osCalls := func.osCalls ++ [⟨type, h, data, len, ret⟩] }
    pure ret

/-! ### Patching -/

/-- Note that byte `k` of the descriptor at `desc` is touched. -/
def touch (desc k : Nat) : BindExec Unit :=
  update fun func => { func with patched := (desc, k) :: func.patched }

/-- Read byte `k` of the descriptor at `desc`. -/
def getField (desc k : Nat) : BindExec UInt8 := do
  touch desc k
  read8 (desc + k)

/-- Write byte `k` of the descriptor at `desc`. -/
def setField (desc k : Nat) (v : UInt8) : BindExec Unit := do
  touch desc k
  write8 (desc + k) v

/-- Entry `i` of the array of a speed. -/
def descHead (speed : Speed) (i : Nat) : BindExec Nat := do
  let func ← look
  let chunk ← deref (func.descriptors speed)
  checkIndex i (func.descArrays chunk speed).size
  deref ((func.descArrays chunk speed).desc i)

/-- Look for `intf_ctl` and `intf_data` among the `n` full-speed descriptors from number `i`
on: the first two interfaces that have endpoints. -/
def findIntfs : (n i : Nat) → (ctl : Option Nat) → BindExec (Option Nat × Option Nat)
  | 0, _, ctl => pure (ctl, none)
  | n + 1, i, ctl => do
      let desc ← descHead .full i
      let bDescriptorType ← getField desc 1
      if bDescriptorType = usbDtInterface then
        let bNumEndpoints ← getField desc 4
        if 0 < bNumEndpoints then
          match ctl with
          | none => findIntfs n (i + 1) (some desc)
          | some ctl => pure (some ctl, some desc)
        else
          findIntfs n (i + 1) ctl
      else
        findIntfs n (i + 1) ctl

/-- Patch the descriptor at `desc`. -/
def patchDesc (ctl data : Option Nat) (desc : Nat) : BindExec Unit := do
  let bDescriptorType ← getField desc 1
  if bDescriptorType = usbDtInterfaceAssociation then
    let bInterfaceNumber ← getField (← deref ctl) 2
    setField desc 2 bInterfaceNumber
  else if bDescriptorType = usbDtCsInterface then
    let bDescriptorSubType ← getField desc 2
    if bDescriptorSubType = usbCdcCallManagementType then
      let bInterfaceNumber ← getField (← deref data) 2
      setField desc 4 bInterfaceNumber
    else if bDescriptorSubType = usbCdcUnionType then
      let bInterfaceNumber ← getField (← deref ctl) 2
      setField desc 3 bInterfaceNumber
      let bInterfaceNumber ← getField (← deref data) 2
      setField desc 4 bInterfaceNumber
    else if bDescriptorSubType = usbCdcEthernetType then
      let iInterface ← getField (← deref ctl) 8
      setField desc 3 (iInterface + 1)

/-- Patch the `n` descriptors of a speed from number `i` on. -/
def patchDescs (speed : Speed) (ctl data : Option Nat) : (n i : Nat) → BindExec Unit
  | 0, _ => pure ()
  | n + 1, i => do
      let desc ← descHead speed i
      patchDesc ctl data desc
      patchDescs speed ctl data n (i + 1)

/-! ### The bind -/

namespace BindState

/-- The chunk, as `kzalloc` returns it, with the cursors set. -/
def allocChunk (func : BindState) : BindState :=
  { func with
    next := func.next + 1
    live := func.next :: func.live
    descArrays := Function.update func.descArrays func.next fun speed =>
      -- the number of pointers is a word of 32 bits
      ⟨if func.ffs.descsCount speed = 0 then 0 else u32 (func.ffs.descsCount speed + 1),
        fun _ => none⟩
    extPropAvail := 0
    nameAvail := 0
    dataAvail := 0
    claimed := []
    ids := 0
    osCalls := []
    patched := [] }

/-- Save the pointers to the endpoints and the interface numbers of the chunk. -/
def savePointers (func : BindState) : BindState :=
  { func with
    eps := List.replicate func.ffs.epsCount ⟨none, false, fun _ => none, 255⟩
    interfacesNums := fun _ => -1
    osDescTable := fun _ => ⟨0, [], 0, 0⟩
    extProps := [] }

/-- Set the pointer to the descriptors of a speed, in the chunk allocated last. -/
def setDescriptors (speed : Speed) (func : BindState) : BindState :=
  { func with descriptors := Function.update func.descriptors speed (some (func.next - 1)) }

end BindState

/-- The descriptors that are copied. -/
def FfsData.rawDescsBytes (ffs : FfsData) : Bytes :=
  (ffs.rawDescsData.drop ffs.rawDescs).take ffs.rawDescsLength

/-- The walk over the `count` descriptors of a speed, at `data`.  The result is the number of
bytes they take. -/
def bindSpeed (c : UsbConfig) (speed : Speed) (count data : Nat) : BindExec Nat := do
  if count = 0 then
    pure 0
  else
    update (BindState.setDescriptors speed)
    let func ← look
    ffsDoDescs count data (u32 ((func.ffs.rawDescsLength : Int) - data)) (ffsFuncBindDoDescs c)

/-- What comes before the walks: the chunk, the copy of the descriptors, and the pointers. -/
def bindStart (c : UsbConfig) : BindExec Unit := do
  let func ← look
  let ffs := func.ffs
  if ffs.fsDescsCount = 0 ∧ ffs.hsDescsCount = 0 ∧ ffs.ssDescsCount = 0 then
    stop (.ret (-enotsupp))
  else if ¬c.kzalloc then
    stop (.ret (-enomem))
  else
    update BindState.allocChunk
    if memS ffs.rawDescsLength ffs.rawDescsLength ≠ 0 then
      stop (.ret (memS ffs.rawDescsLength ffs.rawDescsLength))
    else
      modify fun s => { s with mem := ffs.rawDescsBytes }
      if memS (2 * ffs.interfacesCount) (2 * ffs.interfacesCount) ≠ 0 then
        stop (.ret (memS (2 * ffs.interfacesCount) (2 * ffs.interfacesCount)))
      else
        update BindState.savePointers

/-- The walks over the descriptors: one for each speed, and one over all of them.  The result are
the numbers of bytes the speeds take. -/
def bindDescs (c : UsbConfig) : BindExec (Nat × Nat × Nat) := do
  let func ← look
  let ffs := func.ffs
  let fsLen ← bindSpeed c .full ffs.fsDescsCount 0
  let hsLen ← bindSpeed c .high ffs.hsDescsCount fsLen
  let ssLen ← bindSpeed c .super ffs.ssDescsCount (fsLen + hsLen)
  let _ ← ffsDoDescs (u32 (ffs.fsDescsCount + ffs.hsDescsCount + ffs.ssDescsCount)) 0
    ffs.rawDescsLength (ffsFuncBindDoNums c)
  pure (fsLen, hsLen, ssLen)

/-- The walk over the OS descriptors, at `data`. -/
def bindOsDescs (c : UsbConfig) (data : Nat) : BindExec Unit := do
  let func ← look
  if c.useOsString then
    let _ ← ffsDoOsDescs func.ffs.msOsDescsCount data
      (u32 ((func.ffs.rawDescsLength : Int) - data)) (noteOsCalls ffsFuncBindDoOsDesc)
  update fun func =>
    { func with osDescN := if c.useOsString then func.ffs.interfacesCount else 0 }

/-- All that comes before the patches. -/
def bindPasses (c : UsbConfig) : BindExec (Nat × Nat × Nat) := do
  bindStart c
  let (fsLen, hsLen, ssLen) ← bindDescs c
  bindOsDescs c (fsLen + hsLen + ssLen)
  pure (fsLen, hsLen, ssLen)

/-- The patches. -/
def patchFunc : BindExec Unit := do
  let func ← look
  let ffs := func.ffs
  let (ctl, data) ← findIntfs ffs.fsDescsCount 0 none
  patchDescs .full ctl data ffs.fsDescsCount 0
  patchDescs .high ctl data ffs.hsDescsCount 0
  patchDescs .super ctl data ffs.ssDescsCount 0

/-- `_ffs_func_bind`. -/
def ffsFuncBind (c : UsbConfig) : BindExec Unit := do
  let _ ← bindPasses c
  patchFunc
  update fun func => { func with bound := true }

end Ffs
