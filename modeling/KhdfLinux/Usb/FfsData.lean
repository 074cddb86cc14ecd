import KhdfLinux.Usb.OsDescriptors

/-!
# Parsing descriptors

The part of `ffs_data` that is filled from the blobs user space writes, the callbacks
that validate descriptors, and `ffsDataGotDescs`, which takes a descriptor blob.
-/

namespace Ffs

open Bytes Exec Heap

/-- The part of `ffs_data` filled by `__ffs_data_got_descs`.  `rawDescsData` is the blob
taken last, `rawDescs` the position in it where the descriptors start. -/
structure FfsData where
  rawDescsData : Bytes
  rawDescs : Nat
  rawDescsLength : Nat
  fsDescsCount : Nat
  hsDescsCount : Nat
  ssDescsCount : Nat
  msOsDescsCount : Nat
  msOsDescsExtPropCount : Nat
  msOsDescsExtPropNameLen : Nat
  msOsDescsExtPropDataLen : Nat
  userFlags : Nat
  epsAddrmap : Vector UInt8 ffsMaxEpsCount
  stringsCount : Nat
  interfacesCount : Nat
  epsCount : Nat
  ffsEventfd : Option Nat
  deriving DecidableEq, Repr

/-- `eps_addrmap[i]`. -/
def FfsData.addrAt (ffs : FfsData) (i : Nat) : UInt8 := ffs.epsAddrmap[i]?.getD 0

/-- `ffs_data_new`: the zeroed `ffs_data`. -/
def ffsDataNew : FfsData where
  rawDescsData := []
  rawDescs := 0
  rawDescsLength := 0
  fsDescsCount := 0
  hsDescsCount := 0
  ssDescsCount := 0
  msOsDescsCount := 0
  msOsDescsExtPropCount := 0
  msOsDescsExtPropNameLen := 0
  msOsDescsExtPropDataLen := 0
  userFlags := 0
  epsAddrmap := Vector.replicate ffsMaxEpsCount 0
  stringsCount := 0
  interfacesCount := 0
  epsCount := 0
  ffsEventfd := none

/-- `ffs_data_reset`, on the fields above. -/
def ffsDataReset (ffs : FfsData) : FfsData :=
  { ffs with
    rawDescsData := []
    rawDescs := 0
    rawDescsLength := 0
    fsDescsCount := 0
    hsDescsCount := 0
    ssDescsCount := 0
    stringsCount := 0
    interfacesCount := 0
    epsCount := 0 }

/-- `struct ffs_desc_helper`. -/
structure FfsDescHelper where
  ffs : FfsData
  interfacesCount : Nat
  epsCount : Nat
  deriving DecidableEq, Repr

/-- No speed with an endpoint or an interface has been recorded. -/
def FfsData.Unset (ffs : FfsData) : Prop := ffs.epsCount = 0 ∧ ffs.interfacesCount = 0

instance (ffs : FfsData) : Decidable ffs.Unset := by
  unfold FfsData.Unset
  infer_instance

namespace FfsDescHelper

/-- Interfaces are numbered from zero: interface `value` makes `value + 1` of them. -/
def noteInterface (value : Nat) (helper : FfsDescHelper) : FfsDescHelper :=
  if helper.interfacesCount ≤ value then
    { helper with interfacesCount := value + 1 }
  else
    helper

/-- Strings are numbered from one. -/
def noteString (value : Nat) (helper : FfsDescHelper) : FfsDescHelper :=
  if helper.ffs.stringsCount < value then
    { helper with ffs := { helper.ffs with stringsCount := value } }
  else
    helper

/-- The address of endpoint number `eps_count` in the address map. -/
def noteAddr (addr : UInt8) (helper : FfsDescHelper) : FfsDescHelper :=
  { helper with
    ffs := { helper.ffs with
      epsAddrmap := helper.ffs.epsAddrmap.setIfInBounds helper.epsCount addr } }

end FfsDescHelper

/-- `__ffs_data_do_entity`: record the interfaces, strings and endpoints of a speed. -/
def ffsDataDoEntity : EntityCallback FfsDescHelper
  | .descriptor _ _ => pure ()
  | .interface valuep _ => do
      let value ← UInt8.toNat <$> read8 valuep
      update (FfsDescHelper.noteInterface value)
  | .string valuep _ => do
      let value ← UInt8.toNat <$> read8 valuep
      update (FfsDescHelper.noteString value)
  | .endpoint _ desc => do
      update fun helper => { helper with epsCount := helper.epsCount + 1 }
      let helper ← look
      if ffsMaxEpsCount ≤ helper.epsCount then
        stop (.ret (-einval))
      else
        let bEndpointAddress ← read8 (desc + 2)
        -- no descriptors of another speed have been recorded
        if helper.ffs.Unset then
          update (FfsDescHelper.noteAddr bEndpointAddress)
        else if helper.ffs.addrAt helper.epsCount ≠ bEndpointAddress then
          stop (.ret (-einval))

/-- Set `Reserved1` of the extended compatibility descriptor at `data` to 1. -/
def forceReserved1 (data : Nat) : Exec (Heap FfsData) Unit := do
  let reserved1 ← read8 (data + 1)
  if reserved1 ≠ 1 then
    write8 (data + 1) 1

/-- Stop with `-EINVAL` unless the `n` bytes from `p` on are zero. -/
def checkZero : (n p : Nat) → Exec (Heap FfsData) Unit
  | 0, _ => pure ()
  | n + 1, p => do
      let b ← read8 p
      if b ≠ 0 then stop (.ret (-einval)) else checkZero n (p + 1)

/-- `__ffs_data_do_os_desc`: validate an extended compatibility or an extended property
descriptor. -/
def ffsDataDoOsDesc : OsDescCallback FfsData
  | .extCompat, _, data, len => do
      let ffs ← look
      if len < usbExtCompatDescSize then
        stop (.ret (-einval))
      else
        let bFirstInterfaceNumber ← UInt8.toNat <$> read8 data
        if ffs.interfacesCount ≤ bFirstInterfaceNumber then
          stop (.ret (-einval))
        else
          forceReserved1 data
          checkZero 6 (data + 18)
          pure usbExtCompatDescSize
  | .extProp, h, data, len => do
      let ffs ← look
      if len < usbExtPropDescSize then
        stop (.ret (-einval))
      else
        let interface ← UInt8.toNat <$> read8 h
        if ffs.interfacesCount ≤ interface then
          stop (.ret (-einval))
        else
          let dwSize ← read32 data
          -- `length` is a `u8`
          let length := u8 dwSize
          if len < length then
            stop (.ret (-einval))
          else
            let type ← read32 (data + 4)
            if type < usbExtPropUnicode ∨ usbExtPropUnicodeMulti < type then
              stop (.ret (-einval))
            else
              let pnl ← read16 (data + 8)
              if length < 14 + pnl then
                stop (.ret (-einval))
              else
                let pdl ← read32 (data + 10 + pnl)
                if length ≠ u32 (14 + pnl + pdl) then
                  stop (.ret (-einval))
                else
                  update fun ffs =>
                    { ffs with
                      msOsDescsExtPropCount := u32 (ffs.msOsDescsExtPropCount + 1)
                      msOsDescsExtPropNameLen := u32 (ffs.msOsDescsExtPropNameLen + pnl * 2)
                      msOsDescsExtPropDataLen := u32 (ffs.msOsDescsExtPropDataLen + pdl) }
                  pure length

/-! ### Taking a descriptor blob

The functions below hand on the position `data` in the blob, of length `len`; the number
of bytes left is `len - data`. -/

/-- The flags a V2 blob may have. -/
def functionfsKnownFlags : Nat :=
  functionfsHasFsDesc ||| functionfsHasHsDesc ||| functionfsHasSsDesc ||| functionfsHasMsOsDesc
    ||| functionfsVirtualAddr ||| functionfsEventfd ||| functionfsAllCtrlRecip
    ||| functionfsConfig0Setup

/-- `eventfd_ctx_fdget`: the context of a file descriptor, or an error code. -/
abbrev EventfdCtxFdget := Int → Except Int Nat

/-- The flags word, and the position after it. -/
def readFlags : Exec (Heap FfsData) (Nat × Nat) := do
  let magic ← read32 0
  if magic = functionfsDescriptorsMagic then
    pure (functionfsHasFsDesc ||| functionfsHasHsDesc, 8)
  else if magic = functionfsDescriptorsMagicV2 then
    let flags ← read32 8
    update fun ffs => { ffs with userFlags := flags }
    if flags &&& (4294967295 ^^^ functionfsKnownFlags) ≠ 0 then
      stop (.ret (-enosys))
    else
      pure (flags, 12)
  else
    stop (.ret (-einval))

/-- The eventfd word, if the flags announce one: take the context, and return the position
after the word. -/
def readEventfd (fdget : EventfdCtxFdget) (flags data len : Nat) : Exec (Heap FfsData) Nat := do
  if hasFlag flags functionfsEventfd then
    if len - data < 4 then
      stop (.ret (-einval))
    else
      let fd ← read32 data
      match fdget (s32 fd) with
      | .error err =>
          update fun ffs => { ffs with ffsEventfd := none }
          stop (.ret err)
      | .ok ctx =>
          update fun ffs => { ffs with ffsEventfd := some ctx }
          pure (data + 4)
  else
    pure data

/-- A count word, if the flags announce it: the count, and the position after the word. -/
def readCount (flag flags data len : Nat) : Exec (Heap FfsData) (Nat × Nat) := do
  if hasFlag flags flag then
    if len - data < 4 then
      stop (.ret (-einval))
    else
      let count ← read32 data
      pure (count, data + 4)
  else
    pure (0, data)

/-- Record the numbers of endpoints and interfaces of a speed, or compare them with the
numbers recorded. -/
def settleSpeed (helper : FfsDescHelper) : Exec (Heap FfsData) Unit := do
  let ffs ← look
  if ffs.Unset then
    update fun ffs =>
      { ffs with epsCount := u16 helper.epsCount, interfacesCount := u16 helper.interfacesCount }
  else if ffs.epsCount ≠ helper.epsCount then
    stop (.ret (-einval))
  else if ffs.interfacesCount ≠ helper.interfacesCount then
    stop (.ret (-einval))

/-- Parse the descriptors of one speed.  The result is the position after them. -/
def readSpeed (count data len : Nat) : Exec (Heap FfsData) Nat := do
  if count = 0 then
    pure data
  else
    let r ← zoom (fun ffs => ⟨ffs, 0, 0⟩) FfsDescHelper.ffs do
      let ret ← ffsDoDescs count data (len - data) ffsDataDoEntity
      let helper ← look
      pure (ret, helper)
    settleSpeed r.2
    pure (data + r.1)

/-- Parse the OS descriptors.  The result is the position after them. -/
def readOsDescs (count data len : Nat) : Exec (Heap FfsData) Nat := do
  if count = 0 then
    pure data
  else
    let ret ← ffsDoOsDescs count data (len - data) ffsDataDoOsDesc
    pure (data + ret)

/-- The assignments at the end of `__ffs_data_got_descs`. -/
def storeDescs (rawDescs rawDescsLength fsCount hsCount ssCount osDescsCount : Nat)
    (s : Heap FfsData) : Heap FfsData :=
  { s with
    priv := { s.priv with
      rawDescsData := s.mem
      rawDescs := rawDescs
      rawDescsLength := rawDescsLength
      fsDescsCount := fsCount
      hsDescsCount := hsCount
      ssDescsCount := ssCount
      msOsDescsCount := osDescsCount } }

/-- `__ffs_data_got_descs`: parse the blob, of length `len`. -/
def ffsDataGotDescs (fdget : EventfdCtxFdget) (len : Nat) : Exec (Heap FfsData) Unit := do
  let length ← read32 4
  if length ≠ len then
    stop (.ret (-einval))
  else
    let (flags, data) ← readFlags
    let data ← readEventfd fdget flags data len
    let (fsCount, data) ← readCount functionfsHasFsDesc flags data len
    let (hsCount, data) ← readCount functionfsHasHsDesc flags data len
    let (ssCount, data) ← readCount functionfsHasSsDesc flags data len
    let (osDescsCount, rawDescs) ← readCount functionfsHasMsOsDesc flags data len
    let data ← readSpeed fsCount rawDescs len
    let data ← readSpeed hsCount data len
    let data ← readSpeed ssCount data len
    let data ← readOsDescs osDescsCount data len
    if rawDescs = data ∨ len - data ≠ 0 then
      stop (.ret (-einval))
    else
      modify (storeDescs rawDescs (data - rawDescs) fsCount hsCount ssCount osDescsCount)

end Ffs
