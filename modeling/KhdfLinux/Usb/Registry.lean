import KhdfLinux.Lib.Run
import KhdfLinux.Usb.Uapi

/-!
# The registry of functions

The instances on the list `ffs_devices`, the functions `FUNCTIONFS_NEWFN` creates for them
and `FUNCTIONFS_DELFN` deletes, and the regions of device numbers these requests allocate and
unregister.  An instance and its function point to each other: from the function to the
instance since its creation, in the other direction from `ffs_ready` to `ffs_closed`.
-/

namespace Ffs

/-- `enum ffs_state`. -/
inductive FfsState where
  | readDescriptors
  | readStrings
  | active
  | deactivated
  | closing
  deriving DecidableEq, Repr

/-- `MAX_EP_DEV`. -/
def maxEpDev : Nat := 10

/-- `FUNCTION_GENERIC`, and the dot that follows it in the names of instances. -/
def functionGeneric : Bytes :=
  ['f', '_', 'g', 'e', 'n', 'e', 'r', 'i', 'c', '.'].map fun c => c.toNat.toUInt8

/-- `struct ffs_dev`, at the address `addr`; `configfs` tells if the instance is managed by
configfs, so that `ffs_closed` can unregister the gadget. -/
structure FfsDev where
  addr : Nat
  name : Bytes
  mounted : Bool
  descReady : Bool
  single : Bool
  ffsData : Option Nat
  configfs : Bool
  deriving DecidableEq, Repr

/-- The part of `struct ffs_data` these requests use, with an `id` for the allocation and the
`name` in the request that created it.  `devno` is the major number, `made` the number of
endpoint files that `ffs_epfiles_create` has made, and `gadget` tells if the pointer of that
name is set. -/
structure FuncData where
  id : Nat
  name : Bytes
  privateData : Option Nat
  devno : Nat
  state : FfsState
  made : Nat
  gadget : Bool
  deriving DecidableEq, Repr

/-- The instances, in the order of the list, the functions that were created, those deleted
since, with what they were when they were freed, the variable `g_dev`, and the major numbers
of the regions that are held. -/
structure Registry where
  devs : List FfsDev
  live : List FuncData
  gone : List FuncData
  next : Nat
  gDev : Nat
  regions : List Nat
  deriving DecidableEq, Repr

/-- How the kernel stops. -/
inductive Oops where
  | nullDeref
  | useAfterFree
  | bug
  deriving DecidableEq, Repr

namespace Registry

/-! ### Instances -/

/-- `_ffs_do_find_dev`. -/
def doFindDev (devs : List FfsDev) (name : Bytes) : Option FfsDev :=
  devs.find? fun dev => dev.name = name

/-- `_ffs_get_single_dev`. -/
def getSingleDev : List FfsDev → Option FfsDev
  | [dev] => if dev.single then some dev else none
  | _ => none

/-- `_ffs_find_dev`. -/
def findDev (s : Registry) (name : Bytes) : Option FfsDev :=
  match getSingleDev s.devs with
  | some dev => some dev
  | none => doFindDev s.devs name

theorem getSingleDev_eq_some {devs : List FfsDev} {dev : FfsDev} :
  getSingleDev devs = some dev ↔ devs = [dev] ∧ dev.single
  := by
  unfold getSingleDev
  split
  · rename_i dev'
    by_cases h : dev'.single
    · rw [if_pos h]
      constructor
      · rintro heq
        obtain rfl := Option.some.inj heq
        exact ⟨rfl, h⟩
      · rintro ⟨heq, -⟩
        rw [List.head_eq_of_cons_eq heq]
    · rw [if_neg h]
      refine iff_of_false (fun heq => by cases heq) ?_
      rintro ⟨heq, hs⟩
      exact h (List.head_eq_of_cons_eq heq ▸ hs)
  · rename_i hdevs
    exact iff_of_false (fun heq => by cases heq) fun h => hdevs dev h.1

/-- What is found is there, and has the name or is single. -/
theorem mem_of_findDev {s : Registry} {name : Bytes} {dev : FfsDev}
    (h : s.findDev name = some dev) :
  dev ∈ s.devs ∧ (dev.single ∨ dev.name = name)
  := by
  unfold findDev at h
  cases hsingle : getSingleDev s.devs with
  | none =>
      rw [hsingle] at h
      exact ⟨List.mem_of_find?_eq_some h, .inr (by simpa using List.find?_some h)⟩
  | some single =>
      rw [hsingle] at h
      obtain rfl := Option.some.inj h
      obtain ⟨hdevs, hs⟩ := getSingleDev_eq_some.mp hsingle
      exact ⟨hdevs ▸ List.mem_singleton_self _, .inl hs⟩

/-- Change what is at the address, if that is an instance. -/
def modifyDev (s : Registry) (addr : Nat) (f : FfsDev → FfsDev) : Registry :=
  { s with devs := s.devs.map fun dev => if dev.addr = addr then f dev else dev }

/-- `ffs_alloc_inst`, with the address the memory is allocated at. -/
def allocInst (s : Registry) (addr : Nat) (configfs : Bool) : Registry × Int :=
  if (getSingleDev s.devs).isSome then
    (s, -ebusy)
  else
    let dev := { addr, name := [], mounted := false, descReady := false, single := false,
                 ffsData := none, configfs }
    ({ s with devs := dev :: s.devs }, 0)

/-- `ffs_set_inst_name`. -/
def setInstName (s : Registry) (addr : Nat) (name : Bytes) : Registry × Int :=
  let nameDev := functionGeneric ++ name
  if 63 < nameDev.length then
    (s, -efault)
  else
    match doFindDev s.devs nameDev with
    | none => (s.modifyDev addr fun dev => { dev with name := nameDev }, 0)
    | some existing => (s, if existing.addr = addr then 0 else -ebusy)

/-- `ffs_single_dev_adapter`. -/
def singleDev (s : Registry) (addr : Nat) : Registry × Int :=
  match s.devs with
  | [_] => (s.modifyDev addr fun dev => { dev with single := true }, 0)
  | _ => (s, -ebusy)

/-- Change the function, if it is there. -/
def modifyData (s : Registry) (id : Nat) (f : FuncData → FuncData) : Registry :=
  { s with live := s.live.map fun ffs => if ffs.id = id then f ffs else ffs }

/-- `_ffs_free_dev`. -/
def freeDev (s : Registry) (dev : FfsDev) : Registry :=
  let t :=
    match dev.ffsData with
    | some id => s.modifyData id fun ffs => { ffs with privateData := none }
    | none => s
  { t with devs := t.devs.filter fun d => d.addr ≠ dev.addr }

/-! ### Functions -/

/-- `ffs_release_dev`. -/
def releaseDev (s : Registry) (privateData : Option Nat) : Registry :=
  match privateData with
  | some addr => s.modifyDev addr fun dev => { dev with mounted := false }
  | none => s

/-- `ffs_closed`, up to the unregistration of the gadget. -/
def closed (s : Registry) (privateData : Option Nat) : Registry :=
  match privateData with
  | some addr => s.modifyDev addr fun dev => { dev with descReady := false, ffsData := none }
  | none => s

/-- `ffs_closed` unregisters the gadget, if the function is bound: the instance is there and
managed by configfs. -/
def unregisters (s : Registry) (privateData : Option Nat) : Bool :=
  s.devs.any fun dev => some dev.addr = privateData ∧ dev.configfs

/-- `FUNCTIONFS_NEWFN`.  `prepare` is what comes of the steps before `ffs_acquire_dev`, and
`major` the major number that is allocated. -/
def newfn (s : Registry) (name : Bytes) (prepare : Int) (major : Option Nat)
    (cdevAdded deviceCreated : Bool) : Registry × Int :=
  if prepare ≠ 0 then
    (s, prepare)
  else
    match s.findDev name with
    | none => (s, -enodev)
    | some dev =>
        if dev.mounted then
          (s, -enodev)
        else
          let s := s.modifyDev dev.addr fun dev => { dev with mounted := true }
          match major with
          | none => ((s.releaseDev dev.addr).closed dev.addr, -ebusy)
          | some major =>
              let s := { s with gDev := major, regions := major :: s.regions }
              if ¬cdevAdded ∨ ¬deviceCreated then
                -- the region stays
                ((s.releaseDev dev.addr).closed dev.addr, -ebusy)
              else
                let ffs := { id := s.next, name, privateData := some dev.addr, devno := major,
                             state := .readDescriptors, made := 0, gadget := false }
                ({ s with live := ffs :: s.live, next := s.next + 1 }, 0)

/-- The function an instance is linked to. -/
def derefData (s : Registry) (dev : FfsDev) : Except Oops FuncData :=
  match dev.ffsData with
  | none => .error .nullDeref
  | some id =>
      match s.live.find? fun ffs => ffs.id = id with
      | none => .error .useAfterFree
      | some ffs => .ok ffs

/-- Unregister the region in `g_dev`, and take the function down. -/
def tearDown (s : Registry) (ffs : FuncData) : Registry :=
  let t := (s.releaseDev ffs.privateData).closed ffs.privateData
  { t with
    regions := s.regions.erase s.gDev
    live := s.live.erase ffs
    gone := ffs :: s.gone }

/-- `FUNCTIONFS_DELFN`; `newfn` is the name, if it could be copied. -/
def delfn (s : Registry) (newfn : Option Bytes) : Except Oops (Registry × Int) :=
  match newfn with
  | none => .ok (s, -efault)
  | some name =>
      match s.findDev name with
      -- `IS_ERR` does not hold of a null pointer
      | none => .error .nullDeref
      | some dev =>
          match s.derefData dev with
          | .error e => .error e
          | .ok ffs =>
              -- `BUG_ON(ffs->gadget)`
              if ffs.gadget ∧ ¬s.unregisters ffs.privateData then .error .bug
              else .ok (s.tearDown ffs, 0)

/-- The descriptors of a function are accepted. -/
def gotDescs (s : Registry) (id : Nat) : Registry :=
  s.modifyData id fun ffs =>
    if ffs.state = .readDescriptors then { ffs with state := .readStrings } else ffs

/-- `ffs_ready`, of a function that is there: the instance is linked to it, unless it is to
another one already. -/
def ffsReady (s : Registry) (ffs : FuncData) : Registry × Int :=
  match ffs.privateData with
  | none => (s, -einval)
  | some addr =>
      if s.devs.any fun dev => dev.addr = addr ∧ dev.descReady then
        (s, -ebusy)
      else
        (s.modifyDev addr fun dev => { dev with descReady := true, ffsData := some ffs.id }, 0)

/-- The strings of a function are accepted, by a write to its `ep0`, which may have been
deleted since it was opened: `ffs_epfiles_create` makes `made` files, all of them if
`complete`, and then `ffs_ready` is called. -/
def gotStrings (s : Registry) (id made : Nat) (complete : Bool) : Except Oops Registry :=
  match s.live.find? fun ffs => ffs.id = id with
  | none =>
      if s.gone.any fun ffs => ffs.id = id ∧ ffs.state = .readStrings then .error .useAfterFree
      else .ok s
  | some ffs =>
      if ffs.state ≠ .readStrings then
        .ok s
      else if ¬complete then
        .ok (s.modifyData id fun ffs => { ffs with state := .closing, made })
      else
        let (t, ret) := s.ffsReady ffs
        .ok (t.modifyData id fun ffs =>
          { ffs with state := if ret < 0 then .closing else .active, made })

/-- `ffs_do_functionfs_bind` for the first function of the instance. -/
def bind (s : Registry) (dev : FfsDev) : Except Oops (Registry × Int) :=
  if ¬dev.descReady then
    .ok (s, -enodev)
  else
    match s.derefData dev with
    | .error e => .error e
    | .ok ffs =>
        if ffs.state ≠ .active ∨ ffs.gadget then .ok (s, -ebadfd)
        else .ok (s.modifyData ffs.id fun ffs => { ffs with gadget := true }, 0)

end Registry

/-- What happens to the registry. -/
inductive RegAct where
  /-- `ffs_alloc_inst`; the address is not in use. -/
  | allocInst (addr : Nat) (configfs : Bool)
  | setInstName (addr : Nat) (name : Bytes)
  | singleDev (addr : Nat)
  /-- `ffs_free_inst`. -/
  | freeInst (addr : Nat)
  /-- `FUNCTIONFS_NEWFN`; the major number is not in use. -/
  | newfn (name : Bytes) (prepare : Int) (major : Option Nat) (cdevAdded deviceCreated : Bool)
  | delfn (newfn : Option Bytes)
  | gotDescs (id : Nat)
  | gotStrings (id made : Nat) (complete : Bool)
  /-- The first function of the instance is bound. -/
  | bind (addr : Nat)
  /-- `functionfs_unbind`. -/
  | unbind (id : Nat)
  deriving DecidableEq, Repr

namespace Registry

/-- The next state of the registry, if the step is possible and does not stop the kernel. -/
def step (s : Registry) : RegAct → Option Registry
  | .allocInst addr configfs =>
      if s.devs.any fun dev => dev.addr = addr then none else some (s.allocInst addr configfs).1
  | .setInstName addr name => some (s.setInstName addr name).1
  | .singleDev addr => some (s.singleDev addr).1
  | .freeInst addr => (s.devs.find? fun dev => dev.addr = addr).map s.freeDev
  | .newfn name prepare major cdevAdded deviceCreated =>
      if ∃ m ∈ major, m ∈ s.regions then none
      else some (s.newfn name prepare major cdevAdded deviceCreated).1
  | .delfn newfn => (s.delfn newfn).toOption.map Prod.fst
  | .gotDescs id => some (s.gotDescs id)
  | .gotStrings id made complete => (s.gotStrings id made complete).toOption
  | .bind addr =>
      (s.devs.find? fun dev => dev.addr = addr).bind fun dev =>
        (s.bind dev).toOption.map Prod.fst
  | .unbind id => some (s.modifyData id fun ffs => { ffs with gadget := false })

end Registry

/-- The registry of a driver that was just loaded. -/
def registryNew : Registry where
  devs := []
  live := []
  gone := []
  next := 0
  gDev := 0
  regions := []

end Ffs
