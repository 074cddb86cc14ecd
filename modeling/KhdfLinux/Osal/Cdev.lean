import KhdfLinux.Hdf.Base
import KhdfLinux.Lib.Index
import KhdfLinux.Lib.Names
import KhdfLinux.Lib.Run
import Mathlib.Data.Finset.Card
import Mathlib.Data.Finset.Range

/-!
# Character devices

`OsalRegisterCdev` gives a character device a minor number and a node in the class of the driver,
whose name is the last part of the path, and `OsalUnregisterCdev` takes both back.  `nodes_served`:
in every run, the nodes that are there are those that were registered and not unregistered, each
leads to its own device, and a registration is refused only for a reason outside, for a name that is
empty or taken, or because all minor numbers are in use.
-/

namespace Osal.Cdev

open Bytes Index

/-! ### Paths -/

/-- The loop of `StringRfindChar`, at the position `p`. -/
def rfindLoop (str : Bytes) (chr : UInt8) : Nat → Option Nat
  | 0 => if byteAt str 0 = chr then some 0 else none
  | p + 1 => if byteAt str (p + 1) = chr then some (p + 1) else rfindLoop str chr p

/-- `StringRfindChar`, of a string that ends with a zero byte. -/
def stringRfindChar (str : Bytes) (chr : UInt8) : Option Nat := rfindLoop str chr str.length

/-- `'/'`. -/
def slash : UInt8 := 47

/-- The name of the node of a path. -/
def nodeName (path : CString) : Bytes :=
  match stringRfindChar path.bytes slash with
  | none => path.bytes
  | some lastSlash => path.bytes.drop (lastSlash + 1)

theorem rfindLoop_eq_none {str : Bytes} {chr : UInt8} {n : Nat} (h : rfindLoop str chr n = none) :
  ∀ p ≤ n, byteAt str p ≠ chr
  := by
  induction n with
  | zero =>
      intro p hp
      obtain rfl := Nat.le_zero.mp hp
      intro heq
      rw [rfindLoop, if_pos heq] at h
      cases h
  | succ n ih =>
      rw [rfindLoop] at h
      split_ifs at h with heq
      intro p hp
      obtain rfl | hlt := Nat.eq_or_lt_of_le hp
      · exact heq
      · exact ih h p (Nat.le_of_lt_succ hlt)

theorem rfindLoop_eq_some {str : Bytes} {chr : UInt8} {n i : Nat}
    (h : rfindLoop str chr n = some i) :
  i ≤ n ∧ byteAt str i = chr ∧ ∀ p, i < p → p ≤ n → byteAt str p ≠ chr
  := by
  induction n with
  | zero =>
      rw [rfindLoop] at h
      split_ifs at h with heq
      obtain rfl := Option.some.inj h
      exact ⟨Nat.le_refl 0, heq, fun p hlt hle => by omega⟩
  | succ n ih =>
      rw [rfindLoop] at h
      split_ifs at h with heq
      · obtain rfl := Option.some.inj h
        exact ⟨Nat.le_refl _, heq, fun p hlt hle => by omega⟩
      · obtain ⟨hle, hbyte, hafter⟩ := ih h
        refine ⟨Nat.le_succ_of_le hle, hbyte, fun p hlt hp => ?_⟩
        obtain rfl | hp := Nat.eq_or_lt_of_le hp
        · exact heq
        · exact hafter p hlt (Nat.le_of_lt_succ hp)

theorem byteAt_of_lt {m : Bytes} {p : Nat} (h : p < m.length) :
  byteAt m p = m[p]
  := by
  unfold byteAt
  rw [List.getD_eq_getElem?_getD, List.getElem?_eq_getElem h, Option.getD_some]

/-- A path is a directory, if there is one, and the name of the node, which has no slash. -/
theorem nodeName_spec (path : CString) :
  slash ∉ nodeName path
    ∧ (nodeName path = path.bytes ∨ ∃ dir, path.bytes = dir ++ [slash] ++ nodeName path)
  := by
  have hnot : ∀ {m : Bytes} {k : Nat}, (∀ p, k ≤ p → p ≤ m.length → byteAt m p ≠ slash) →
      slash ∉ m.drop k := by
    intro m k hall hmem
    obtain ⟨i, hi, hget⟩ := List.mem_iff_getElem.mp hmem
    rw [List.length_drop] at hi
    rw [List.getElem_drop] at hget
    apply hall (k + i) (Nat.le_add_right k i) (by omega)
    rw [byteAt_of_lt (by omega), hget]
  unfold nodeName
  cases hfind : stringRfindChar path.bytes slash with
  | none =>
      have hall := rfindLoop_eq_none hfind
      refine ⟨?_, .inl rfl⟩
      have hdrop := hnot (m := path.bytes) (k := 0) fun p _ hp => hall p hp
      exact hdrop
  | some i =>
      obtain ⟨hle, hbyte, hafter⟩ := rfindLoop_eq_some hfind
      have hlt : i < path.bytes.length := by
        apply Nat.lt_of_le_of_ne hle
        rintro rfl
        unfold byteAt at hbyte
        rw [List.getD_eq_getElem?_getD, List.getElem?_eq_none (Nat.le_refl _)] at hbyte
        exact absurd hbyte (by decide)
      refine ⟨hnot fun p hp hlen => hafter p hp hlen, .inr ⟨path.bytes.take i, ?_⟩⟩
      have hslash : path.bytes[i] = slash := by
        rw [← byteAt_of_lt hlt, hbyte]
      rw [List.append_assoc, ← hslash, List.singleton_append, List.getElem_cons_drop,
        List.take_append_drop]

/-! ### Devices -/

/-- `HDF_MAX_CHAR_DEVICES`. -/
def hdfMaxCharDevices : Nat := 1024

/-- `-EINVAL` and `-EEXIST`, from `device_add`. -/
def devEinval : Int := -22

@[inherit_doc devEinval]
def devEexist : Int := -17

/-- `struct OsalCdev`: `dev_name` and the minor number of `devt`, if `device_add` has added the
device, `opsImpl` and `priv`. -/
structure OsalCdev where
  name : Bytes
  minor : Nat
  added : Bool
  opsImpl : Nat
  priv : Nat
  deriving DecidableEq

/-- The devices that were allocated, and the state of the driver and of the kernel:
`g_hdfClassInitted`, how often the class is registered and the numbers are allocated,
`hdf_vnode_ids`, the devices of the minor numbers, and the minor numbers of the nodes. -/
structure CdevState where
  cdevs : Nat → Option OsalCdev
  allocated : Nat
  classInitted : Bool
  classes : Nat
  regions : Nat
  ids : Finset Nat
  map : Nat → Option Nat
  nodes : Bytes → Option Nat

/-- What the kernel's functions return, where the state does not decide it. -/
structure RegisterEnv where
  classRegister : Int
  allocChrdevRegion : Int
  idaMemory : Bool
  cdevAdd : Int
  deviceAdd : Int

namespace CdevState

variable (s : CdevState)

/-- `HdfClassInit`. -/
def hdfClassInit (env : RegisterEnv) : CdevState × Int :=
  if s.classInitted then
    (s, Hdf.success)
  else if env.classRegister ≠ 0 then
    (s, env.classRegister)
  else if env.allocChrdevRegion ≠ 0 then
    -- the class is registered, and unregistered again
    (s, env.allocChrdevRegion)
  else
    ({ s with classInitted := true, classes := s.classes + 1, regions := s.regions + 1 },
      Hdf.success)

/-- `ida_simple_get` of a minor number. -/
def idaSimpleGet (env : RegisterEnv) : Option Nat :=
  if env.idaMemory then (List.range hdfMaxCharDevices).find? fun m => m ∉ s.ids else none

/-- A device is changed. -/
def setCdev (h : Nat) (c : OsalCdev) : CdevState :=
  { s with cdevs := Function.update s.cdevs h (some c) }

/-- What `device_add` returns. -/
def deviceAdd (name : Bytes) (env : RegisterEnv) : Int :=
  if name = [] then devEinval else if (s.nodes name).isSome then devEexist else env.deviceAdd

/-- `RegisterDev`, of the device `c` at `h`. -/
def registerDev (h : Nat) (c : OsalCdev) (devName : Bytes) (env : RegisterEnv) :
    CdevState × Int :=
  match s.hdfClassInit env with
  | (s, ret) =>
      if ret ≠ Hdf.success then
        (s, ret)
      else
        match s.idaSimpleGet env with
        | none => (s, Hdf.devErrNoDevice)
        | some devMinor =>
            let c := { c with name := devName, minor := devMinor }
            if env.cdevAdd ≠ 0 then
              -- `devMinor` is taken and given back
              (s.setCdev h c, env.cdevAdd)
            else if s.deviceAdd devName env ≠ 0 then
              -- `cdev_add` is undone by `cdev_del`
              (s.setCdev h c, s.deviceAdd devName env)
            else
              ({ s.setCdev h { c with added := true } with
                ids := insert devMinor s.ids
                map := Function.update s.map devMinor (some h)
                nodes := Function.update s.nodes devName (some devMinor) }, Hdf.success)

/-- `OsalRegisterCdev`. -/
def osalRegisterCdev (h : Nat) (c : OsalCdev) (path : CString) (priv : Nat) (env : RegisterEnv) :
    CdevState × Int :=
  match s.registerDev h c (nodeName path) env with
  | (s, ret) =>
      if ret = Hdf.success then
        ({ s with cdevs := Function.update s.cdevs h ((s.cdevs h).map fun c => { c with priv }) },
          ret)
      else
        (s, ret)

/-- `OsalUnregisterCdev`. -/
def osalUnregisterCdev (h : Nat) (c : OsalCdev) : CdevState :=
  { s.setCdev h { c with added := false } with
    ids := s.ids.erase c.minor
    map := Function.update s.map c.minor none
    nodes := Function.update s.nodes c.name none }

/-- `OsalAllocCdev`. -/
def osalAllocCdev (opsImpl : Nat) : CdevState :=
  { s.setCdev s.allocated ⟨[], 0, false, opsImpl, 0⟩ with allocated := s.allocated + 1 }

/-- `OsalFreeCdev`. -/
def osalFreeCdev (h : Nat) : CdevState := { s with cdevs := Function.update s.cdevs h none }

/-- The device a node leads to: the node has a minor number, and `OsalCdevOpen` and the other file
operations find the device that was added for it. -/
def openNode (name : Bytes) : Option (Nat × OsalCdev) :=
  (s.nodes name).bind fun m => (s.map m).bind fun h => (s.cdevs h).map fun c => (h, c)

end CdevState

/-- Nothing was allocated. -/
def cdevStateNew : CdevState where
  cdevs _ := none
  allocated := 0
  classInitted := false
  classes := 0
  regions := 0
  ids := ∅
  map _ := none
  nodes _ := none

/-! ### Calls -/

/-- A call of a driver.  An allocation may fail, and then does nothing. -/
inductive CdevCall where
  | alloc (opsImpl : Nat)
  | register (h : Nat) (path : CString) (priv : Nat) (env : RegisterEnv)
  | unregister (h : Nat)
  | free (h : Nat)

/-- The nodes, as the callers see them: each name with the device that was registered under it and
what is private to it. -/
abbrev Directory : Type := Bytes → Option (Nat × Nat)

/-- The devices, and the nodes that are expected. -/
structure Served where
  state : CdevState
  dir : Directory

namespace Served

/-- Nothing was allocated, and there is no node. -/
def new : Served := ⟨cdevStateNew, fun _ => none⟩

variable (s : Served)

/-- A device that is allocated is registered, if it is not; one that is registered is unregistered;
and one that is not registered is freed. -/
def Allowed (s : Served) : CdevCall → Prop
  | .alloc _ => True
  | .register h _ _ _ => ∃ c, s.state.cdevs h = some c ∧ c.added = false
  | .unregister h => ∃ c, s.state.cdevs h = some c ∧ c.added = true
  | .free h => ∃ c, s.state.cdevs h = some c ∧ c.added = false

/-- A call, of a device that is there. -/
def next (s : Served) : CdevCall → Served
  | .alloc opsImpl => { s with state := s.state.osalAllocCdev opsImpl }
  | .register h path priv env =>
      match s.state.cdevs h with
      | none => s
      | some c =>
          match s.state.osalRegisterCdev h c path priv env with
          | (state, ret) =>
              ⟨state, if ret = Hdf.success then
                Function.update s.dir (nodeName path) (some (h, priv)) else s.dir⟩
  | .unregister h =>
      match s.state.cdevs h with
      | none => s
      | some c =>
          ⟨s.state.osalUnregisterCdev h c,
            fun name => (s.dir name).filter fun node => node.1 ≠ h⟩
  | .free h => { s with state := s.state.osalFreeCdev h }

/-- The nodes lead where they should, and the kernel's objects are those of the nodes. -/
structure Exact : Prop where
  opened : ∀ name, (s.state.openNode name).map (fun node => (node.1, node.2.priv)) = s.dir name
  named : ∀ name h c, s.state.openNode name = some (h, c) → c.added ∧ c.name = name
  minors : ∀ m, m ∈ s.state.ids ↔ ∃ name, s.state.nodes name = some m
  bound : ∀ m ∈ s.state.ids, m < hdfMaxCharDevices
  classes : s.state.classes ≤ 1 ∧ s.state.regions = s.state.classes
    ∧ ((∃ name, (s.dir name).isSome) → s.state.classes = 1)

end Served

/-! ### Minor numbers -/

section Ids

variable {s : CdevState} {env : RegisterEnv} {m : Nat}

theorem idaSimpleGet_eq_some (h : s.idaSimpleGet env = some m) :
  env.idaMemory ∧ m < hdfMaxCharDevices ∧ m ∉ s.ids
  := by
  unfold CdevState.idaSimpleGet at h
  split_ifs at h with hmemory
  have hmem := List.mem_of_find?_eq_some h
  have hfree := List.find?_some h
  exact ⟨hmemory, List.mem_range.mp hmem, by simpa using hfree⟩

/-- There is a minor number exactly as long as not all are in use. -/
theorem idaSimpleGet_isSome (hbound : ∀ m ∈ s.ids, m < hdfMaxCharDevices) :
  (s.idaSimpleGet env).isSome ↔ env.idaMemory ∧ s.ids.card < hdfMaxCharDevices
  := by
  have hsub : s.ids ⊆ Finset.range hdfMaxCharDevices := fun m hm =>
    Finset.mem_range.mpr (hbound m hm)
  have hfind : ((List.range hdfMaxCharDevices).find? fun m => decide (m ∉ s.ids)).isSome
      ↔ s.ids.card < hdfMaxCharDevices := by
    rw [List.find?_isSome]
    constructor
    · rintro ⟨m, hm, hfree⟩
      have hssub : s.ids ⊂ Finset.range hdfMaxCharDevices := by
        refine (Finset.ssubset_iff_of_subset hsub).mpr ⟨m, ?_, by simpa using hfree⟩
        exact Finset.mem_range.mpr (List.mem_range.mp hm)
      simpa using Finset.card_lt_card hssub
    · intro hcard
      obtain ⟨m, hm, hfree⟩ := Finset.exists_mem_notMem_of_card_lt_card
        (s := s.ids) (t := Finset.range hdfMaxCharDevices) (by simpa using hcard)
      exact ⟨m, List.mem_range.mpr (Finset.mem_range.mp hm), by simpa using hfree⟩
  unfold CdevState.idaSimpleGet
  split_ifs with hmemory
  · rw [hfind]
    exact (and_iff_right hmemory).symm
  · simp [hmemory]

end Ids

/-! ### The invariant -/

/-- The device at a place is registered. -/
def CdevState.Added (s : CdevState) (e : Nat × OsalCdev) : Prop :=
  s.cdevs e.1 = some e.2 ∧ e.2.added = true

/-- The tables of the kernel and the expected nodes are those of the devices that are registered. -/
structure Served.Inv (s : Served) : Prop where
  nodes : Indexes s.state.Added (fun e => e.2.name) (fun e => e.2.minor) s.state.nodes
  map : Indexes s.state.Added (fun e => e.2.minor) (fun e => e.1) s.state.map
  ids : ∀ m, m ∈ s.state.ids ↔ (s.state.map m).isSome
  bound : ∀ m ∈ s.state.ids, m < hdfMaxCharDevices
  dir : Indexes s.state.Added (fun e => e.2.name) (fun e => (e.1, e.2.priv)) s.dir
  classes : s.state.classes = (if s.state.classInitted then 1 else 0)
    ∧ s.state.regions = s.state.classes
  initted : ∀ e, s.state.Added e → s.state.classInitted
  fresh : ∀ h c, s.state.cdevs h = some c → h < s.state.allocated

/-- The class is there after `HdfClassInit` succeeds, and else nothing has changed. -/
structure ClassInit (s t : CdevState) (env : RegisterEnv) (ret : Int) : Prop where
  same : t.cdevs = s.cdevs ∧ t.allocated = s.allocated ∧ t.ids = s.ids ∧ t.map = s.map
    ∧ t.nodes = s.nodes
  code : ret = Hdf.success ↔ s.classInitted ∨ env.classRegister = 0 ∧ env.allocChrdevRegion = 0
  initted : ret = Hdf.success → t.classInitted
  kept : s.classInitted → t.classInitted
  classes : s.classes = (if s.classInitted then 1 else 0) ∧ s.regions = s.classes →
    t.classes = (if t.classInitted then 1 else 0) ∧ t.regions = t.classes

theorem hdfClassInit_spec (s : CdevState) (env : RegisterEnv) :
  ClassInit s (s.hdfClassInit env).1 env (s.hdfClassInit env).2
  := by
  unfold CdevState.hdfClassInit
  by_cases hinit : s.classInitted
  · rw [if_pos hinit]
    exact ⟨⟨rfl, rfl, rfl, rfl, rfl⟩, by simp [hinit], fun _ => hinit, id, id⟩
  rw [if_neg hinit]
  by_cases hclass : env.classRegister = 0
  case neg =>
    rw [if_pos hclass]
    refine ⟨⟨rfl, rfl, rfl, rfl, rfl⟩, ?_, fun hret => absurd hret hclass, id, id⟩
    simp [hinit, hclass, Hdf.success]
  rw [if_neg (not_not.mpr hclass)]
  by_cases hregion : env.allocChrdevRegion = 0
  case neg =>
    rw [if_pos hregion]
    refine ⟨⟨rfl, rfl, rfl, rfl, rfl⟩, ?_, fun hret => absurd hret hregion, id, id⟩
    simp [hinit, hregion, Hdf.success]
  rw [if_neg (not_not.mpr hregion)]
  refine ⟨⟨rfl, rfl, rfl, rfl, rfl⟩, by simp [hclass, hregion], fun _ => rfl, fun _ => rfl, ?_⟩
  rintro ⟨hclasses, hregions⟩
  rw [if_neg hinit] at hclasses
  simp [hclasses, hregions]

namespace Served

variable {s : Served} {h : Nat} {c c' : OsalCdev} {env : RegisterEnv} {path : CString} {priv : Nat}

theorem inv_new :
  new.Inv
  := by
  have hno : ∀ e, ¬new.state.Added e := fun e hadded => nomatch hadded.1
  refine ⟨indexes_empty hno, indexes_empty hno, ?_, ?_, indexes_empty hno, ⟨rfl, rfl⟩,
    fun e hadded => absurd hadded (hno e), nofun⟩
  · exact fun m => ⟨fun hm => absurd hm (Finset.notMem_empty m), nofun⟩
  · exact fun m hm => absurd hm (Finset.notMem_empty m)

/-- Devices that are registered under one minor number, or under one name, are the same. -/
theorem Inv.unique (hs : s.Inv) {e e' : Nat × OsalCdev} (he : s.state.Added e)
    (he' : s.state.Added e') (hsame : e.2.minor = e'.2.minor ∨ e.2.name = e'.2.name) :
  e = e'
  := by
  have hplace : e.1 = e'.1 := by
    obtain hminor | hname := hsame
    · exact hs.map.val_eq he he' hminor
    · exact hs.map.val_eq he he' (hs.nodes.val_eq he he' hname)
  have hdevice : some e.2 = some e'.2 := by
    rw [← he.1, ← he'.1, hplace]
  exact Prod.ext hplace (Option.some.inj hdevice)

/-- A change of the devices that leaves those that are registered. -/
theorem Inv.of_same (hs : s.Inv) {state : CdevState}
    (hadded : ∀ e, state.Added e ↔ s.state.Added e) (hids : state.ids = s.state.ids)
    (hmap : state.map = s.state.map) (hnodes : state.nodes = s.state.nodes)
    (hclasses : state.classes = (if state.classInitted then 1 else 0)
      ∧ state.regions = state.classes)
    (hinitted : s.state.classInitted → state.classInitted)
    (hfresh : ∀ h c, state.cdevs h = some c → h < state.allocated) :
  Inv ⟨state, s.dir⟩
  := by
  refine ⟨?_, ?_, ?_, ?_, hs.dir.congr hadded, hclasses, ?_, hfresh⟩
  · rw [hnodes]
    exact hs.nodes.congr hadded
  · rw [hmap]
    exact hs.map.congr hadded
  · rw [hids, hmap]
    exact hs.ids
  · rw [hids]
    exact hs.bound
  · exact fun e he => hinitted (hs.initted e ((hadded e).mp he))

/-- The devices that are registered, after one that is not is changed, and not registered. -/
theorem added_iff_of_idle {t t' : CdevState} {v : Option OsalCdev}
    (hcdevs : t'.cdevs = Function.update t.cdevs h v)
    (hold : ∀ c, t.cdevs h = some c → c.added = false) (hnew : ∀ c, v = some c → c.added = false)
    (e : Nat × OsalCdev) :
  t'.Added e ↔ t.Added e
  := by
  obtain ⟨k, d⟩ := e
  unfold CdevState.Added
  rw [hcdevs]
  by_cases hk : k = h
  · subst hk
    simp only [Function.update_self]
    constructor
    · rintro ⟨hd, hadded⟩
      rw [hnew d hd] at hadded
      cases hadded
    · rintro ⟨hd, hadded⟩
      rw [hold d hd] at hadded
      cases hadded
  · simp only [Function.update_of_ne hk]

/-- The class is registered, or not. -/
theorem Inv.classInit (hs : s.Inv) {t : CdevState} {ret : Int}
    (ht : ClassInit s.state t env ret) :
  Inv ⟨t, s.dir⟩
  := by
  obtain ⟨hcdevs, hallocated, hids, hmap, hnodes⟩ := ht.same
  refine hs.of_same (fun e => ?_) hids hmap hnodes (ht.classes hs.classes) ht.kept ?_
  · unfold CdevState.Added
    rw [hcdevs]
  · intro h c hc
    rw [hcdevs] at hc
    rw [hallocated]
    exact hs.fresh h c hc

/-- A device that is not registered is changed. -/
theorem Inv.idle (hs : s.Inv) {v : Option OsalCdev} (hc : s.state.cdevs h = some c)
    (hidle : c.added = false) (hv : ∀ d, v = some d → d.added = false) :
  Inv ⟨{ s.state with cdevs := Function.update s.state.cdevs h v }, s.dir⟩
  := by
  refine hs.of_same ?_ rfl rfl rfl hs.classes id ?_
  · refine added_iff_of_idle (h := h) rfl (fun d hd => ?_) hv
    obtain rfl := Option.some.inj (hc.symm.trans hd)
    exact hidle
  · intro k d hd
    change Function.update s.state.cdevs h v k = some d at hd
    by_cases hk : k = h
    · rw [hk]
      exact hs.fresh h c hc
    · rw [Function.update_of_ne hk] at hd
      exact hs.fresh k d hd

/-- What a registration leaves that succeeds with the minor number `m`. -/
def registered (t : CdevState) (h : Nat) (c : OsalCdev) (name : Bytes) (priv m : Nat) :
    CdevState :=
  { t with
    cdevs := Function.update t.cdevs h (some ⟨name, m, true, c.opsImpl, priv⟩)
    ids := insert m t.ids
    map := Function.update t.map m (some h)
    nodes := Function.update t.nodes name (some m) }

/-- A device is registered. -/
theorem Inv.registered (hs : s.Inv) (hinit : s.state.classInitted)
    (hc : s.state.cdevs h = some c) (hidle : c.added = false) {m : Nat}
    (hm : m < hdfMaxCharDevices) (hfree : m ∉ s.state.ids) {name : Bytes}
    (hname : s.state.nodes name = none) (priv : Nat) :
  Inv ⟨Served.registered s.state h c name priv m, Function.update s.dir name (some (h, priv))⟩
  := by
  have hadded : ∀ e, (Served.registered s.state h c name priv m).Added e
      ↔ e = (h, ⟨name, m, true, c.opsImpl, priv⟩) ∨ s.state.Added e := by
    rintro ⟨k, d⟩
    unfold CdevState.Added Served.registered
    by_cases hk : k = h
    · subst hk
      simp only [Function.update_self]
      constructor
      · rintro ⟨hd, -⟩
        rw [Option.some.inj hd]
        exact .inl rfl
      · rintro (heq | ⟨hd, hadded⟩)
        · obtain ⟨-, rfl⟩ := Prod.mk.inj heq
          exact ⟨rfl, rfl⟩
        · obtain rfl := Option.some.inj (hc.symm.trans hd)
          rw [hidle] at hadded
          cases hadded
    · simp only [Function.update_of_ne hk]
      exact (or_iff_right fun heq => hk (Prod.mk.inj heq).1).symm
  have hmap : s.state.map m = none := by
    rw [← Option.not_isSome_iff_eq_none, ← hs.ids m]
    exact hfree
  have hdir : s.dir name = none := hs.dir.eq_none_iff.mpr (hs.nodes.eq_none_iff.mp hname)
  constructor
  · exact (hs.nodes.insert (e := (h, ⟨name, m, true, c.opsImpl, priv⟩)) hname).congr hadded
  · exact (hs.map.insert (e := (h, ⟨name, m, true, c.opsImpl, priv⟩)) hmap).congr hadded
  · exact mem_insert_iff hs.ids m h
  · intro i hi
    obtain rfl | hi := Finset.mem_insert.mp hi
    · exact hm
    · exact hs.bound i hi
  · exact (hs.dir.insert (e := (h, ⟨name, m, true, c.opsImpl, priv⟩)) hdir).congr hadded
  · exact hs.classes
  · exact fun _ _ => hinit
  · intro k d hd
    change Function.update s.state.cdevs h _ k = some d at hd
    by_cases hk : k = h
    · rw [hk]
      exact hs.fresh h c hc
    · rw [Function.update_of_ne hk] at hd
      exact hs.fresh k d hd

/-- A device is unregistered. -/
theorem Inv.unregistered (hs : s.Inv) (he : s.state.Added (h, c)) :
  Inv ⟨s.state.osalUnregisterCdev h c, fun name => (s.dir name).filter fun node => node.1 ≠ h⟩
  := by
  have hadded : ∀ e, (s.state.osalUnregisterCdev h c).Added e ↔ s.state.Added e ∧ e ≠ (h, c) := by
    rintro ⟨k, d⟩
    unfold CdevState.Added CdevState.osalUnregisterCdev CdevState.setCdev
    by_cases hk : k = h
    · subst hk
      simp only [Function.update_self]
      constructor
      · rintro ⟨hd, hadded⟩
        rw [← Option.some.inj hd] at hadded
        cases hadded
      · rintro ⟨⟨hd, -⟩, hne⟩
        rw [← Option.some.inj (he.1.symm.trans hd)] at hne
        exact absurd rfl hne
    · simp only [Function.update_of_ne hk]
      exact (and_iff_left fun heq => hk (Prod.mk.inj heq).1).symm
  have hdir : (fun name => (s.dir name).filter fun node => decide (node.1 ≠ h))
      = Function.update s.dir c.name none := by
    funext name
    by_cases hname : name = c.name
    · subst hname
      rw [hs.dir.of_mem (e := (h, c)) he, Function.update_self]
      simp
    · rw [Function.update_of_ne hname]
      cases hnode : s.dir name with
      | none => rfl
      | some node =>
          obtain ⟨e, hadd, hkey, hval⟩ := (hs.dir name node).mp hnode
          have hne : e.1 ≠ h := by
            intro heq
            have hd : e.2 = c := by
              have hsome := hadd.1
              rw [heq, he.1] at hsome
              exact (Option.some.inj hsome).symm
            change e.2.name = name at hkey
            rw [hd] at hkey
            exact hname hkey.symm
          rw [← hval]
          simp [hne]
  have honly : ∀ e, s.state.Added e →
      e.2.name = c.name ∨ e.2.minor = c.minor → e = (h, c) :=
    fun e hadd hsame => hs.unique hadd he hsame.symm
  rw [hdir]
  constructor
  · exact (hs.nodes.remove (e := (h, c)) fun e hadd hkey => honly e hadd (.inl hkey)).congr hadded
  · exact (hs.map.remove (e := (h, c)) fun e hadd hkey => honly e hadd (.inr hkey)).congr hadded
  · exact mem_erase_iff hs.ids c.minor
  · exact fun m hm => hs.bound m (Finset.mem_of_mem_erase hm)
  · exact (hs.dir.remove (e := (h, c)) fun e hadd hkey => honly e hadd (.inl hkey)).congr hadded
  · exact hs.classes
  · exact fun e hadd => hs.initted e ((hadded e).mp hadd).1
  · intro k d hd
    change Function.update s.state.cdevs h _ k = some d at hd
    by_cases hk : k = h
    · rw [hk]
      exact hs.fresh h c he.1
    · rw [Function.update_of_ne hk] at hd
      exact hs.fresh k d hd

/-- When a registration succeeds: nothing fails, the name is not empty and is free, and not all
minor numbers are in use. -/
structure Registers (s : Served) (path : CString) (env : RegisterEnv) : Prop where
  classInit : s.state.classInitted ∨ env.classRegister = 0 ∧ env.allocChrdevRegion = 0
  idaMemory : env.idaMemory
  cdevAdd : env.cdevAdd = 0
  deviceAdd : env.deviceAdd = 0
  name : nodeName path ≠ []
  free : s.dir (nodeName path) = none
  minors : s.state.ids.card < hdfMaxCharDevices

theorem deviceAdd_eq_zero {t : CdevState} {name : Bytes} :
  t.deviceAdd name env = 0 ↔ name ≠ [] ∧ t.nodes name = none ∧ env.deviceAdd = 0
  := by
  unfold CdevState.deviceAdd
  by_cases hempty : name = []
  · rw [if_pos hempty]
    simp [hempty, devEinval]
  rw [if_neg hempty]
  by_cases htaken : (t.nodes name).isSome
  · rw [if_pos htaken]
    have hne : t.nodes name ≠ none := Option.isSome_iff_ne_none.mp htaken
    simp [hne, devEexist]
  · rw [if_neg htaken]
    have hnone : t.nodes name = none := by simpa using htaken
    simp [hempty, hnone]

/-- What `RegisterDev` does: it fails and keeps the invariant, or it adds the device, if nothing is
in the way. -/
theorem Inv.registerDev (hs : s.Inv) (hc : s.state.cdevs h = some c) (hidle : c.added = false)
    (path : CString) (env : RegisterEnv) :
  (∃ t ret, s.state.registerDev h c (nodeName path) env = (t, ret) ∧ ret ≠ Hdf.success
      ∧ Inv ⟨t, s.dir⟩ ∧ ¬s.Registers path env)
    ∨ ∃ t m, s.state.registerDev h c (nodeName path) env
          = (Served.registered t h c (nodeName path) c.priv m, Hdf.success)
        ∧ (∀ priv, Inv ⟨Served.registered t h c (nodeName path) priv m,
          Function.update s.dir (nodeName path) (some (h, priv))⟩)
        ∧ s.Registers path env
  := by
  have hclass := hdfClassInit_spec s.state env
  obtain ⟨hcdevs, -, hids, hmap, hnodes⟩ := hclass.same
  have hfree : s.dir (nodeName path) = none ↔ s.state.nodes (nodeName path) = none := by
    rw [hs.dir.eq_none_iff, hs.nodes.eq_none_iff]
  unfold CdevState.registerDev
  cases hinit : s.state.hdfClassInit env with
  | mk t ret =>
      rw [hinit] at hclass hcdevs hids hmap hnodes
      have ht : Inv ⟨t, s.dir⟩ := hs.classInit hclass
      have htc : t.cdevs h = some c := (congrFun hcdevs h).trans hc
      dsimp only
      by_cases hret : ret = Hdf.success
      case neg =>
        rw [if_pos hret]
        exact .inl ⟨t, ret, rfl, hret, ht, fun hreg => hret (hclass.code.mpr hreg.classInit)⟩
      rw [if_neg (not_not.mpr hret)]
      have hminors : (t.idaSimpleGet env).isSome
          ↔ env.idaMemory ∧ t.ids.card < hdfMaxCharDevices := idaSimpleGet_isSome ht.bound
      cases hm : t.idaSimpleGet env with
      | none =>
          rw [hm] at hminors
          refine .inl ⟨t, _, rfl, by decide, ht, fun hreg => ?_⟩
          have hsome := hminors.mpr ⟨hreg.idaMemory, hids ▸ hreg.minors⟩
          cases hsome
      | some m =>
          obtain ⟨hmemory, hlt, hm'⟩ := idaSimpleGet_eq_some hm
          have hsome : (t.idaSimpleGet env).isSome := by
            rw [hm]
            rfl
          have hfailed := ht.idle (v := some { c with name := nodeName path, minor := m }) htc hidle
            fun d hd => by rw [← Option.some.inj hd]; exact hidle
          dsimp only
          by_cases hcdev : env.cdevAdd = 0
          case neg =>
            rw [if_pos hcdev]
            exact .inl ⟨_, _, rfl, hcdev, hfailed, fun hreg => hcdev hreg.cdevAdd⟩
          rw [if_neg (not_not.mpr hcdev)]
          by_cases hdevice : t.deviceAdd (nodeName path) env = 0
          case neg =>
            rw [if_pos hdevice]
            refine .inl ⟨_, _, rfl, hdevice, hfailed, fun hreg => hdevice ?_⟩
            refine deviceAdd_eq_zero.mpr ⟨hreg.name, ?_, hreg.deviceAdd⟩
            rw [hnodes]
            exact hfree.mp hreg.free
          rw [if_neg (not_not.mpr hdevice)]
          obtain ⟨hname, hnode, hadd⟩ := deviceAdd_eq_zero.mp hdevice
          refine .inr ⟨t, m, rfl,
            fun priv => ht.registered (hclass.initted hret) htc hidle hlt hm' hnode priv, ?_⟩
          refine ⟨hclass.code.mp hret, hmemory, hcdev, hadd, hname, hfree.mpr ?_, ?_⟩
          · rw [← hnodes]
            exact hnode
          · rw [← hids]
            exact (hminors.mp hsome).2

/-- A registration keeps the invariant, and succeeds exactly if nothing is in the way. -/
theorem Inv.register (hs : s.Inv) (hc : s.state.cdevs h = some c) (hidle : c.added = false)
    (path : CString) (priv : Nat) (env : RegisterEnv) :
  (s.next (.register h path priv env)).Inv
    ∧ ((s.state.osalRegisterCdev h c path priv env).2 = Hdf.success ↔ s.Registers path env)
  := by
  have hnext : s.next (.register h path priv env)
      = ⟨(s.state.osalRegisterCdev h c path priv env).1,
          if (s.state.osalRegisterCdev h c path priv env).2 = Hdf.success then
            Function.update s.dir (nodeName path) (some (h, priv)) else s.dir⟩ := by
    simp only [Served.next, hc]
  rw [hnext]
  obtain ⟨t, ret, heq, hret, hinv, hno⟩ | ⟨t, m, heq, hinv, hreg⟩ :=
    hs.registerDev hc hidle path env
  · have hcall : s.state.osalRegisterCdev h c path priv env = (t, ret) := by
      unfold CdevState.osalRegisterCdev
      rw [heq]
      exact if_neg hret
    rw [hcall]
    dsimp only
    rw [if_neg hret]
    exact ⟨hinv, fun h => absurd h hret, fun h => absurd h hno⟩
  · have hcall : s.state.osalRegisterCdev h c path priv env
        = (Served.registered t h c (nodeName path) priv m, Hdf.success) := by
      unfold CdevState.osalRegisterCdev
      rw [heq]
      dsimp only
      rw [if_pos rfl]
      simp [Served.registered]
    rw [hcall]
    dsimp only
    rw [if_pos rfl]
    exact ⟨hinv priv, fun _ => hreg, fun _ => rfl⟩

/-- A call keeps the invariant. -/
theorem Inv.step (hs : s.Inv) {call : CdevCall} (hcall : s.Allowed call) :
  (s.next call).Inv
  := by
  cases call with
  | alloc opsImpl =>
      have hnone : ∀ c, s.state.cdevs s.state.allocated = some c → c.added = false :=
        fun c hc => absurd (hs.fresh _ c hc) (Nat.lt_irrefl _)
      refine hs.of_same ?_ rfl rfl rfl hs.classes id ?_
      · refine added_iff_of_idle (h := s.state.allocated) rfl hnone fun d hd => ?_
        rw [← Option.some.inj hd]
      · intro k d hd
        change Function.update s.state.cdevs s.state.allocated _ k = some d at hd
        show k < s.state.allocated + 1
        by_cases hk : k = s.state.allocated
        · omega
        · rw [Function.update_of_ne hk] at hd
          exact Nat.lt_succ_of_lt (hs.fresh k d hd)
  | register h path priv env =>
      obtain ⟨c, hc, hidle⟩ := hcall
      exact (hs.register hc hidle path priv env).1
  | unregister h =>
      obtain ⟨c, hc, hadded⟩ := hcall
      simp only [Served.next, hc]
      exact hs.unregistered ⟨hc, hadded⟩
  | free h =>
      obtain ⟨c, hc, hidle⟩ := hcall
      exact hs.idle hc hidle nofun

/-- The nodes of the invariant lead where they should. -/
theorem Inv.exact (hs : s.Inv) :
  s.Exact
  := by
  have hopen : ∀ name e, s.state.openNode name = some e ↔ s.state.Added e ∧ e.2.name = name := by
    intro name e
    constructor
    · intro hopen
      obtain ⟨m, hm, hrest⟩ := Option.bind_eq_some_iff.mp hopen
      obtain ⟨h, hh, hrest⟩ := Option.bind_eq_some_iff.mp hrest
      obtain ⟨c, hc, rfl⟩ := Option.map_eq_some_iff.mp hrest
      obtain ⟨e, he, hname, hminor⟩ := (hs.nodes name m).mp hm
      obtain ⟨e', he', hminor', hplace⟩ := (hs.map m h).mp hh
      obtain rfl := hs.unique he he' (.inl (hminor.trans hminor'.symm))
      have hdevice : s.state.cdevs h = some e.2 := by
        rw [← hplace]
        exact he.1
      obtain rfl := Option.some.inj (hc.symm.trans hdevice)
      exact ⟨⟨hc, he.2⟩, hname⟩
    · rintro ⟨he, rfl⟩
      unfold CdevState.openNode
      have hnode := hs.nodes.of_mem he
      have hmap := hs.map.of_mem he
      rw [hnode, Option.bind_some, hmap, Option.bind_some, he.1]
      rfl
  refine ⟨fun name => ?_, fun name h c hnode => ?_, fun m => ?_, hs.bound, ?_⟩
  · cases hnode : s.state.openNode name with
    | none =>
        refine (hs.dir.eq_none_iff.mpr fun e he hname => ?_).symm
        rw [(hopen name e).mpr ⟨he, hname⟩] at hnode
        cases hnode
    | some e =>
        obtain ⟨he, hname⟩ := (hopen name e).mp hnode
        rw [← hname]
        exact (hs.dir.of_mem he).symm
  · obtain ⟨he, hname⟩ := (hopen name (h, c)).mp hnode
    exact ⟨he.2, hname⟩
  · rw [hs.ids m]
    constructor
    · intro hsome
      obtain ⟨h, hh⟩ := Option.isSome_iff_exists.mp hsome
      obtain ⟨e, he, hminor, -⟩ := (hs.map m h).mp hh
      exact ⟨e.2.name, (hs.nodes _ m).mpr ⟨e, he, rfl, hminor⟩⟩
    · rintro ⟨name, hname⟩
      obtain ⟨e, he, -, hminor⟩ := (hs.nodes name m).mp hname
      exact Option.isSome_iff_exists.mpr ⟨e.1, (hs.map m e.1).mpr ⟨e, he, hminor, rfl⟩⟩
  · obtain ⟨hclasses, hregions⟩ := hs.classes
    refine ⟨?_, hregions, ?_⟩
    · rw [hclasses]
      split <;> decide
    · rintro ⟨name, hsome⟩
      obtain ⟨node, hnode⟩ := Option.isSome_iff_exists.mp hsome
      obtain ⟨e, he, -⟩ := (hs.dir name node).mp hnode
      rw [hclasses, if_pos (hs.initted e he)]

end Served

/-! ### Runs -/

/-- In every run of calls the nodes lead to the devices that were registered under their names, and
only these have minor numbers; a registration succeeds exactly if the kernel's functions do, the
name is not empty and is free, and there is a minor number left. -/
theorem nodes_served {calls : List CdevCall}
    (hcalls : Along Served.next Served.Allowed Served.new calls) :
  (calls.foldl Served.next Served.new).Exact
    ∧ ∀ h c path priv env, (calls.foldl Served.next Served.new).state.cdevs h = some c →
      c.added = false →
      (((calls.foldl Served.next Served.new).state.osalRegisterCdev h c path priv env).2
          = Hdf.success
        ↔ (calls.foldl Served.next Served.new).Registers path env)
  := by
  have hinv : ∀ (calls : List CdevCall) (s : Served), s.Inv →
      Along Served.next Served.Allowed s calls → (calls.foldl Served.next s).Inv := by
    intro calls
    induction calls with
    | nil => exact fun s hs _ => hs
    | cons call calls ih => exact fun s hs hcalls => ih _ (hs.step hcalls.1) hcalls.2
  have hs := hinv calls _ Served.inv_new hcalls
  exact ⟨hs.exact, fun h c path priv env hc hidle => (hs.register hc hidle path priv env).2⟩

/-- The path `hdf/a`, and the name `a`. -/
def pathA : CString := ⟨[104, 100, 102, 47, 97], by decide⟩

@[inherit_doc pathA]
def nameA : CString := ⟨[97], by decide⟩

/-- Two devices are registered under one name, the second one after the first is unregistered. -/
def sameNameCalls : List CdevCall :=
  [.alloc 1, .alloc 2, .register 0 pathA 7 ⟨0, 0, true, 0, 0⟩,
    .register 1 nameA 8 ⟨0, 0, true, 0, 0⟩, .unregister 0, .register 1 nameA 8 ⟨0, 0, true, 0, 0⟩,
    .free 0]

theorem nodes_served_sameName :
  (sameNameCalls.foldl Served.next Served.new).Exact
    ∧ (sameNameCalls.foldl Served.next Served.new).dir nameA.bytes = some (1, 8)
  := by
  refine ⟨(nodes_served ?_).1, by decide +kernel⟩
  refine ⟨trivial, trivial, ⟨⟨[], 0, false, 1, 0⟩, ?_, rfl⟩, ⟨⟨[], 0, false, 2, 0⟩, ?_, rfl⟩,
    ⟨⟨[97], 0, true, 1, 7⟩, ?_, rfl⟩, ⟨⟨[97], 1, false, 2, 0⟩, ?_, rfl⟩,
    ⟨⟨[97], 0, false, 1, 7⟩, ?_, rfl⟩, trivial⟩
  all_goals decide +kernel

end Osal.Cdev
