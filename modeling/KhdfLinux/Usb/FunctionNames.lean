import KhdfLinux.Usb.Deletion
import KhdfLinux.Usb.DevList
import KhdfLinux.Usb.EpfileCreation
import KhdfLinux.Usb.FuncBind

/-!
# The names of functions

`FUNCTIONFS_NEWFN` and `FUNCTIONFS_DELFN` take an array with a name and a number of bytes, and use
the array both as these bytes and as a string that a zero byte ends.  `functionName_iff`: the name
is handled within bounds, is the same wherever it is used, and a request that fails changes nothing,
exactly if the array has a zero byte, the number is at most 64, and once an instance is acquired
and the region allocated, all steps succeed and the number does not cut the string.
-/

namespace Ffs

open Bytes Exec

/-- `struct FuncNew`. -/
structure FuncNew where
  nameLen : UInt32
  name : Bytes
  length : name.length = maxNamelen

/-- What the kernel's functions do for a request: `copied` tells if the structure is copied from
user space, `memory` if there is memory for the `ffs_data` and its workqueue, `workqueue` if the
workqueue is created then, and `refused` if the callback of the instance, where it has one, fails;
`major` is the major number that is allocated. -/
structure NewfnEnv where
  copied : Bool
  memory : Bool
  workqueue : Bool
  refused : Bool
  major : Option Nat
  cdevAdded : Bool
  deviceCreated : Bool
  deriving DecidableEq, Repr

/-- A function that is created: the instance in `private_data`, `dev_name`, and the name of the
device node of `ep0`. -/
structure CreatedFunc where
  addr : Nat
  devName : Bytes
  nameEp0 : Bytes
  deriving DecidableEq, Repr

namespace Registry

variable {σ : Type}

/-- `_ffs_do_find_dev`, on an array with a name. -/
def doFindDevIn : List FfsDev → Bytes → Exec σ (Option FfsDev)
  | [], _ => pure none
  | dev :: devs, name => do
      if ← strcmpEq (terminate dev.name) name then pure (some dev) else doFindDevIn devs name

/-- `_ffs_find_dev`, on an array with a name. -/
def findDevIn (s : Registry) (name : Bytes) : Exec σ (Option FfsDev) :=
  match getSingleDev s.devs with
  | some dev => pure (some dev)
  | none => doFindDevIn s.devs name

end Registry

/-! ### The requests -/

/-- `ffs_acquire_dev`, with the code that is returned if it fails. -/
def ffsAcquireDev (name : Bytes) (refused : Bool) : Exec Registry Nat := do
  let s ← get
  match ← s.findDevIn name with
  | none => stop (.ret (-enodev))
  | some dev =>
      if dev.mounted ∨ refused then
        stop (.ret (-enodev))
      else
        set (s.modifyDev dev.addr fun dev => { dev with mounted := true })
        pure dev.addr

/-- The region, the character device and the device node of a function. -/
def registerFunc (env : NewfnEnv) (name devName nameEp0 : Bytes) (addr : Nat) :
    Exec Registry CreatedFunc := fun s =>
  match env.major with
  | none => .error (.ret (-ebusy)) ((s.releaseDev addr).closed addr)
  | some major =>
      let s := { s with gDev := major, regions := major :: s.regions }
      if ¬env.cdevAdded ∨ ¬env.deviceCreated then
        .error (.ret (-ebusy)) ((s.releaseDev addr).closed addr)
      else
        let ffs := { id := s.next, name, privateData := some addr, devno := major,
                     state := .readDescriptors, made := 0, gadget := false }
        .ok ⟨addr, devName, nameEp0⟩ { s with live := ffs :: s.live, next := s.next + 1 }

/-- `FUNCTIONFS_NEWFN`. -/
def ioctlNewfn (env : NewfnEnv) (newfn : FuncNew) : Exec Registry CreatedFunc := do
  if ¬env.copied then
    stop (.ret (-efault))
  else if ¬env.memory then
    stop (.ret (-enomem))
  else
    -- the format of the workqueue's name
    let wqName ← scan newfn.name
    if ¬env.workqueue then
      stop (.ret (-enomem))
    else
      let ret := memS maxNamelen newfn.nameLen.toNat
      if ret ≠ 0 then
        stop (.ret ret)
      else
        let devName :=
          memcpy (List.replicate maxNamelen 0) (newfn.name.take newfn.nameLen.toNat)
        match sprintfS maxNamelen (epText (← scan devName) (decimal 0)) with
        | none => stop (.ret (-efault))
        | some nameEp0 =>
            let addr ← ffsAcquireDev newfn.name env.refused
            registerFunc env wqName devName nameEp0 addr

/-- `FUNCTIONFS_DELFN`, up to the instance that it finds. -/
def delfnDev (newfn : FuncNew) : Exec Registry (Option FfsDev) := do
  let s ← get
  s.findDevIn newfn.name

/-- The name of an instance is given as a string. -/
def RegAct.Terminated : RegAct → Prop
  | .setInstName _ name => 0 ∉ name
  | _ => True

/-- The string in the array of a request. -/
def FuncNew.string (newfn : FuncNew) : Bytes := cstr newfn.name

/-- What comes of a function that is created: it is linked to the instance that the string names,
the string is in `dev_name` and in the name of the device node, and `FUNCTIONFS_DELFN` finds the
instance. -/
structure CreatedFunc.SameName (created : CreatedFunc) (s : Registry) (newfn : FuncNew)
    (t : Registry) : Prop where
  registered : ∃ dev, s.findDev newfn.string = some dev ∧ dev.addr = created.addr
  devName : 0 ∈ created.devName ∧ cstr created.devName = newfn.string
  node : created.nameEp0 = epText newfn.string (decimal 0)
  function : ∃ ffs, t.live = ffs :: s.live ∧ ffs.name = newfn.string
    ∧ ffs.privateData = some created.addr
  deleted : ∃ dev, (delfnDev newfn).run t = .ok (some dev) t ∧ dev.addr = created.addr

namespace Registry

variable (s : Registry) (env : NewfnEnv) (fn : FuncNew)

/-- What is promised of the requests: neither goes beyond an array, and `FUNCTIONFS_NEWFN` uses one
name for all, or returns a negative code and changes nothing. -/
structure NameSafe : Prop where
  newfn : (ioctlNewfn env fn).Meets s (fun created t => created.SameName s fn t)
    fun e t => ∃ code < 0, e = .ret code ∧ t = s
  delfn : (delfnDev fn).Meets s (fun _ t => t = s) fun _ _ => False

/-- `FUNCTIONFS_NEWFN` acquires the instance. -/
structure Acquires (dev : FfsDev) : Prop where
  copied : env.copied
  memory : env.memory
  workqueue : env.workqueue
  fits : (fn.string.take fn.nameLen.toNat).length ≤ 59
  found : s.findDev fn.string = some dev
  free : ¬(dev.mounted ∨ env.refused)

/-- The condition: the array has a zero byte, the number of bytes is at most its length, and once an
instance is acquired, either there is no region, and the instance is not linked to a function, or
the region is used, and the number does not cut the string. -/
structure NameFits : Prop where
  terminated : env.copied → env.memory → 0 ∈ fn.name
  counted : env.copied → env.memory → env.workqueue → fn.nameLen.toNat ≤ maxNamelen
  unlinked : ∀ dev, s.Acquires env fn dev → env.major = none → ¬dev.descReady
  whole : ∀ dev, s.Acquires env fn dev → env.major.isSome →
    env.cdevAdded ∧ env.deviceCreated ∧ fn.string.length ≤ fn.nameLen.toNat

/-- The names of the instances are strings that fit. -/
def Named : Prop := ∀ dev ∈ s.devs, 0 ∉ dev.name ∧ dev.name.length < maxNamelen

/-! ### The instances that are reached -/

/-- The instances are the same, and have the same names. -/
def SameInstances (t : Registry) : Prop :=
  ∃ f : FfsDev → FfsDev, t.devs = s.devs.map f
    ∧ ∀ dev, (f dev).addr = dev.addr ∧ (f dev).name = dev.name ∧ (f dev).single = dev.single

variable {s t : Registry}

theorem sameInstances_of_eq (h : t.devs = s.devs) :
  s.SameInstances t
  := ⟨id, by rw [h, List.map_id], fun _ => ⟨rfl, rfl, rfl⟩⟩

theorem SameInstances.trans {u : Registry} (h : s.SameInstances t) (h' : t.SameInstances u) :
  s.SameInstances u
  := by
  obtain ⟨f, ht, hf⟩ := h
  obtain ⟨g, hu, hg⟩ := h'
  refine ⟨g ∘ f, by rw [hu, ht, List.map_map], fun dev => ?_⟩
  obtain ⟨haddr, hname, hsingle⟩ := hf dev
  obtain ⟨haddr', hname', hsingle'⟩ := hg (f dev)
  exact ⟨haddr'.trans haddr, hname'.trans hname, hsingle'.trans hsingle⟩

theorem sameInstances_modifyDev (s : Registry) (addr : Nat) {f : FfsDev → FfsDev}
    (hf : ∀ dev, (f dev).addr = dev.addr ∧ (f dev).name = dev.name
      ∧ (f dev).single = dev.single) :
  s.SameInstances (s.modifyDev addr f)
  := by
  refine ⟨_, rfl, fun dev => ?_⟩
  split
  · apply hf dev
  · exact ⟨rfl, rfl, rfl⟩

theorem sameInstances_unmount (s : Registry) (privateData : Option Nat) :
  s.SameInstances ((s.releaseDev privateData).closed privateData)
  := by
  cases privateData with
  | none => exact sameInstances_of_eq rfl
  | some addr =>
      have hreleased : s.SameInstances (s.releaseDev (some addr)) :=
        sameInstances_modifyDev s addr fun _ => ⟨rfl, rfl, rfl⟩
      apply hreleased.trans
      exact sameInstances_modifyDev _ addr fun _ => ⟨rfl, rfl, rfl⟩

theorem sameInstances_newfn (s : Registry) (name : Bytes) (prepare : Int) (major : Option Nat)
    (cdevAdded deviceCreated : Bool) :
  s.SameInstances (s.newfn name prepare major cdevAdded deviceCreated).1
  := by
  unfold newfn
  split
  · exact sameInstances_of_eq rfl
  cases s.findDev name with
  | none => exact sameInstances_of_eq rfl
  | some dev =>
      dsimp only
      split
      · exact sameInstances_of_eq rfl
      have hmount : s.SameInstances
          (s.modifyDev dev.addr fun dev => { dev with mounted := true }) :=
        sameInstances_modifyDev s dev.addr fun _ => ⟨rfl, rfl, rfl⟩
      cases major with
      | none => exact hmount.trans (sameInstances_unmount _ (some dev.addr))
      | some major =>
          dsimp only
          split
          · exact hmount.trans (sameInstances_unmount _ (some dev.addr))
          · exact hmount

theorem sameInstances_gotStrings {id made : Nat} {complete : Bool}
    (h : s.gotStrings id made complete = .ok t) :
  s.SameInstances t
  := by
  unfold gotStrings at h
  cases hfind : s.live.find? fun ffs => ffs.id = id with
  | none =>
      simp only [hfind] at h
      split_ifs at h
      obtain rfl := Except.ok.inj h
      exact sameInstances_of_eq rfl
  | some ffs =>
      simp only [hfind] at h
      by_cases hstate : ffs.state ≠ .readStrings
      · rw [if_pos hstate] at h
        obtain rfl := Except.ok.inj h
        exact sameInstances_of_eq rfl
      rw [if_neg hstate] at h
      by_cases hcomplete : ¬complete
      · rw [if_pos hcomplete] at h
        obtain rfl := Except.ok.inj h
        exact sameInstances_of_eq rfl
      rw [if_neg hcomplete] at h
      obtain rfl := Except.ok.inj h
      rcases s.ffsReady_cases ffs with ⟨ret, hret⟩ | ⟨addr, -, hret⟩
      · rw [hret]
        exact sameInstances_of_eq rfl
      · rw [hret]
        exact sameInstances_modifyDev s addr fun _ => ⟨rfl, rfl, rfl⟩

theorem sameInstances_bind {dev : FfsDev} {ret : Int} (h : s.bind dev = .ok (t, ret)) :
  s.SameInstances t
  := by
  unfold bind at h
  by_cases hready : ¬dev.descReady
  · rw [if_pos hready] at h
    cases h
    exact sameInstances_of_eq rfl
  rw [if_neg hready] at h
  cases hdata : s.derefData dev with
  | error e =>
      simp only [hdata] at h
      cases h
  | ok ffs =>
      simp only [hdata] at h
      split_ifs at h
      · cases h
        exact sameInstances_of_eq rfl
      · cases h
        exact sameInstances_of_eq rfl

/-- What a step does to the instances. -/
theorem step_devs {a : RegAct} (h : s.step a = some t) :
  s.SameInstances t
    ∨ (∃ addr configfs, (∀ dev ∈ s.devs, dev.addr ≠ addr) ∧ t = (s.allocInst addr configfs).1)
    ∨ (∃ addr name, a = .setInstName addr name ∧ t = (s.setInstName addr name).1)
    ∨ (∃ addr, t = (s.singleDev addr).1)
    ∨ ∃ dev, t = s.freeDev dev
  := by
  cases a with
  | allocInst addr configfs =>
      simp only [step] at h
      split_ifs at h with hused
      refine .inr (.inl ⟨addr, configfs, fun dev hdev heq => hused ?_, (Option.some.inj h).symm⟩)
      exact List.any_eq_true.mpr ⟨dev, hdev, decide_eq_true heq⟩
  | setInstName addr name =>
      exact .inr (.inr (.inl ⟨addr, name, rfl, (Option.some.inj h).symm⟩))
  | singleDev addr => exact .inr (.inr (.inr (.inl ⟨addr, (Option.some.inj h).symm⟩)))
  | freeInst addr =>
      obtain ⟨dev, -, rfl⟩ := Option.map_eq_some_iff.mp h
      exact .inr (.inr (.inr (.inr ⟨dev, rfl⟩)))
  | newfn name prepare major cdevAdded deviceCreated =>
      simp only [step] at h
      split_ifs at h
      obtain rfl := Option.some.inj h
      exact .inl (s.sameInstances_newfn name prepare major cdevAdded deviceCreated)
  | delfn newfn =>
      rcases delfn_cases h with ⟨-, rfl⟩ | ⟨_, _, ffs, -, -, -, rfl⟩
      · exact .inl (sameInstances_of_eq rfl)
      · exact .inl (s.sameInstances_unmount ffs.privateData)
  | gotDescs id =>
      obtain rfl := Option.some.inj h
      exact .inl (sameInstances_of_eq rfl)
  | gotStrings id made complete =>
      cases hstrings : s.gotStrings id made complete with
      | error e =>
          simp only [step, hstrings] at h
          cases h
      | ok u =>
          simp only [step, hstrings] at h
          obtain rfl := Option.some.inj h
          exact .inl (sameInstances_gotStrings hstrings)
  | bind addr =>
      obtain ⟨dev, -, hbind⟩ := Option.bind_eq_some_iff.mp h
      cases hres : s.bind dev with
      | error e =>
          rw [hres] at hbind
          cases hbind
      | ok res =>
          rw [hres] at hbind
          obtain rfl := Option.some.inj hbind
          exact .inl (sameInstances_bind hres)
  | unbind id =>
      obtain rfl := Option.some.inj h
      exact .inl (sameInstances_of_eq rfl)

theorem SameInstances.distinct (h : s.SameInstances t) (hs : s.Distinct) :
  t.Distinct
  := by
  obtain ⟨f, ht, hf⟩ := h
  refine ⟨?_, ?_, ?_⟩
  · have haddrs : t.devs.map FfsDev.addr = s.devs.map FfsDev.addr := by
      rw [ht, List.map_map]
      apply List.map_congr_left fun dev _ => (hf dev).1
    rw [haddrs]
    apply hs.addrs
  · intro dev hdev hsingle
    rw [ht] at hdev ⊢
    obtain ⟨d, hd, rfl⟩ := List.mem_map.mp hdev
    rw [(hf d).2.2] at hsingle
    rw [hs.single d hd hsingle]
    rfl
  · intro dev hdev dev' hdev' heq hne
    rw [ht] at hdev hdev'
    obtain ⟨d, hd, rfl⟩ := List.mem_map.mp hdev
    obtain ⟨d', hd', rfl⟩ := List.mem_map.mp hdev'
    rw [(hf d).2.1] at heq hne
    rw [(hf d').2.1] at heq
    rw [hs.names d hd d' hd' heq hne]

theorem SameInstances.named (h : s.SameInstances t) (hs : s.Named) :
  t.Named
  := by
  obtain ⟨f, ht, hf⟩ := h
  intro dev hdev
  rw [ht] at hdev
  obtain ⟨d, hd, rfl⟩ := List.mem_map.mp hdev
  rw [(hf d).2.1]
  apply hs d hd

theorem Distinct.step (h : s.Distinct) {a : RegAct} (ht : s.step a = some t) :
  t.Distinct
  := by
  rcases step_devs ht with hsame | ⟨addr, configfs, hfresh, rfl⟩ | ⟨addr, name, -, rfl⟩
    | ⟨addr, rfl⟩ | ⟨dev, rfl⟩
  · apply hsame.distinct h
  · rw [allocInst_eq]
    apply h.allocDev
    rintro _ ⟨⟩
    apply hfresh
  · apply h.setInstName addr name
  · apply h.singleDev addr
  · apply h.freeDev dev

theorem Named.step (h : s.Named) {a : RegAct} (ha : a.Terminated) (ht : s.step a = some t) :
  t.Named
  := by
  rcases step_devs ht with hsame | ⟨addr, configfs, hfresh, rfl⟩ | ⟨addr, name, rfl, rfl⟩
    | ⟨addr, rfl⟩ | ⟨dev, rfl⟩
  · apply hsame.named h
  · unfold allocInst
    split
    · apply h
    · intro dev hdev
      rcases List.mem_cons.mp hdev with rfl | hdev
      · exact ⟨List.not_mem_nil, Nat.zero_lt_succ _⟩
      · apply h dev hdev
  · unfold setInstName
    dsimp only
    split_ifs with hlong
    · apply h
    cases doFindDev s.devs (functionGeneric ++ name) with
    | some existing => exact h
    | none =>
        intro dev hdev
        obtain ⟨d, hd, rfl⟩ := mem_modifyDev.mp hdev
        split
        · refine ⟨fun hzero => ?_, Nat.lt_succ_of_le (Nat.le_of_not_lt hlong)⟩
          rcases List.mem_append.mp hzero with hzero | hzero
          · revert hzero
            decide
          · apply ha hzero
        · apply h d hd
  · unfold singleDev
    split
    · intro dev hdev
      obtain ⟨d, hd, rfl⟩ := mem_modifyDev.mp hdev
      split
      · apply h d hd
      · apply h d hd
    · apply h
  · intro d hd
    rw [freeDev_devs] at hd
    apply h d (List.mem_of_mem_filter hd)

/-- What is known of the registry in every state it reaches. -/
structure Proper (s : Registry) : Prop where
  consistent : s.Consistent
  distinct : s.Distinct
  named : s.Named

theorem proper_of_run {as : List RegAct}
    (h : Run (fun s a t => a.Terminated ∧ s.step a = some t) registryNew as s) :
  s.Proper
  := by
  apply h.keeps Proper
  · rintro s a t hs ⟨ha, ht⟩
    exact ⟨hs.consistent.step ht, hs.distinct.step ht, hs.named.step ha ht⟩
  · have hdistinct : registryNew.Distinct := DevList.inv_devListNew.distinct
    exact ⟨⟨nofun, nofun, List.nodup_nil, nofun, nofun⟩, hdistinct, nofun⟩

/-! ### Names in arrays -/

variable {σ : Type} {fn : FuncNew} {env : NewfnEnv}

theorem doFindDevIn_eq {devs : List FfsDev} {name : Bytes}
    (hnamed : ∀ dev ∈ devs, 0 ∉ dev.name ∧ dev.name.length < name.length) :
  (doFindDevIn devs name : Exec σ (Option FfsDev)) = pure (doFindDev devs (cstr name))
  := by
  induction devs with
  | nil => rfl
  | cons dev devs ih =>
      obtain ⟨hzero, hlen⟩ := hnamed dev List.mem_cons_self
      have ih := ih fun d hd => hnamed d (List.mem_cons_of_mem _ hd)
      unfold doFindDevIn doFindDev
      rw [strcmpEq_eq hzero hlen, pure_bind, List.find?_cons, ih]
      by_cases hname : dev.name = cstr name
      · rw [decide_eq_true hname]
        rfl
      · rw [decide_eq_false hname]
        rfl

/-- The instance is found by the string in the array, without a scan beyond the array. -/
theorem findDevIn_eq (hs : s.Named) {name : Bytes} (hlen : name.length = maxNamelen) :
  (s.findDevIn name : Exec σ (Option FfsDev)) = pure (s.findDev (cstr name))
  := by
  have hfind : (doFindDevIn s.devs name : Exec σ (Option FfsDev))
      = pure (doFindDev s.devs (cstr name)) := by
    apply doFindDevIn_eq
    rw [hlen]
    apply hs
  unfold findDevIn findDev
  rw [hfind]
  cases getSingleDev s.devs with
  | none => rfl
  | some dev => rfl

theorem run_delfnDev (hs : s.Named) (fn : FuncNew) :
  (delfnDev fn).run s = .ok (s.findDev fn.string) s
  := by
  have hfind : (s.findDevIn fn.name : Exec Registry _) = pure (s.findDev fn.string) :=
    findDevIn_eq hs fn.length
  unfold delfnDev
  rw [EStateM.run_bind]
  show EStateM.run (s.findDevIn fn.name) s = _
  rw [hfind]
  rfl

/-- A change to an instance that keeps its name. -/
theorem findDev_modifyDev (s : Registry) (addr : Nat) {f : FfsDev → FfsDev} (name : Bytes)
    (hname : ∀ dev, (f dev).name = dev.name) (hsingle : ∀ dev, (f dev).single = dev.single) :
  (s.modifyDev addr f).findDev name
    = (s.findDev name).map fun dev => if dev.addr = addr then f dev else dev
  := by
  have hsame : ∀ dev : FfsDev, (if dev.addr = addr then f dev else dev).name = dev.name
      ∧ (if dev.addr = addr then f dev else dev).single = dev.single := by
    intro dev
    split
    · exact ⟨hname dev, hsingle dev⟩
    · exact ⟨rfl, rfl⟩
  have hfind : doFindDev (s.modifyDev addr f).devs name
      = (doFindDev s.devs name).map fun dev => if dev.addr = addr then f dev else dev := by
    unfold doFindDev modifyDev
    rw [List.find?_map]
    congr 2
    funext dev
    rw [Function.comp_apply, (hsame dev).1]
  have hget : getSingleDev (s.modifyDev addr f).devs
      = (getSingleDev s.devs).map fun dev => if dev.addr = addr then f dev else dev := by
    unfold modifyDev
    rcases s.devs with _ | ⟨dev, _ | ⟨dev', devs⟩⟩
    · rfl
    · simp only [List.map_cons, List.map_nil, getSingleDev, (hsame dev).2]
      split
      · rfl
      · rfl
    · rfl
  unfold findDev
  rw [hfind, hget]
  cases getSingleDev s.devs with
  | none => rfl
  | some dev => rfl

/-! ### The requests -/

theorem run_ffsAcquireDev (hs : s.Named) (fn : FuncNew) (refused : Bool) :
  (ffsAcquireDev fn.name refused).run s
    = match s.findDev fn.string with
      | none => .error (.ret (-enodev)) s
      | some dev =>
          if dev.mounted ∨ refused then .error (.ret (-enodev)) s
          else .ok dev.addr (s.modifyDev dev.addr fun dev => { dev with mounted := true })
  := by
  have hfind : (s.findDevIn fn.name : Exec Registry _) = pure (s.findDev fn.string) :=
    findDevIn_eq hs fn.length
  unfold ffsAcquireDev
  rw [EStateM.run_bind]
  show EStateM.run (s.findDevIn fn.name >>= _) s = _
  rw [hfind, pure_bind]
  cases s.findDev fn.string with
  | none => rfl
  | some dev =>
      dsimp only
      split
      · rfl
      · rfl

/-- The string that the copied bytes leave in `dev_name`. -/
theorem scan_devName (hzero : 0 ∈ fn.name) (hcount : fn.nameLen.toNat ≤ maxNamelen) :
  0 ∈ memcpy (List.replicate maxNamelen 0) (fn.name.take fn.nameLen.toNat)
    ∧ cstr (memcpy (List.replicate maxNamelen 0) (fn.name.take fn.nameLen.toNat))
      = fn.string.take fn.nameLen.toNat
  := by
  have hlen : (fn.name.take fn.nameLen.toNat).length = fn.nameLen.toNat := by
    rw [List.length_take, fn.length]
    apply Nat.min_eq_left hcount
  unfold memcpy
  rw [List.drop_replicate, hlen]
  refine ⟨?_, cstr_take _ _ _⟩
  rcases Nat.eq_or_lt_of_le hcount with hall | hlt
  · have htake : fn.name.take fn.nameLen.toNat = fn.name := by
      apply List.take_of_length_le
      apply Nat.le_of_eq
      rw [fn.length, hall]
    rw [htake]
    apply List.mem_append_left _ hzero
  · apply List.mem_append_right
    apply List.mem_replicate.mpr ⟨Nat.sub_ne_zero_of_lt hlt, rfl⟩

/-- A request up to the acquisition of the instance. -/
theorem run_ioctlNewfn (s : Registry) (hcopied : env.copied) (hmemory : env.memory)
    (hworkqueue : env.workqueue) (hzero : 0 ∈ fn.name) (hcount : fn.nameLen.toNat ≤ maxNamelen) :
  (ioctlNewfn env fn).run s
    = if (fn.string.take fn.nameLen.toNat).length ≤ 59 then
        (ffsAcquireDev fn.name env.refused >>= registerFunc env fn.string
          (memcpy (List.replicate maxNamelen 0) (fn.name.take fn.nameLen.toNat))
          (epText (fn.string.take fn.nameLen.toNat) (decimal 0))).run s
      else .error (.ret (-efault)) s
  := by
  obtain ⟨hdev, hstring⟩ := scan_devName hzero hcount
  have hname : (scan fn.name : Exec Registry Bytes) = pure fn.string := if_pos hzero
  have hdevName : (scan (memcpy (List.replicate maxNamelen 0) (fn.name.take fn.nameLen.toNat))
      : Exec Registry Bytes) = pure (fn.string.take fn.nameLen.toNat) := by
    rw [← hstring]
    exact if_pos hdev
  have hmem : memS maxNamelen fn.nameLen.toNat = 0 := by
    apply if_neg
    rintro (hnone | hlt)
    · cases hnone
    · apply Nat.not_lt_of_le hcount hlt
  have hfits : (epText (fn.string.take fn.nameLen.toNat) (decimal 0)).length < maxNamelen
      ↔ (fn.string.take fn.nameLen.toNat).length ≤ 59 := by
    unfold epText maxNamelen
    rw [List.length_append, List.length_append]
    show _ + 3 + 1 < 64 ↔ _
    omega
  unfold ioctlNewfn
  rw [if_neg (not_not.mpr hcopied), if_neg (not_not.mpr hmemory), hname, pure_bind,
    if_neg (not_not.mpr hworkqueue), hmem, if_neg (not_not.mpr rfl)]
  dsimp only
  rw [hdevName, pure_bind]
  unfold sprintfS
  by_cases hlen : (fn.string.take fn.nameLen.toNat).length ≤ 59
  · rw [if_pos hlen, if_pos (hfits.mpr hlen)]
  · rw [if_neg hlen, if_neg (hfits.not.mpr hlen)]
    rfl

/-- A request with a string that fits does to the registry what is said of requests there. -/
theorem ioctlNewfn_meets_newfn (hs : s.Named) (hcopied : env.copied) (hmemory : env.memory)
    (hworkqueue : env.workqueue) (hrefused : ¬env.refused) (hzero : 0 ∈ fn.name)
    (hcount : fn.nameLen.toNat ≤ maxNamelen)
    (hfits : (fn.string.take fn.nameLen.toNat).length ≤ 59) :
  (ioctlNewfn env fn).Meets s
    (fun _ t => s.newfn fn.string 0 env.major env.cdevAdded env.deviceCreated = (t, 0))
    fun e t => ∃ code, e = .ret code
      ∧ s.newfn fn.string 0 env.major env.cdevAdded env.deviceCreated = (t, code)
  := by
  have hrun := run_ioctlNewfn s hcopied hmemory hworkqueue hzero hcount
  rw [if_pos hfits, EStateM.run_bind, run_ffsAcquireDev hs] at hrun
  unfold newfn
  rw [if_neg (not_not.mpr rfl)]
  rcases hfind : s.findDev fn.string with _ | dev
  · rw [hfind] at hrun
    exact (meets_iff_of_error hrun).mpr ⟨-enodev, rfl, rfl⟩
  rw [hfind] at hrun
  dsimp only at hrun ⊢
  by_cases hmounted : dev.mounted
  · rw [if_pos (.inl hmounted)] at hrun
    rw [if_pos hmounted]
    exact (meets_iff_of_error hrun).mpr ⟨-enodev, rfl, rfl⟩
  rw [if_neg (not_or.mpr ⟨hmounted, hrefused⟩)] at hrun
  rw [if_neg hmounted]
  dsimp only [EStateM.run, registerFunc] at hrun
  rcases hmajor : env.major with _ | major
  · rw [hmajor] at hrun
    exact (meets_iff_of_error hrun).mpr ⟨-ebusy, rfl, rfl⟩
  rw [hmajor] at hrun
  dsimp only at hrun ⊢
  by_cases hfails : ¬env.cdevAdded ∨ ¬env.deviceCreated
  · rw [if_pos hfails] at hrun ⊢
    exact (meets_iff_of_error hrun).mpr ⟨-ebusy, rfl, rfl⟩
  · rw [if_neg hfails] at hrun ⊢
    exact (meets_iff_of_ok hrun).mpr rfl

/-- To let go of an instance that was just mounted. -/
theorem unmount_eq_iff (hs : s.Proper) {dev : FfsDev} (hdev : dev ∈ s.devs)
    (hmounted : ¬dev.mounted) :
  ((s.modifyDev dev.addr fun dev => { dev with mounted := true }).releaseDev dev.addr).closed
      dev.addr = s
    ↔ ¬dev.descReady
  := by
  have hunmount : ((s.modifyDev dev.addr fun dev => { dev with mounted := true }).releaseDev
      dev.addr).closed dev.addr = s.modifyDev dev.addr fun dev =>
        { dev with mounted := false, descReady := false, ffsData := none } := by
    simp only [releaseDev, closed, modifyDev, List.map_map]
    congr 2
    funext d
    simp only [Function.comp_apply]
    split_ifs
    · rfl
    · rfl
  rw [hunmount]
  constructor
  · intro heq
    have hmem : { dev with mounted := false, descReady := false, ffsData := none } ∈ s.devs := by
      rw [← heq]
      exact mem_modifyDev.mpr ⟨dev, hdev, if_pos rfl⟩
    rw [← hs.distinct.eq_of_addr hmem hdev rfl]
    exact Bool.false_ne_true
  · intro hready
    have hlink := hs.consistent.ready dev hdev
    rw [Bool.not_eq_true] at hmounted hready
    rw [hready] at hlink
    have hdata : dev.ffsData = none := by
      apply Option.isNone_iff_eq_none.mp
      apply Option.isSome_eq_false_iff.mp hlink.symm
    have hsame : s.devs.map (fun d => if d.addr = dev.addr then
        { d with mounted := false, descReady := false, ffsData := none } else d) = s.devs := by
      rw [← List.map_id s.devs, List.map_map]
      apply List.map_congr_left
      intro d hd
      rw [Function.comp_apply, id]
      split
      · rename_i haddr
        obtain rfl := hs.distinct.eq_of_addr hd hdev haddr
        rcases d with ⟨addr, name, mounted, descReady, single, ffsData, configfs⟩
        subst hmounted hready hdata
        rfl
      · rfl
    unfold modifyDev
    rw [hsame]

/-- The instance is acquired and the region and the device node are registered. -/
theorem meets_registerFunc_iff (hs : s.Proper) {dev : FfsDev} (hacquires : s.Acquires env fn dev)
    {devName : Bytes} (hzero : 0 ∈ devName)
    (hdevName : cstr devName = fn.string.take fn.nameLen.toNat) :
  (registerFunc env fn.string devName (epText (fn.string.take fn.nameLen.toNat) (decimal 0))
      dev.addr).Meets (s.modifyDev dev.addr fun dev => { dev with mounted := true })
      (fun created t => created.SameName s fn t) (fun e t => ∃ code < 0, e = .ret code ∧ t = s)
    ↔ (env.major = none → ¬dev.descReady)
      ∧ (env.major.isSome →
        env.cdevAdded ∧ env.deviceCreated ∧ fn.string.length ≤ fn.nameLen.toNat)
  := by
  have hdev := (mem_of_findDev hacquires.found).1
  have hfree := not_or.mp hacquires.free
  rcases hmajor : env.major with _ | major
  · have hrun : (registerFunc env fn.string devName
        (epText (fn.string.take fn.nameLen.toNat) (decimal 0)) dev.addr).run
          (s.modifyDev dev.addr fun dev => { dev with mounted := true })
        = .error (.ret (-ebusy)) (((s.modifyDev dev.addr fun dev =>
            { dev with mounted := true }).releaseDev dev.addr).closed dev.addr) := by
      simp only [EStateM.run, registerFunc, hmajor]
    rw [meets_iff_of_error hrun, and_iff_left (by nofun), ← unmount_eq_iff hs hdev hfree.1]
    constructor
    · rintro ⟨code, -, -, ht⟩ -
      apply ht
    · exact fun ht => ⟨-ebusy, by decide, rfl, ht rfl⟩
  rw [and_iff_right (by nofun), imp_iff_right Option.isSome_some]
  by_cases hfails : ¬env.cdevAdded ∨ ¬env.deviceCreated
  · have hrun : (registerFunc env fn.string devName
        (epText (fn.string.take fn.nameLen.toNat) (decimal 0)) dev.addr).run
          (s.modifyDev dev.addr fun dev => { dev with mounted := true })
        = .error (.ret (-ebusy)) ((Registry.releaseDev
            { s.modifyDev dev.addr fun dev => { dev with mounted := true } with
              gDev := major, regions := major :: s.regions } dev.addr).closed dev.addr) := by
      simp only [EStateM.run, registerFunc, hmajor, if_pos hfails]
      rfl
    rw [meets_iff_of_error hrun]
    apply iff_of_false
    · rintro ⟨code, -, -, ht⟩
      -- the region stays
      have hregions : major :: s.regions = s.regions := congrArg Registry.regions ht
      apply List.cons_ne_self _ _ hregions
    · rintro ⟨hcdev, hdevice, -⟩
      rcases hfails with hfails | hfails
      · apply hfails hcdev
      · apply hfails hdevice
  obtain ⟨hcdev, hdevice⟩ := not_or.mp hfails
  rw [not_not] at hcdev hdevice
  rw [and_iff_right hcdev, and_iff_right hdevice]
  set s₀ := s.modifyDev dev.addr fun dev => { dev with mounted := true } with hs₀
  set t : Registry := { s₀ with
    gDev := major, regions := major :: s.regions, next := s.next + 1
    live := ⟨s.next, fn.string, some dev.addr, major, .readDescriptors, 0, false⟩ :: s.live }
    with ht
  have hrun : (registerFunc env fn.string devName
      (epText (fn.string.take fn.nameLen.toNat) (decimal 0)) dev.addr).run s₀
      = .ok ⟨dev.addr, devName, epText (fn.string.take fn.nameLen.toNat) (decimal 0)⟩ t := by
    simp only [EStateM.run, registerFunc, hmajor, if_neg hfails]
    rfl
  rw [meets_iff_of_ok hrun]
  constructor
  · rintro ⟨-, ⟨-, hname⟩, -, -, -⟩
    rw [hdevName] at hname
    rw [← hname]
    apply List.length_take_le
  · intro hle
    have htake : fn.string.take fn.nameLen.toNat = fn.string := List.take_of_length_le hle
    have hnamed : t.Named := by
      have hsame : s.SameInstances t := sameInstances_modifyDev s dev.addr fun _ => ⟨rfl, rfl, rfl⟩
      apply hsame.named hs.named
    have hfind : t.findDev fn.string = some { dev with mounted := true } := by
      have hmount := s.findDev_modifyDev dev.addr (f := fun dev => { dev with mounted := true })
        fn.string (fun _ => rfl) fun _ => rfl
      rw [hacquires.found, Option.map_some, if_pos rfl] at hmount
      apply hmount
    refine ⟨⟨dev, hacquires.found, rfl⟩, ⟨hzero, hdevName.trans htake⟩, ?_, ⟨_, rfl, rfl, rfl⟩,
      { dev with mounted := true }, ?_, rfl⟩
    · rw [htake]
    · rw [run_delfnDev hnamed, hfind]

/-- A request that stops before it changes anything. -/
theorem newfn_meets_of_unchanged {code : Int} (hcode : code < 0)
    (hrun : (ioctlNewfn env fn).run s = .error (.ret code) s) :
  (ioctlNewfn env fn).Meets s (fun created t => created.SameName s fn t)
    fun e t => ∃ code < 0, e = .ret code ∧ t = s
  := (meets_iff_of_error hrun).mpr ⟨code, hcode, rfl, rfl⟩

/-- The request, once the string and the number are within bounds. -/
theorem newfn_meets_iff (hs : s.Proper) (hcopied : env.copied) (hmemory : env.memory)
    (hworkqueue : env.workqueue) (hzero : 0 ∈ fn.name) (hcount : fn.nameLen.toNat ≤ maxNamelen) :
  ((ioctlNewfn env fn).Meets s (fun created t => created.SameName s fn t)
      fun e t => ∃ code < 0, e = .ret code ∧ t = s)
    ↔ ∀ dev, s.Acquires env fn dev → (env.major = none → ¬dev.descReady)
      ∧ (env.major.isSome →
        env.cdevAdded ∧ env.deviceCreated ∧ fn.string.length ≤ fn.nameLen.toNat)
  := by
  have hrun := run_ioctlNewfn s hcopied hmemory hworkqueue hzero hcount
  by_cases hfits : (fn.string.take fn.nameLen.toNat).length ≤ 59
  · rw [if_pos hfits, EStateM.run_bind, run_ffsAcquireDev hs.named] at hrun
    rcases hfind : s.findDev fn.string with _ | dev
    · rw [hfind] at hrun
      refine iff_of_true (newfn_meets_of_unchanged (by decide) hrun) fun dev hacquires => ?_
      cases hfind.symm.trans hacquires.found
    rw [hfind] at hrun
    dsimp only at hrun
    by_cases hfree : dev.mounted ∨ env.refused
    · rw [if_pos hfree] at hrun
      refine iff_of_true (newfn_meets_of_unchanged (by decide) hrun) fun dev' hacquires => ?_
      obtain rfl := Option.some.inj (hfind.symm.trans hacquires.found)
      exact absurd hfree hacquires.free
    rw [if_neg hfree] at hrun
    have hacquires : s.Acquires env fn dev :=
      ⟨hcopied, hmemory, hworkqueue, hfits, hfind, hfree⟩
    obtain ⟨hin, hdevName⟩ := scan_devName hzero hcount
    have hiff := meets_registerFunc_iff hs hacquires hin hdevName
    unfold Meets at hiff ⊢
    rw [hrun]
    apply hiff.trans
    constructor
    · intro h dev' hacquires'
      obtain rfl := Option.some.inj (hfind.symm.trans hacquires'.found)
      apply h
    · exact fun h => h dev hacquires
  · rw [if_neg hfits] at hrun
    refine iff_of_true (newfn_meets_of_unchanged (by decide) hrun) fun dev hacquires => ?_
    exact absurd hacquires.fits hfits

/-- A request is carried out with one name, or fails without a trace, exactly under the condition.
-/
theorem Proper.nameSafe_iff (hs : s.Proper) (env : NewfnEnv) (fn : FuncNew) :
  s.NameSafe env fn ↔ s.NameFits env fn
  := by
  have hdelfn : (delfnDev fn).Meets s (fun _ t => t = s) fun _ _ => False := by
    rw [meets_iff_of_ok (run_delfnDev hs.named fn)]
  have hsafe : s.NameSafe env fn ↔ (ioctlNewfn env fn).Meets s
      (fun created t => created.SameName s fn t) fun e t => ∃ code < 0, e = .ret code ∧ t = s :=
    ⟨fun h => h.newfn, fun h => ⟨h, hdelfn⟩⟩
  rw [hsafe]
  by_cases hcopied : env.copied
  swap
  · have hrun : (ioctlNewfn env fn).run s = .error (.ret (-efault)) s := by
      unfold ioctlNewfn
      rw [if_pos hcopied, run_stop]
    refine iff_of_true (newfn_meets_of_unchanged (by decide) hrun) ?_
    exact ⟨fun h => absurd h hcopied, fun h => absurd h hcopied,
      fun _ h => absurd h.copied hcopied, fun _ h => absurd h.copied hcopied⟩
  by_cases hmemory : env.memory
  swap
  · have hrun : (ioctlNewfn env fn).run s = .error (.ret (-enomem)) s := by
      unfold ioctlNewfn
      rw [if_neg (not_not.mpr hcopied), if_pos hmemory, run_stop]
    refine iff_of_true (newfn_meets_of_unchanged (by decide) hrun) ?_
    exact ⟨fun _ h => absurd h hmemory, fun _ h => absurd h hmemory,
      fun _ h => absurd h.memory hmemory, fun _ h => absurd h.memory hmemory⟩
  by_cases hzero : 0 ∈ fn.name
  swap
  · have hrun : (ioctlNewfn env fn).run s = .error (.fault .outOfBounds) s := by
      unfold ioctlNewfn scan
      rw [if_neg (not_not.mpr hcopied), if_neg (not_not.mpr hmemory), if_neg hzero]
      rfl
    rw [meets_iff_of_error hrun]
    apply iff_of_false
    · rintro ⟨_, -, hret, -⟩
      cases hret
    · exact fun h => hzero (h.terminated hcopied hmemory)
  by_cases hworkqueue : env.workqueue
  swap
  · have hrun : (ioctlNewfn env fn).run s = .error (.ret (-enomem)) s := by
      unfold ioctlNewfn scan
      rw [if_neg (not_not.mpr hcopied), if_neg (not_not.mpr hmemory), if_pos hzero, pure_bind,
        if_pos hworkqueue, run_stop]
    refine iff_of_true (newfn_meets_of_unchanged (by decide) hrun) ?_
    exact ⟨fun _ _ => hzero, fun _ _ h => absurd h hworkqueue,
      fun _ h => absurd h.workqueue hworkqueue, fun _ h => absurd h.workqueue hworkqueue⟩
  by_cases hcount : fn.nameLen.toNat ≤ maxNamelen
  swap
  · have hmem : memS maxNamelen fn.nameLen.toNat = erange :=
      if_pos (.inr (Nat.lt_of_not_le hcount))
    have hrun : (ioctlNewfn env fn).run s = .error (.ret erange) s := by
      unfold ioctlNewfn scan
      rw [if_neg (not_not.mpr hcopied), if_neg (not_not.mpr hmemory), if_pos hzero, pure_bind,
        if_neg (not_not.mpr hworkqueue), hmem]
      rfl
    rw [meets_iff_of_error hrun]
    apply iff_of_false
    · rintro ⟨code, hcode, hret, -⟩
      obtain rfl := Stop.ret.inj hret
      revert hcode
      decide
    · exact fun h => hcount (h.counted hcopied hmemory hworkqueue)
  rw [newfn_meets_iff hs hcopied hmemory hworkqueue hzero hcount]
  constructor
  · exact fun h => ⟨fun _ _ => hzero, fun _ _ _ => hcount, fun dev hacquires => (h dev hacquires).1,
      fun dev hacquires => (h dev hacquires).2⟩
  · exact fun h dev hacquires => ⟨h.unlinked dev hacquires, h.whole dev hacquires⟩

/-- The steps to a registry with the instance `f_generic.a`. -/
def namedActs : List RegAct := [.allocInst 1 true, .setInstName 1 [97]]

/-- All that is asked of the kernel succeeds. -/
def newfnSucceeds : NewfnEnv := ⟨true, true, true, false, some 240, true, true⟩

/-- A request with the string `f_generic.a`. -/
def requestA (nameLen : UInt32) : FuncNew :=
  ⟨nameLen, functionGeneric ++ [97] ++ List.replicate 53 0, rfl⟩

theorem run_namedActs :
  ∃ s, Run (fun s a t => a.Terminated ∧ s.step a = some t) registryNew namedActs s
    ∧ s.findDev (functionGeneric ++ [97])
      = some ⟨1, functionGeneric ++ [97], false, false, false, none, true⟩
  := by
  refine ⟨_, .cons ⟨trivial, rfl⟩ (.cons ⟨?_, rfl⟩ (.nil _)), rfl⟩
  show 0 ∉ [97]
  decide

end Registry

end Ffs
