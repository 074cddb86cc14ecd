import KhdfLinux.Usb.Registry
import Mathlib.Data.List.Nodup

/-!
# The list of instances

The operations on the list `ffs_devices`, in any order.  `devList_exclusive`: an instance that is
marked as single is alone, names are distinct, an instance is handed out at most once until it
is released, and it is found by its name.
-/

namespace Ffs

/-- What is told of the instance at an address. -/
inductive DevEvent where
  | acquired (addr : Nat)
  | released (addr : Nat)
  | freed (addr : Nat)
  deriving DecidableEq, Repr

/-- The instance an event is about. -/
def DevEvent.addr : DevEvent → Nat
  | .acquired addr | .released addr | .freed addr => addr

namespace Registry

/-- `_ffs_alloc_dev`, with the memory that is allocated and what `functionfs_init` returns. -/
def allocDev (s : Registry) (kzalloc : Option Nat) (init : Int) (configfs : Bool) :
    Registry × Int :=
  if (getSingleDev s.devs).isSome then
    (s, -ebusy)
  else
    match kzalloc with
    | none => (s, -enomem)
    | some addr =>
        if s.devs = [] ∧ init ≠ 0 then
          (s, init)
        else
          let dev := { addr, name := [], mounted := false, descReady := false, single := false,
                       ffsData := none, configfs }
          ({ s with devs := dev :: s.devs }, 0)

/-- `ffs_name_dev_adapter`. -/
def nameDev (s : Registry) (addr : Nat) (name : Bytes) : Registry × Int :=
  match doFindDev s.devs name with
  | none => (s.modifyDev addr fun dev => { dev with name }, 0)
  | some existing => (s, if existing.addr = addr then 0 else -ebusy)

/-- `ffs_acquire_dev`; `refused` tells if the callback of the instance, where it has one, fails. -/
def acquireDev (s : Registry) (name : Bytes) (refused : Bool) : Registry × Except Int Nat :=
  match s.findDev name with
  | none => (s, .error (-enoent))
  | some dev =>
      if dev.mounted then (s, .error (-ebusy))
      else if refused then (s, .error (-enoent))
      else (s.modifyDev dev.addr fun dev => { dev with mounted := true }, .ok dev.addr)

/-- `ffs_alloc_inst` allocates an instance. -/
theorem allocInst_eq (s : Registry) (addr : Nat) (configfs : Bool) :
  s.allocInst addr configfs = s.allocDev (some addr) 0 configfs
  := by
  unfold allocInst allocDev
  simp

/-- `ffs_set_inst_name` gives an instance a name. -/
theorem setInstName_eq (s : Registry) (addr : Nat) (name : Bytes) :
  s.setInstName addr name
    = if 63 < (functionGeneric ++ name).length then (s, -efault)
      else s.nameDev addr (functionGeneric ++ name)
  := rfl

/-- `FUNCTIONFS_NEWFN` acquires an instance. -/
theorem newfn_eq (s : Registry) (name : Bytes) (major : Option Nat)
    (cdevAdded deviceCreated : Bool) :
  s.newfn name 0 major cdevAdded deviceCreated
    = match s.acquireDev name false with
      | (_, .error _) => (s, -enodev)
      | (t, .ok addr) =>
          match major with
          | none => ((t.releaseDev addr).closed addr, -ebusy)
          | some major =>
              let t := { t with gDev := major, regions := major :: t.regions }
              if ¬cdevAdded ∨ ¬deviceCreated then
                ((t.releaseDev addr).closed addr, -ebusy)
              else
                let ffs := { id := t.next, name, privateData := some addr, devno := major,
                             state := .readDescriptors, made := 0, gadget := false }
                ({ t with live := ffs :: t.live, next := t.next + 1 }, 0)
  := by
  unfold newfn acquireDev
  rw [if_neg (by simp)]
  cases s.findDev name with
  | none => rfl
  | some dev =>
      by_cases hmounted : dev.mounted
      · simp [hmounted]
      · cases major with
        | none => simp [hmounted]
        | some major => simp [hmounted]

end Registry

/-! ### The system -/

/-- The instances, and what was told of them, the newest first. -/
structure DevList where
  reg : Registry
  log : List DevEvent

/-- What happens to the instances. -/
inductive DevAct where
  /-- `_ffs_alloc_dev`; the memory is not in use. -/
  | alloc (kzalloc : Option Nat) (init : Int) (configfs : Bool)
  /-- `_ffs_free_dev`. -/
  | free (addr : Nat)
  | setInstName (addr : Nat) (name : Bytes)
  /-- `ffs_name_dev_adapter`, with a name that fits. -/
  | nameDev (addr : Nat) (name : Bytes)
  | singleDev (addr : Nat)
  | acquire (name : Bytes) (refused : Bool)
  /-- `ffs_release_dev`, for an `ffs_data` with any `private_data`. -/
  | release (privateData : Option Nat)

/-- The list of a driver that was just loaded. -/
def devListNew : DevList := ⟨registryNew, []⟩

namespace DevList

/-- The next state, if the step is possible. -/
def step (s : DevList) : DevAct → Option DevList
  | .alloc kzalloc init configfs =>
      if ∃ addr ∈ kzalloc, s.reg.devs.any fun dev => dev.addr = addr then none
      else some { s with reg := (s.reg.allocDev kzalloc init configfs).1 }
  | .free addr =>
      (s.reg.devs.find? fun dev => dev.addr = addr).map fun dev =>
        ⟨s.reg.freeDev dev, .freed addr :: s.log⟩
  | .setInstName addr name => some { s with reg := (s.reg.setInstName addr name).1 }
  | .nameDev addr name =>
      if 63 < name.length then none
      else some { s with reg := (s.reg.nameDev addr name).1 }
  | .singleDev addr => some { s with reg := (s.reg.singleDev addr).1 }
  | .acquire name refused =>
      match s.reg.acquireDev name refused with
      | (reg, .ok addr) => some ⟨reg, .acquired addr :: s.log⟩
      | (reg, .error _) => some { s with reg }
  | .release privateData =>
      some ⟨s.reg.releaseDev privateData, (privateData.map DevEvent.released).toList ++ s.log⟩

/-- What is promised of the instances. -/
structure Exclusive (s : DevList) : Prop where
  single : ∀ dev ∈ s.reg.devs, dev.single → s.reg.devs = [dev]
  names : ∀ dev ∈ s.reg.devs, ∀ dev' ∈ s.reg.devs, dev.name = dev'.name → dev.name ≠ [] →
    dev = dev'
  failedName : ∀ addr name, ((s.reg.setInstName addr name).2 ≠ 0 →
      (s.reg.setInstName addr name).1 = s.reg)
    ∧ ((s.reg.nameDev addr name).2 ≠ 0 → (s.reg.nameDev addr name).1 = s.reg)
  handedOut : ∀ newer between older addr,
    s.log = newer ++ .acquired addr :: between ++ .acquired addr :: older →
    .released addr ∈ between ∨ .freed addr ∈ between
  found : ∀ name, (s.reg.findDev name = none ↔ ∀ dev ∈ s.reg.devs, ¬dev.single ∧ dev.name ≠ name)
    ∧ ∀ dev, s.reg.findDev name = some dev → dev ∈ s.reg.devs ∧ (dev.single ∨ dev.name = name)

end DevList

/-! ### Distinct instances -/

namespace Registry

/-- The instances have different addresses and different names, if any, and a single one is alone.
-/
structure Distinct (s : Registry) : Prop where
  addrs : (s.devs.map FfsDev.addr).Nodup
  single : ∀ dev ∈ s.devs, dev.single → s.devs = [dev]
  names : ∀ dev ∈ s.devs, ∀ dev' ∈ s.devs, dev.name = dev'.name → dev.name ≠ [] → dev = dev'

variable {s : Registry} {addr : Nat}

theorem Distinct.eq_of_addr (h : s.Distinct) {dev dev' : FfsDev} (hdev : dev ∈ s.devs)
    (hdev' : dev' ∈ s.devs) (haddr : dev.addr = dev'.addr) :
  dev = dev'
  := List.inj_on_of_nodup_map h.addrs hdev hdev' haddr

theorem mem_modifyDev {f : FfsDev → FfsDev} {dev : FfsDev} :
  dev ∈ (s.modifyDev addr f).devs ↔ ∃ d ∈ s.devs, (if d.addr = addr then f d else d) = dev
  := List.mem_map

/-- To change an instance keeps the instances distinct, if it takes no name that is there and is
made single only if it is alone. -/
theorem Distinct.modifyDev (h : s.Distinct) {f : FfsDev → FfsDev}
    (haddr : ∀ d, (f d).addr = d.addr)
    (hsingle : ∀ d ∈ s.devs, (f d).single → s.devs = [d])
    (hname : ∀ d ∈ s.devs, (f d).name = d.name ∨ ∀ d' ∈ s.devs, d'.name ≠ (f d).name) :
  (s.modifyDev addr f).Distinct
  := by
  have haddrs : ∀ d : FfsDev, (if d.addr = addr then f d else d).addr = d.addr := by
    intro d
    split
    · apply haddr d
    · rfl
  refine ⟨?_, ?_, ?_⟩
  · have hmap : (s.modifyDev addr f).devs.map FfsDev.addr = s.devs.map FfsDev.addr := by
      unfold Registry.modifyDev
      rw [List.map_map]
      apply List.map_congr_left fun d _ => haddrs d
    rw [hmap]
    apply h.addrs
  · intro dev hdev hs
    obtain ⟨d, hd, rfl⟩ := mem_modifyDev.mp hdev
    have halone : s.devs = [d] := by
      split at hs
      · apply hsingle d hd hs
      · apply h.single d hd hs
    unfold Registry.modifyDev
    rw [halone]
    rfl
  · intro dev hdev dev' hdev' heq hne
    obtain ⟨d, hd, rfl⟩ := mem_modifyDev.mp hdev
    obtain ⟨d', hd', rfl⟩ := mem_modifyDev.mp hdev'
    by_cases hda : d.addr = addr
    · by_cases hda' : d'.addr = addr
      · rw [h.eq_of_addr hd hd' (hda.trans hda'.symm)]
      · rw [if_pos hda, if_neg hda'] at heq
        rw [if_pos hda] at hne
        obtain hkeep | hfresh := hname d hd
        · have := h.names d hd d' hd' (hkeep ▸ heq) (hkeep ▸ hne)
          exact absurd (this ▸ hda) hda'
        · apply absurd heq.symm (hfresh d' hd')
    · by_cases hda' : d'.addr = addr
      · rw [if_neg hda, if_pos hda'] at heq
        rw [if_neg hda] at hne
        obtain hkeep | hfresh := hname d' hd'
        · have := h.names d hd d' hd' (hkeep ▸ heq) hne
          exact absurd (this ▸ hda') hda
        · apply absurd heq (hfresh d hd)
      · rw [if_neg hda, if_neg hda'] at heq
        rw [if_neg hda] at hne
        rw [if_neg hda, if_neg hda']
        apply h.names d hd d' hd' heq hne

theorem doFindDev_eq_none {devs : List FfsDev} {name : Bytes} :
  doFindDev devs name = none ↔ ∀ dev ∈ devs, dev.name ≠ name
  := by
  simp [doFindDev]

theorem Distinct.nameDev (h : s.Distinct) (addr : Nat) (name : Bytes) :
  (s.nameDev addr name).1.Distinct
  := by
  unfold Registry.nameDev
  cases hfind : doFindDev s.devs name with
  | some existing => exact h
  | none =>
      refine h.modifyDev (fun _ => rfl) (fun d hd hs => h.single d hd hs) fun d _ => .inr ?_
      apply doFindDev_eq_none.mp hfind

theorem Distinct.setInstName (h : s.Distinct) (addr : Nat) (name : Bytes) :
  (s.setInstName addr name).1.Distinct
  := by
  rw [setInstName_eq]
  split
  · apply h
  · apply h.nameDev addr _

theorem Distinct.singleDev (h : s.Distinct) (addr : Nat) :
  (s.singleDev addr).1.Distinct
  := by
  unfold Registry.singleDev
  split
  · rename_i dev hdevs
    refine h.modifyDev (fun _ => rfl) (fun d hd _ => ?_) fun d _ => .inl rfl
    rw [hdevs] at hd ⊢
    rw [List.mem_singleton.mp hd]
  · apply h

/-- Whether an instance is mounted does not matter. -/
theorem Distinct.mount (h : s.Distinct) (addr : Nat) (mounted : Bool) :
  (s.modifyDev addr fun dev => { dev with mounted }).Distinct
  := h.modifyDev (fun _ => rfl) (fun d hd hs => h.single d hd hs) fun _ _ => .inl rfl

theorem freeDev_devs (s : Registry) (dev : FfsDev) :
  (s.freeDev dev).devs = s.devs.filter fun d => d.addr ≠ dev.addr
  := by
  unfold freeDev
  cases dev.ffsData <;> rfl

theorem Distinct.freeDev (h : s.Distinct) (dev : FfsDev) :
  (s.freeDev dev).Distinct
  := by
  have hsub : (s.freeDev dev).devs.Sublist s.devs := by
    rw [freeDev_devs]
    apply List.filter_sublist
  refine ⟨h.addrs.sublist (hsub.map _), fun d hd hs => ?_, fun d hd d' hd' => ?_⟩
  · have halone := h.single d (hsub.subset hd) hs
    rw [freeDev_devs] at hd ⊢
    rw [halone, List.filter_singleton, (List.mem_filter.mp hd).2]
    rfl
  · apply h.names d (hsub.subset hd) d' (hsub.subset hd')

theorem allocDev_cases (s : Registry) (kzalloc : Option Nat) (init : Int) (configfs : Bool) :
  (s.allocDev kzalloc init configfs).1 = s
    ∨ getSingleDev s.devs = none ∧ ∃ addr, kzalloc = some addr
      ∧ (s.allocDev kzalloc init configfs).1 = { s with
          devs := ⟨addr, [], false, false, false, none, configfs⟩ :: s.devs }
  := by
  unfold allocDev
  split
  · exact .inl rfl
  · rename_i hnone
    cases kzalloc with
    | none => exact .inl rfl
    | some addr =>
        dsimp only
        split
        · exact .inl rfl
        · exact .inr ⟨by simpa using hnone, addr, rfl, rfl⟩

theorem Distinct.allocDev (h : s.Distinct) {kzalloc : Option Nat}
    (hfresh : ∀ addr ∈ kzalloc, ∀ dev ∈ s.devs, dev.addr ≠ addr) (init : Int) (configfs : Bool) :
  (s.allocDev kzalloc init configfs).1.Distinct
  := by
  obtain heq | ⟨hsingle, addr, rfl, heq⟩ := s.allocDev_cases kzalloc init configfs
  · rw [heq]
    apply h
  have hno : ∀ d ∈ s.devs, ¬d.single := by
    intro d hd hs
    rw [h.single d hd hs] at hsingle
    simp [getSingleDev, hs] at hsingle
  rw [heq]
  refine ⟨?_, ?_, ?_⟩
  · refine List.nodup_cons.mpr ⟨fun hmem => ?_, h.addrs⟩
    obtain ⟨d, hd, hda⟩ := List.mem_map.mp hmem
    apply hfresh addr rfl d hd hda
  · intro d hd hs
    obtain rfl | hd := List.mem_cons.mp hd
    · cases hs
    · apply absurd hs (hno d hd)
  · intro d hd d' hd' heq' hne
    obtain rfl | hd := List.mem_cons.mp hd
    · apply absurd rfl hne
    obtain rfl | hd' := List.mem_cons.mp hd'
    · apply absurd heq' hne
    · apply h.names d hd d' hd' heq' hne

end Registry

/-! ### The log -/

/-- The event told last of the instance at the address. -/
def lastEvent (log : List DevEvent) (addr : Nat) : Option DevEvent :=
  log.find? fun e => e.addr = addr

theorem lastEvent_cons_of_eq {log : List DevEvent} {e : DevEvent} {addr : Nat} (h : e.addr = addr) :
  lastEvent (e :: log) addr = some e
  := List.find?_cons_of_pos (by simpa using h)

theorem lastEvent_cons_of_ne {log : List DevEvent} {e : DevEvent} {addr : Nat} (h : e.addr ≠ addr) :
  lastEvent (e :: log) addr = lastEvent log addr
  := List.find?_cons_of_neg (by simpa using h)

namespace DevList

/-- What every step keeps.  An instance is mounted exactly if it was handed out last, and an address
at which there is no instance was not. -/
structure Inv (s : DevList) : Prop where
  distinct : s.reg.Distinct
  mounted : ∀ addr, lastEvent s.log addr = some (.acquired addr)
    ↔ ∃ dev ∈ s.reg.devs, dev.addr = addr ∧ dev.mounted
  alternating : ∀ newer addr older, s.log = newer ++ .acquired addr :: older →
    lastEvent older addr ≠ some (.acquired addr)

variable {s t : DevList}

/-- An event that is told of an instance, which is then mounted exactly if it was handed out. -/
theorem Inv.tell (h : s.Inv) {reg : Registry} {e : DevEvent} (hdistinct : reg.Distinct)
    (hself : e = .acquired e.addr ↔ ∃ dev ∈ reg.devs, dev.addr = e.addr ∧ dev.mounted)
    (hother : ∀ dev, dev.addr ≠ e.addr → (dev ∈ reg.devs ↔ dev ∈ s.reg.devs))
    (hlast : e = .acquired e.addr → lastEvent s.log e.addr ≠ some e) :
  Inv ⟨reg, e :: s.log⟩
  := by
  refine ⟨hdistinct, fun addr => ?_, fun newer addr older hlog => ?_⟩
  · by_cases haddr : e.addr = addr
    · subst haddr
      rw [lastEvent_cons_of_eq rfl, Option.some_inj]
      apply hself
    · rw [lastEvent_cons_of_ne haddr, h.mounted addr]
      refine exists_congr fun dev => ?_
      by_cases hdev : dev.addr = addr
      · rw [hother dev fun heq => haddr (heq.symm.trans hdev)]
      · simp [hdev]
  · cases newer with
    | nil =>
        obtain ⟨rfl, rfl⟩ := List.cons.inj hlog
        apply hlast rfl
    | cons e' newer => exact h.alternating newer addr older (List.cons.inj hlog).2

/-- A step that tells nothing. -/
theorem Inv.silent (h : s.Inv) {reg : Registry} (hdistinct : reg.Distinct)
    (hmounted : ∀ addr, (∃ dev ∈ reg.devs, dev.addr = addr ∧ dev.mounted)
      ↔ ∃ dev ∈ s.reg.devs, dev.addr = addr ∧ dev.mounted) :
  Inv { s with reg }
  := ⟨hdistinct, fun addr => (h.mounted addr).trans (hmounted addr).symm, h.alternating⟩

theorem mounted_modifyDev {reg : Registry} {addr : Nat} {f : FfsDev → FfsDev}
    (haddr : ∀ d, (f d).addr = d.addr) (hmounted : ∀ d, (f d).mounted = d.mounted) (a : Nat) :
  (∃ dev ∈ (reg.modifyDev addr f).devs, dev.addr = a ∧ dev.mounted)
    ↔ ∃ dev ∈ reg.devs, dev.addr = a ∧ dev.mounted
  := by
  have hsame : ∀ d : FfsDev, (if d.addr = addr then f d else d).addr = d.addr
      ∧ (if d.addr = addr then f d else d).mounted = d.mounted := by
    intro d
    split
    · exact ⟨haddr d, hmounted d⟩
    · exact ⟨rfl, rfl⟩
  constructor
  · rintro ⟨dev, hdev, hda, hm⟩
    obtain ⟨d, hd, rfl⟩ := Registry.mem_modifyDev.mp hdev
    exact ⟨d, hd, (hsame d).1.symm.trans hda, (hsame d).2 ▸ hm⟩
  · rintro ⟨d, hd, hda, hm⟩
    exact ⟨_, Registry.mem_modifyDev.mpr ⟨d, hd, rfl⟩, (hsame d).1.trans hda, (hsame d).2 ▸ hm⟩

theorem mem_modifyDev_of_ne {reg : Registry} {addr : Nat} {f : FfsDev → FfsDev} {dev : FfsDev}
    (haddr : ∀ d, (f d).addr = d.addr) (hne : dev.addr ≠ addr) :
  dev ∈ (reg.modifyDev addr f).devs ↔ dev ∈ reg.devs
  := by
  constructor
  · intro hdev
    obtain ⟨d, hd, rfl⟩ := Registry.mem_modifyDev.mp hdev
    by_cases hda : d.addr = addr
    · rw [if_pos hda] at hne
      apply absurd ((haddr d).trans hda) hne
    · rw [if_neg hda]
      apply hd
  · exact fun hdev => Registry.mem_modifyDev.mpr ⟨dev, hdev, if_neg hne⟩

theorem Inv.nameDev (h : s.Inv) (addr : Nat) (name : Bytes) :
  Inv { s with reg := (s.reg.nameDev addr name).1 }
  := by
  refine h.silent (h.distinct.nameDev addr name) fun a => ?_
  unfold Registry.nameDev
  cases Registry.doFindDev s.reg.devs name with
  | none => exact mounted_modifyDev (f := fun dev => { dev with name }) (by simp) (by simp) a
  | some existing => exact Iff.rfl

theorem Inv.singleDev (h : s.Inv) (addr : Nat) :
  Inv { s with reg := (s.reg.singleDev addr).1 }
  := by
  refine h.silent (h.distinct.singleDev addr) fun a => ?_
  unfold Registry.singleDev
  split
  · exact mounted_modifyDev (f := fun dev => { dev with single := true }) (by simp) (by simp) a
  · exact Iff.rfl

theorem Inv.allocDev (h : s.Inv) {kzalloc : Option Nat}
    (hfresh : ∀ addr ∈ kzalloc, ∀ dev ∈ s.reg.devs, dev.addr ≠ addr) (init : Int)
    (configfs : Bool) :
  Inv { s with reg := (s.reg.allocDev kzalloc init configfs).1 }
  := by
  refine h.silent (h.distinct.allocDev hfresh init configfs) fun a => ?_
  obtain heq | ⟨-, addr, -, heq⟩ := s.reg.allocDev_cases kzalloc init configfs
  · rw [heq]
  · rw [heq]
    simp

theorem Inv.freeDev (h : s.Inv) {dev : FfsDev} :
  Inv ⟨s.reg.freeDev dev, .freed dev.addr :: s.log⟩
  := by
  refine h.tell (h.distinct.freeDev dev) ?_ ?_ fun heq => by cases heq
  · refine iff_of_false (fun heq => by cases heq) ?_
    rintro ⟨d, hd, hda, -⟩
    rw [Registry.freeDev_devs] at hd
    have hne : d.addr ≠ dev.addr := by simpa using (List.mem_filter.mp hd).2
    apply hne hda
  · intro d hne
    change d.addr ≠ dev.addr at hne
    rw [Registry.freeDev_devs, List.mem_filter]
    exact and_iff_left (by simpa using hne)

theorem Inv.acquireDev (h : s.Inv) {name : Bytes} {refused : Bool} {reg : Registry} {addr : Nat}
    (hacquire : s.reg.acquireDev name refused = (reg, .ok addr)) :
  Inv ⟨reg, .acquired addr :: s.log⟩
  := by
  unfold Registry.acquireDev at hacquire
  cases hfind : s.reg.findDev name with
  | none =>
      rw [hfind] at hacquire
      cases hacquire
  | some dev =>
      rw [hfind] at hacquire
      dsimp only at hacquire
      split_ifs at hacquire with hmounted hrefused
      · cases hacquire
      · cases hacquire
      obtain ⟨rfl, heq⟩ := Prod.mk.inj hacquire
      obtain rfl := Except.ok.inj heq
      have hdev := (Registry.mem_of_findDev hfind).1
      refine h.tell (h.distinct.mount dev.addr true) ?_ ?_ ?_
      · refine iff_of_true rfl ⟨{ dev with mounted := true }, ?_, rfl, rfl⟩
        exact Registry.mem_modifyDev.mpr ⟨dev, hdev, if_pos rfl⟩
      · exact fun d hne => mem_modifyDev_of_ne (fun _ => rfl) hne
      · intro _ hlast
        obtain ⟨d, hd, hda, hm⟩ := (h.mounted dev.addr).mp hlast
        obtain rfl := h.distinct.eq_of_addr hd hdev hda
        apply hmounted hm

theorem Inv.releaseDev (h : s.Inv) (privateData : Option Nat) :
  Inv ⟨s.reg.releaseDev privateData, (privateData.map DevEvent.released).toList ++ s.log⟩
  := by
  cases privateData with
  | none => exact h
  | some addr =>
      refine h.tell (h.distinct.mount addr false) ?_ ?_ fun heq => by cases heq
      · refine iff_of_false (fun heq => by cases heq) ?_
        rintro ⟨dev, hdev, hda, hm⟩
        obtain ⟨d, -, rfl⟩ := Registry.mem_modifyDev.mp hdev
        by_cases hd : d.addr = addr
        · rw [if_pos hd] at hm
          cases hm
        · rw [if_neg hd] at hda
          apply hd hda
      · exact fun d hne => mem_modifyDev_of_ne (fun _ => rfl) hne

/-- Every step keeps the invariant. -/
theorem Inv.step (h : s.Inv) {a : DevAct} (ht : s.step a = some t) :
  t.Inv
  := by
  cases a with
  | alloc kzalloc init configfs =>
      simp only [DevList.step] at ht
      split_ifs at ht with hfresh
      obtain rfl := Option.some.inj ht
      refine h.allocDev (fun addr haddr dev hdev heq => hfresh ⟨addr, haddr, ?_⟩) init configfs
      exact List.any_eq_true.mpr ⟨dev, hdev, by simpa using heq⟩
  | free addr =>
      obtain ⟨dev, hfind, rfl⟩ := Option.map_eq_some_iff.mp ht
      obtain rfl : dev.addr = addr := by simpa using List.find?_some hfind
      apply h.freeDev
  | setInstName addr name =>
      obtain rfl := Option.some.inj ht
      rw [Registry.setInstName_eq]
      split
      · apply h
      · apply h.nameDev addr _
  | nameDev addr name =>
      simp only [DevList.step] at ht
      split_ifs at ht
      obtain rfl := Option.some.inj ht
      apply h.nameDev addr name
  | singleDev addr =>
      obtain rfl := Option.some.inj ht
      apply h.singleDev addr
  | acquire name refused =>
      simp only [DevList.step] at ht
      split at ht
      · rename_i reg addr hacquire
        obtain rfl := Option.some.inj ht
        apply h.acquireDev hacquire
      · rename_i reg e hacquire
        obtain rfl := Option.some.inj ht
        have hsame : reg = s.reg := by
          unfold Registry.acquireDev at hacquire
          split at hacquire
          · exact (Prod.mk.inj hacquire).1.symm
          · split_ifs at hacquire
            · exact (Prod.mk.inj hacquire).1.symm
            · exact (Prod.mk.inj hacquire).1.symm
            · cases (Prod.mk.inj hacquire).2
        rw [hsame]
        apply h
  | release privateData =>
      obtain rfl := Option.some.inj ht
      apply h.releaseDev privateData

/-- If nothing else is told of an instance that was handed out, that is what was told last. -/
theorem lastEvent_of_unreleased {between older : List DevEvent} {addr : Nat}
    (hreleased : .released addr ∉ between) (hfreed : .freed addr ∉ between) :
  lastEvent (between ++ .acquired addr :: older) addr = some (.acquired addr)
  := by
  induction between with
  | nil => exact lastEvent_cons_of_eq rfl
  | cons e between ih =>
      rw [List.mem_cons, not_or] at hreleased hfreed
      rw [List.cons_append]
      by_cases haddr : e.addr = addr
      · rw [lastEvent_cons_of_eq haddr]
        cases e with
        | acquired a => rw [show a = addr from haddr]
        | released a => exact absurd (congrArg DevEvent.released haddr.symm) hreleased.1
        | freed a => exact absurd (congrArg DevEvent.freed haddr.symm) hfreed.1
      · rw [lastEvent_cons_of_ne haddr]
        apply ih hreleased.2 hfreed.2

theorem findDev_eq_none {reg : Registry} {name : Bytes} (h : reg.Distinct) :
  reg.findDev name = none ↔ ∀ dev ∈ reg.devs, ¬dev.single ∧ dev.name ≠ name
  := by
  unfold Registry.findDev
  cases hsingle : Registry.getSingleDev reg.devs with
  | none =>
      have hnone : ∀ dev ∈ reg.devs, ¬dev.single := by
        intro dev hdev hs
        have hsome := Registry.getSingleDev_eq_some.mpr ⟨h.single dev hdev hs, hs⟩
        rw [hsingle] at hsome
        cases hsome
      dsimp only
      rw [Registry.doFindDev_eq_none]
      apply forall₂_congr fun dev hdev => (and_iff_right (hnone dev hdev)).symm
  | some dev =>
      obtain ⟨hdevs, hs⟩ := Registry.getSingleDev_eq_some.mp hsingle
      refine iff_of_false (fun heq => by cases heq) fun hall => ?_
      exact (hall dev (hdevs ▸ List.mem_singleton_self _)).1 hs

/-- Naming an instance changes nothing if it fails. -/
theorem nameDev_of_failed {reg : Registry} {addr : Nat} {name : Bytes}
    (h : (reg.nameDev addr name).2 ≠ 0) :
  (reg.nameDev addr name).1 = reg
  := by
  unfold Registry.nameDev at h ⊢
  cases hfind : Registry.doFindDev reg.devs name with
  | none => simp [hfind] at h
  | some existing => rfl

/-- The invariant is what is promised. -/
theorem Inv.exclusive (h : s.Inv) :
  s.Exclusive
  := by
  refine ⟨h.distinct.single, h.distinct.names, fun addr name => ⟨fun hfailed => ?_, ?_⟩, ?_, ?_⟩
  · rw [Registry.setInstName_eq] at hfailed ⊢
    split_ifs at hfailed ⊢ with hlong
    · rfl
    · apply nameDev_of_failed hfailed
  · apply nameDev_of_failed
  · intro newer between older addr hlog
    by_contra hcon
    rw [not_or] at hcon
    rw [List.append_assoc] at hlog
    apply h.alternating newer addr _ hlog (lastEvent_of_unreleased hcon.1 hcon.2)
  · exact fun name => ⟨findDev_eq_none h.distinct, fun dev => Registry.mem_of_findDev⟩

theorem inv_devListNew :
  devListNew.Inv
  := by
  have hnone : ∀ dev : FfsDev, dev ∉ registryNew.devs := fun dev => List.not_mem_nil
  refine ⟨⟨List.nodup_nil, ?_, ?_⟩, fun addr => ?_, fun newer addr older hlog => ?_⟩
  · exact fun dev hdev => absurd hdev (hnone dev)
  · exact fun dev hdev => absurd hdev (hnone dev)
  · exact iff_of_false (fun heq => by cases heq) fun ⟨dev, hdev, _⟩ => hnone dev hdev
  · exact absurd hlog.symm (by simp [devListNew])

end DevList

/-- The instances stay exclusive, whatever happens to them. -/
theorem devList_exclusive {as : List DevAct} {s : DevList}
    (h : Run (fun s a t => s.step a = some t) devListNew as s) :
  s.Exclusive
  := (h.keeps DevList.Inv (fun _ _ _ hs ht => hs.step ht) DevList.inv_devListNew).exclusive

/-- An instance is handed out, asked for in vain, released and handed out again. -/
def handOutActs : List DevAct :=
  [.alloc (some 4096) 0 true, .setInstName 4096 [97], .acquire (functionGeneric ++ [97]) false,
   .acquire (functionGeneric ++ [97]) false, .release (some 4096),
   .acquire (functionGeneric ++ [97]) false]

theorem devList_exclusive_handOut :
  ∃ s, Run (fun s a t => s.step a = some t) devListNew handOutActs s
    ∧ s.log = [.acquired 4096, .released 4096, .acquired 4096] ∧ s.Exclusive
  := by
  have hrun : ∃ s, Run (fun s a t => s.step a = some t) devListNew handOutActs s
      ∧ s.log = [.acquired 4096, .released 4096, .acquired 4096] :=
    ⟨_, Run.of_foldlM (f := DevList.step) rfl, rfl⟩
  obtain ⟨s, hrun, hlog⟩ := hrun
  exact ⟨s, hrun, hlog, devList_exclusive hrun⟩

end Ffs
