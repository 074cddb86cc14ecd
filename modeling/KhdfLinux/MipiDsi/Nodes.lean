import KhdfLinux.Hdf.Base
import KhdfLinux.Lib.Ledger
import KhdfLinux.Lib.Run
import Mathlib.Data.List.Perm.Basic
import Mathlib.Logic.Function.Basic

/-!
# The device nodes of DSI

`MipiDsiDevModuleInit` registers a node for each controller.  The operations of a file find the
controller through one current id, which a registration sets and a deregistration clears, and the
pointer to the node is kept when it is freed.  `nodeOwned_iff`: over any calls, a file acts on the
controller that it opened, what is opened is closed once, and the nodes are deregistered and freed
once, exactly as long as a file is used only where its id is the current one, or both found no
controller, no init fails after its node was registered, none registers a second node of an id, and
no node is deregistered.
-/

namespace MipiTx

/-- `struct miscdevice`. -/
structure MiscDevice where
  name : Option String
  mode : Nat
  deriving DecidableEq, Repr

/-- `struct MipiDsiVfsPara`, its controller and its node by their numbers, and the count of its
semaphore. -/
structure MipiDsiVfsPara where
  cntlr : Option Nat
  miscdev : Option Nat
  sem : Nat
  deriving DecidableEq, Repr

/-- What the kernel answers when a module is initialised: whether there is memory for the device and
its name, whether the name fits, the result of `misc_register`, whether the name of the proc entry
fits and the entry is created, and whether there is a semaphore. -/
structure Registration where
  dev : Bool
  name : Bool
  named : Bool
  miscRegister : Int
  procNamed : Bool
  procCreate : Bool
  sem : Bool
  deriving DecidableEq, Repr

/-- `g_vfsPara` and `g_curId`; the devices, those that were made and freed, those that are
registered with their ids, and those that were deregistered without being so; and the open files
with the controllers they opened, and how often each controller was opened and closed. -/
structure State where
  vfsPara : Nat → MipiDsiVfsPara
  curId : Nat
  devices : Nat → MiscDevice
  devs : Ledger
  registered : List (Nat × Nat)
  strays : List Nat
  files : List (Option Nat)
  opens : Nat → Nat
  closes : Nat → Nat

/-- The calls: `MipiDsiDevModuleInit` and `MipiDsiDevModuleExit` of an id, an open with whether
`MipiDsiCntlrOpen` finds a controller, and the ioctls and releases of the open files, by their
places.  An ioctl has an argument or not, and may set a configuration, which is copied or not. -/
inductive Act where
  | moduleInit (id : Nat) (r : Registration)
  | moduleExit (id : Nat)
  | openFile (found : Bool)
  | ioctl (n : Nat) (arg setCfg copied : Bool)
  | release (n : Nat)

/-- `MIPI_TX_DEV_NAME`. -/
def mipiTxDevName : String := "hi_mipi_tx"

/-- The name of the node of an id. -/
def nodeName (name : String) (id : Nat) : String := if id ≠ 0 then name ++ toString id else name

namespace State

/-- Nothing was called. -/
def init : State :=
  ⟨fun _ => ⟨none, none, 0⟩, 0, fun _ => ⟨none, 0⟩, .empty, [], [], [], fun _ => 0, fun _ => 0⟩

variable (maxCntlrCnt : Nat) (s : State)

/-- `OsalMemFree` of a device. -/
def freeDev (d : Nat) : State := { s with devs := s.devs.free d }

/-- `misc_deregister`. -/
def miscDeregister (d : Nat) : State :=
  if d ∈ s.registered.map Prod.fst then
    { s with registered := s.registered.filter fun p => p.1 ≠ d }
  else { s with strays := d :: s.strays }

/-- `RegisterDevice`, of which the names and the operations are not null. -/
def registerDevice (name : String) (id mode : Nat) (r : Registration) : Int × State :=
  if maxCntlrCnt ≤ id then (Hdf.errInvalidParam, s)
  else if ¬r.dev then (Hdf.errMallocFail, s)
  else
    let d := s.devs.allocated
    let s := { s with devs := s.devs.alloc }
    if ¬r.name then (Hdf.errMallocFail, s.freeDev d)
    else if ¬r.named then (if id ≠ 0 then Hdf.failure else Hdf.errIo, s.freeDev d)
    else
      let s := { s with devices := Function.update s.devices d ⟨some (nodeName name id), mode⟩ }
      if r.miscRegister < 0 then (r.miscRegister, s.freeDev d)
      else
        (Hdf.success, { s with
          registered := s.registered ++ [(d, id)]
          vfsPara := Function.update s.vfsPara id { s.vfsPara id with miscdev := some d }
          curId := id })

/-- `ProcRegister`. -/
def procRegister (id : Nat) (r : Registration) : Int :=
  if maxCntlrCnt ≤ id then Hdf.errInvalidParam
  else if ¬r.procNamed then Hdf.failure
  else if ¬r.procCreate then Hdf.failure
  else Hdf.success

/-- `UnregisterDevice`: the pointer to the device is kept. -/
def unregisterDevice (id : Nat) : State :=
  if maxCntlrCnt ≤ id then s
  else
    match (s.vfsPara id).miscdev with
    | none => s
    | some d =>
        let s := s.miscDeregister d
        let s := { s with devices := Function.update s.devices d { s.devices d with name := none } }
        { s.freeDev d with curId := 0 }

/-- `SemaInit`. -/
def semaInit (id : Nat) (r : Registration) (val : Nat) : Int × State :=
  if ¬r.sem then (Hdf.errInvalidObject, s)
  else
    (Hdf.success, { s with
      vfsPara := Function.update s.vfsPara id { s.vfsPara id with sem := val } })

/-- `MipiDsiDevModuleInit`. -/
def moduleInit (id : Nat) (r : Registration) : Int × State :=
  match s.registerDevice maxCntlrCnt mipiTxDevName id 0o660 r with
  | (0, s) =>
      let ret := procRegister maxCntlrCnt id r
      if ret ≠ Hdf.success then (ret, s.unregisterDevice maxCntlrCnt id)
      else
        match s.semaInit id r 1 with
        | (0, s) => (Hdf.success, s)
        | (ret, s) => (ret, s.unregisterDevice maxCntlrCnt id)
  | (ret, s) => (ret, s)

/-- `MipiDsiDevModuleExit`. -/
def moduleExit (id : Nat) : State := s.unregisterDevice maxCntlrCnt id

/-- `GetId`. -/
def getId : Nat := if maxCntlrCnt ≤ s.curId then 0 else s.curId

/-- `GetCntlrFromFilep`, which does not look at the file. -/
def getCntlrFromFilep : Option Nat := (s.vfsPara (s.getId maxCntlrCnt)).cntlr

/-- `MipiDsiDevOpen`: the controller of the current id is opened, if one is found. -/
def mipiDsiDevOpen (found : Bool) : State :=
  let id := s.getId maxCntlrCnt
  { s with
    vfsPara := Function.update s.vfsPara id
      { s.vfsPara id with cntlr := if found then some id else none }
    opens := if found then Function.update s.opens id (s.opens id + 1) else s.opens }

/-- `MipiDsiDevIoctl`, as far as it changes the current id: `MipiDsiDevSetCfg` sets it to the
`devNo` of the controller. -/
def mipiDsiDevIoctl (arg setCfg copied : Bool) : State :=
  if ¬arg then s
  else
    match s.getCntlrFromFilep maxCntlrCnt with
    | none => s
    | some devNo => if setCfg && copied then { s with curId := devNo } else s

/-- `MipiDsiDevRelease`: the pointer to the controller is kept. -/
def mipiDsiDevRelease : State :=
  match s.getCntlrFromFilep maxCntlrCnt with
  | none => s
  | some c => { s with closes := Function.update s.closes c (s.closes c + 1) }

/-- The state after a call; what is called on a file that is not open does nothing. -/
def next : Act → State
  | .moduleInit id r => (s.moduleInit maxCntlrCnt id r).2
  | .moduleExit id => s.moduleExit maxCntlrCnt id
  | .openFile found =>
      { s.mipiDsiDevOpen maxCntlrCnt found with
        files := s.files ++ [if found then some (s.getId maxCntlrCnt) else none] }
  | .ioctl n arg setCfg copied =>
      if n < s.files.length then s.mipiDsiDevIoctl maxCntlrCnt arg setCfg copied else s
  | .release n =>
      if n < s.files.length then
        { s.mipiDsiDevRelease maxCntlrCnt with files := s.files.eraseIdx n }
      else s

end State

/-- The place of the open file that a call acts on. -/
def Act.file : Act → Option Nat
  | .ioctl n arg _ _ => if arg then some n else none
  | .release n => some n
  | _ => none

namespace State

variable (maxCntlrCnt : Nat) (s : State)

/-- Each device that was made is registered or was freed once, none was deregistered without being
registered, and the pointers to devices are to those that are registered. -/
structure Published : Prop where
  holds : s.devs.Holds (s.registered.map Prod.fst)
  strays : s.strays = []
  miscdev : ∀ id d, (s.vfsPara id).miscdev = some d ↔ (d, id) ∈ s.registered

/-- Each controller was closed as often as it was opened, but for the files that are open. -/
def Matched : Prop := ∀ c, s.opens c = s.closes c + s.files.count (some c)

/-- A file acts on the controller that it opened; after the call the files match, the devices are
published, and after an exit none is registered for the id. -/
structure NodeOwned (a : Act) : Prop where
  acts : ∀ n file, a.file = some n → s.files[n]? = some file →
    s.getCntlrFromFilep maxCntlrCnt = file
  matched : (s.next maxCntlrCnt a).Matched
  published : (s.next maxCntlrCnt a).Published
  exited : ∀ id, a = .moduleExit id → ∀ d, (d, id) ∉ (s.next maxCntlrCnt a).registered

/-- The open file that opened a controller is used while its id is the current one and the pointer
of the id is set, and one that found none while the pointer of the current id is not. -/
def Agrees (n : Nat) : Prop :=
  ∀ file, s.files[n]? = some file →
    match file with
    | some id => s.getId maxCntlrCnt = id ∧ (s.vfsPara id).cntlr.isSome
    | none => (s.vfsPara (s.getId maxCntlrCnt)).cntlr = none

end State

/-- The device is registered. -/
def Registration.Registers (r : Registration) : Prop :=
  r.dev ∧ r.name ∧ r.named ∧ 0 ≤ r.miscRegister

namespace State

variable (maxCntlrCnt : Nat) (s : State)

/-- An init that registers a device is of an id without one, and does not fail after that; an exit
is of an id without a device; and the files agree. -/
def Kept : Act → Prop
  | .moduleInit id r => id < maxCntlrCnt → r.Registers →
      (s.vfsPara id).miscdev = none ∧ r.procNamed ∧ r.procCreate ∧ r.sem
  | .moduleExit id => id < maxCntlrCnt → (s.vfsPara id).miscdev = none
  | .openFile _ => True
  | .ioctl n arg _ _ => arg → s.Agrees maxCntlrCnt n
  | .release n => s.Agrees maxCntlrCnt n

/-- The controller of an id is the one of its number. -/
structure Inv : Prop where
  cntlr : ∀ id c, (s.vfsPara id).cntlr = some c → c = id
  matched : s.Matched
  published : s.Published
  bound : ∀ id, maxCntlrCnt ≤ id → (s.vfsPara id).miscdev = none

end State

variable {maxCntlrCnt : Nat} {s : State}

/-- Nothing was called. -/
theorem State.inv_init :
  State.init.Inv maxCntlrCnt
  where
  cntlr _ _ h := nomatch h
  matched _ := rfl
  published := ⟨Ledger.holds_empty, rfl, fun _ _ => ⟨fun h => (nomatch h), fun h => (nomatch h)⟩⟩
  bound _ _ := rfl

/-! ### Registration -/

/-- A device is registered for an id, and the rest is kept. -/
structure State.Registers (s : State) (id : Nat) (t : State) : Prop where
  devs : t.devs = s.devs.alloc
  registered : t.registered = s.registered ++ [(s.devs.allocated, id)]
  strays : t.strays = s.strays
  others : ∀ id', id' ≠ id → t.vfsPara id' = s.vfsPara id'
  miscdev : (t.vfsPara id).miscdev = some s.devs.allocated
  cntlr : (t.vfsPara id).cntlr = (s.vfsPara id).cntlr
  files : t.files = s.files
  opens : t.opens = s.opens
  closes : t.closes = s.closes

/-- A device that is registered. -/
theorem State.registerDevice_success (s : State) (name : String) (mode : Nat) {id : Nat}
    {r : Registration} (hid : id < maxCntlrCnt) (hr : r.Registers) :
  ∃ t, s.registerDevice maxCntlrCnt name id mode r = (Hdf.success, t) ∧ s.Registers id t
  := by
  obtain ⟨hdev, hname, hnamed, hmisc⟩ := hr
  unfold State.registerDevice
  dsimp only
  rw [if_neg (Nat.not_le.mpr hid), if_neg (not_not_intro hdev), if_neg (not_not_intro hname),
    if_neg (not_not_intro hnamed), if_neg (Int.not_lt.mpr hmisc)]
  refine ⟨_, rfl, rfl, rfl, rfl, fun id' hne => ?_, ?_, ?_, rfl, rfl, rfl⟩
  · apply Function.update_of_ne hne
  · show (Function.update s.vfsPara id _ id).miscdev = _
    rw [Function.update_self]
  · show (Function.update s.vfsPara id _ id).cntlr = _
    rw [Function.update_self]

/-- Its semaphore is initialised. -/
theorem State.Registers.semaInit {id : Nat} {t : State} {r : Registration} (ht : s.Registers id t)
    (hsem : r.sem) :
  ∃ u, t.semaInit id r 1 = (Hdf.success, u) ∧ s.Registers id u
  := by
  unfold State.semaInit
  rw [if_neg (not_not_intro hsem)]
  refine ⟨_, rfl, ht.devs, ht.registered, ht.strays, fun id' hne => ?_, ?_, ?_, ht.files, ht.opens,
    ht.closes⟩
  · show Function.update t.vfsPara id _ id' = _
    rw [Function.update_of_ne hne, ht.others id' hne]
  · show (Function.update t.vfsPara id _ id).miscdev = _
    rw [Function.update_self, ht.miscdev]
  · show (Function.update t.vfsPara id _ id).cntlr = _
    rw [Function.update_self, ht.cntlr]

/-- A device that is not registered is freed. -/
theorem State.registerDevice_failure (s : State) (name : String) (mode : Nat) {id : Nat}
    {r : Registration} (h : ¬(id < maxCntlrCnt ∧ r.Registers)) :
  ∃ ret devices devs, ret ≠ 0
    ∧ s.registerDevice maxCntlrCnt name id mode r
      = (ret, { s with devices := devices, devs := devs })
    ∧ (devs = s.devs ∨ devs = s.devs.alloc.free s.devs.allocated)
  := by
  unfold State.registerDevice
  split
  · exact ⟨Hdf.errInvalidParam, s.devices, s.devs, by decide, rfl, .inl rfl⟩
  next hid =>
  split
  · exact ⟨Hdf.errMallocFail, s.devices, s.devs, by decide, rfl, .inl rfl⟩
  next hdev =>
  dsimp only
  split
  · exact ⟨Hdf.errMallocFail, s.devices, _, by decide, rfl, .inr rfl⟩
  next hname =>
  split
  · refine ⟨_, s.devices, _, ?_, rfl, .inr rfl⟩
    split <;> decide
  next hnamed =>
  split
  · next hmisc => exact ⟨_, _, _, Int.ne_of_lt hmisc, rfl, .inr rfl⟩
  next hmisc =>
  exact absurd ⟨Nat.not_le.mp hid, not_not.mp hdev, not_not.mp hname, not_not.mp hnamed,
    Int.not_lt.mp hmisc⟩ h

/-- An init that registers no device. -/
theorem State.Inv.moduleInit_failure {id : Nat} {r : Registration} (h : s.Inv maxCntlrCnt)
    (hr : ¬(id < maxCntlrCnt ∧ r.Registers)) :
  (s.next maxCntlrCnt (.moduleInit id r)).Inv maxCntlrCnt
  := by
  obtain ⟨ret, devices, devs, hret, heq, hdevs⟩ :=
    s.registerDevice_failure mipiTxDevName 0o660 hr
  have hnext : s.next maxCntlrCnt (.moduleInit id r)
      = { s with devices := devices, devs := devs } := by
    unfold State.next State.moduleInit
    dsimp only
    rw [heq]
    split
    · next heq' => exact absurd (Prod.mk.inj heq').1 hret
    · next heq' => rw [← (Prod.mk.inj heq').2]
  have hholds : devs.Holds (s.registered.map Prod.fst) := by
    obtain rfl | rfl := hdevs
    · apply h.published.holds
    · apply h.published.holds.alloc_free
  rw [hnext]
  exact ⟨h.cntlr, h.matched, ⟨hholds, h.published.strays, h.published.miscdev⟩, h.bound⟩

/-- An init that registers a device, and deregisters it if it fails after that. -/
theorem State.next_moduleInit {id : Nat} {r : Registration} (hid : id < maxCntlrCnt)
    (hr : r.Registers) :
  ∃ t, s.Registers id t
    ∧ s.next maxCntlrCnt (.moduleInit id r)
      = if r.procNamed && r.procCreate && r.sem then t else t.unregisterDevice maxCntlrCnt id
  := by
  obtain ⟨t, heq, ht⟩ := s.registerDevice_success mipiTxDevName 0o660 hid hr
  have hproc : State.procRegister maxCntlrCnt id r
      = if r.procNamed && r.procCreate then Hdf.success else Hdf.failure := by
    unfold State.procRegister
    rw [if_neg (Nat.not_le.mpr hid)]
    cases r.procNamed <;> cases r.procCreate <;> rfl
  unfold State.next State.moduleInit
  dsimp only
  rw [heq, hproc]
  cases r.procNamed && r.procCreate with
  | false => exact ⟨t, ht, rfl⟩
  | true =>
      cases hsem : r.sem with
      | false =>
          refine ⟨t, ht, ?_⟩
          have hfailed : t.semaInit id r 1 = (Hdf.errInvalidObject, t) := by
            unfold State.semaInit
            rw [hsem]
            rfl
          show (match t.semaInit id r 1 with
            | (0, s) => (Hdf.success, s)
            | (ret, s) => (ret, s.unregisterDevice maxCntlrCnt id)).2 = _
          rw [hfailed]
          rfl
      | true =>
          obtain ⟨u, hu, hregisters⟩ := ht.semaInit hsem
          refine ⟨u, hregisters, ?_⟩
          show (match t.semaInit id r 1 with
            | (0, s) => (Hdf.success, s)
            | (ret, s) => (ret, s.unregisterDevice maxCntlrCnt id)).2 = _
          rw [hu]
          rfl

/-- A device that is deregistered is still pointed to. -/
theorem State.unregisterDevice_not_published {id d : Nat} (hid : id < maxCntlrCnt)
    (hmiscdev : (s.vfsPara id).miscdev = some d) :
  ¬(s.unregisterDevice maxCntlrCnt id).Published
  := by
  intro hpublished
  unfold State.unregisterDevice at hpublished
  rw [if_neg (Nat.not_le.mpr hid), hmiscdev] at hpublished
  have hpara : (s.miscDeregister d).vfsPara = s.vfsPara := by
    unfold State.miscDeregister
    split <;> rfl
  have hmem : (d, id) ∈ (s.miscDeregister d).registered := by
    apply (hpublished.miscdev id d).mp
    show ((s.miscDeregister d).vfsPara id).miscdev = some d
    rw [hpara, hmiscdev]
  unfold State.miscDeregister at hmem
  split at hmem
  · exact absurd rfl (of_decide_eq_true (List.mem_filter.mp hmem).2)
  · next hnot => exact hnot (List.mem_map_of_mem hmem)

/-- An id without a device is left alone. -/
theorem State.unregisterDevice_none {id : Nat}
    (h : id < maxCntlrCnt → (s.vfsPara id).miscdev = none) :
  s.unregisterDevice maxCntlrCnt id = s
  := by
  unfold State.unregisterDevice
  split
  · rfl
  · next hid => rw [h (Nat.not_le.mp hid)]

/-- A device that is registered for an id without one is published. -/
theorem State.Registers.inv {id : Nat} {t : State} (ht : s.Registers id t)
    (hid : id < maxCntlrCnt) (h : s.Inv maxCntlrCnt) (hnone : (s.vfsPara id).miscdev = none) :
  t.Inv maxCntlrCnt
  where
  cntlr id' c hc := by
    by_cases heq : id' = id
    · subst heq
      rw [ht.cntlr] at hc
      apply h.cntlr _ _ hc
    · rw [ht.others id' heq] at hc
      apply h.cntlr _ _ hc
  matched c := by
    rw [ht.opens, ht.closes, ht.files]
    apply h.matched
  published := by
    refine ⟨?_, ht.strays.trans h.published.strays, fun id' d => ?_⟩
    · rw [ht.devs, ht.registered, List.map_append]
      apply h.published.holds.alloc
    · rw [ht.registered, List.mem_append, List.mem_singleton, ← h.published.miscdev]
      by_cases heq : id' = id
      · subst heq
        rw [ht.miscdev, hnone]
        simp [eq_comm]
      · rw [ht.others id' heq]
        simp [heq]
  bound id' hid' := by
    rw [ht.others id' (by omega)]
    apply h.bound id' hid'

/-- A second device of an id leaves the first one without a pointer. -/
theorem State.Registers.not_published {id d : Nat} {t : State} (ht : s.Registers id t)
    (h : s.Published) (hmiscdev : (s.vfsPara id).miscdev = some d) :
  ¬t.Published
  := by
  intro hpublished
  have hmem := (h.miscdev id d).mp hmiscdev
  have hlt := (h.holds.kept d (List.mem_map_of_mem hmem)).1
  have hsome : (t.vfsPara id).miscdev = some d := by
    apply (hpublished.miscdev id d).mpr
    rw [ht.registered]
    apply List.mem_append_left _ hmem
  rw [ht.miscdev] at hsome
  exact absurd (Option.some.inj hsome) (Nat.ne_of_gt hlt)

/-! ### Files -/

/-- The files agree exactly if the controller that is found is the one they opened. -/
theorem State.Inv.agrees_iff {n : Nat} (h : s.Inv maxCntlrCnt) :
  (∀ file, s.files[n]? = some file → s.getCntlrFromFilep maxCntlrCnt = file)
    ↔ s.Agrees maxCntlrCnt n
  := by
  unfold State.Agrees State.getCntlrFromFilep
  apply forall_congr' fun file => ?_
  apply imp_congr_right fun _ => ?_
  cases file with
  | none => rfl
  | some id =>
      constructor
      · intro hcntlr
        obtain rfl := h.cntlr _ _ hcntlr
        exact ⟨rfl, Option.isSome_of_mem hcntlr⟩
      · rintro ⟨hid, hsome⟩
        obtain ⟨c, hc⟩ := Option.isSome_iff_exists.mp hsome
        rw [hid, hc, h.cntlr id c hc]

/-- An open leaves the nodes alone. -/
theorem State.mipiDsiDevOpen_miscdev (s : State) (found : Bool) (id : Nat) :
  ((s.mipiDsiDevOpen maxCntlrCnt found).vfsPara id).miscdev = (s.vfsPara id).miscdev
  := by
  unfold State.mipiDsiDevOpen
  dsimp only
  by_cases hid : id = s.getId maxCntlrCnt
  · rw [hid, Function.update_self]
  · rw [Function.update_of_ne hid]

/-- An open sets the controller of the current id. -/
theorem State.Inv.openFile (h : s.Inv maxCntlrCnt) (found : Bool) :
  (s.next maxCntlrCnt (.openFile found)).Inv maxCntlrCnt
  where
  cntlr id c hc := by
    have hc : (Function.update s.vfsPara (s.getId maxCntlrCnt)
      { s.vfsPara (s.getId maxCntlrCnt) with
        cntlr := if found then some (s.getId maxCntlrCnt) else none } id).cntlr = some c := hc
    by_cases hid : id = s.getId maxCntlrCnt
    · rw [hid, Function.update_self] at hc
      cases found with
      | false => cases hc
      | true => rw [hid, ← Option.some.inj hc]
    · rw [Function.update_of_ne hid] at hc
      apply h.cntlr id c hc
  matched c := by
    have hmatched := h.matched c
    cases found with
    | false =>
        show s.opens c = s.closes c + (s.files ++ [none]).count (some c)
        rw [List.count_append, List.count_singleton]
        simpa using hmatched
    | true =>
        show Function.update s.opens (s.getId maxCntlrCnt) (s.opens (s.getId maxCntlrCnt) + 1) c
          = s.closes c + (s.files ++ [some (s.getId maxCntlrCnt)]).count (some c)
        rw [List.count_append, List.count_singleton]
        by_cases hc : c = s.getId maxCntlrCnt
        · subst hc
          rw [Function.update_self, hmatched, if_pos (beq_self_eq_true _), Nat.add_assoc]
        · rw [Function.update_of_ne hc, hmatched]
          simp [Ne.symm hc]
  published := by
    refine ⟨h.published.holds, h.published.strays, fun id d => ?_⟩
    show ((s.mipiDsiDevOpen maxCntlrCnt found).vfsPara id).miscdev = some d ↔ (d, id) ∈ s.registered
    rw [State.mipiDsiDevOpen_miscdev, h.published.miscdev]
  bound id hid := by
    show ((s.mipiDsiDevOpen maxCntlrCnt found).vfsPara id).miscdev = none
    rw [State.mipiDsiDevOpen_miscdev, h.bound id hid]

/-- An ioctl changes no more than the current id. -/
theorem State.Inv.ioctl (h : s.Inv maxCntlrCnt) (n : Nat) (arg setCfg copied : Bool) :
  (s.next maxCntlrCnt (.ioctl n arg setCfg copied)).Inv maxCntlrCnt
  := by
  have hcurId : ∀ id, State.Inv maxCntlrCnt { s with curId := id } :=
    fun id => ⟨h.cntlr, h.matched, ⟨h.published.holds, h.published.strays, h.published.miscdev⟩,
      h.bound⟩
  unfold State.next State.mipiDsiDevIoctl
  dsimp only
  split
  · split
    · apply h
    split
    · apply h
    split
    · apply hcurId
    · apply h
  · apply h

/-- A release of a file that agrees closes the controller that the file opened. -/
theorem State.Inv.release {n : Nat} (h : s.Inv maxCntlrCnt) (hagrees : s.Agrees maxCntlrCnt n) :
  (s.next maxCntlrCnt (.release n)).Inv maxCntlrCnt
  := by
  unfold State.next
  dsimp only
  split
  · next hn =>
      have hfile := h.agrees_iff.mpr hagrees _ (List.getElem?_eq_getElem hn)
      have hperm := List.getElem_cons_eraseIdx_perm hn
      unfold State.mipiDsiDevRelease
      rw [hfile]
      cases hcntlr : s.files[n] with
      | none =>
          refine ⟨h.cntlr, fun c => ?_, ⟨h.published.holds, h.published.strays,
            h.published.miscdev⟩, h.bound⟩
          rw [hcntlr] at hperm
          have hcount := hperm.count_eq (some c)
          have hne : (none : Option Nat) ≠ some c := nofun
          rw [List.count_cons_of_ne hne] at hcount
          show s.opens c = s.closes c + (s.files.eraseIdx n).count (some c)
          rw [hcount, h.matched]
      | some c' =>
          refine ⟨h.cntlr, fun c => ?_, ⟨h.published.holds, h.published.strays,
            h.published.miscdev⟩, h.bound⟩
          rw [hcntlr] at hperm
          have hcount := hperm.count_eq (some c)
          show s.opens c = Function.update s.closes c' (s.closes c' + 1) c
            + (s.files.eraseIdx n).count (some c)
          by_cases hc : c = c'
          · subst hc
            rw [List.count_cons_self] at hcount
            rw [Function.update_self, h.matched, ← hcount]
            omega
          · rw [List.count_cons_of_ne (by simpa using Ne.symm hc)] at hcount
            rw [Function.update_of_ne hc, hcount, h.matched]
  · apply h

/-! ### Calls -/

/-- A call after which the invariant holds, on files that agree, and which is no exit. -/
theorem State.Inv.nodeOwned {a : Act} (ht : (s.next maxCntlrCnt a).Inv maxCntlrCnt)
    (hacts : ∀ n file, a.file = some n → s.files[n]? = some file →
      s.getCntlrFromFilep maxCntlrCnt = file)
    (hexited : ∀ id, a = .moduleExit id → ∀ d, (d, id) ∉ (s.next maxCntlrCnt a).registered) :
  s.NodeOwned maxCntlrCnt a
  := ⟨hacts, ht.matched, ht.published, hexited⟩

/-- A call that is kept keeps the invariant. -/
theorem State.Inv.next {a : Act} (h : s.Inv maxCntlrCnt) (ha : s.Kept maxCntlrCnt a) :
  (s.next maxCntlrCnt a).Inv maxCntlrCnt
  := by
  cases a with
  | moduleInit id r =>
      by_cases hr : id < maxCntlrCnt ∧ r.Registers
      · obtain ⟨hnone, hprocNamed, hprocCreate, hsem⟩ := ha hr.1 hr.2
        obtain ⟨t, ht, hnext⟩ := State.next_moduleInit (s := s) hr.1 hr.2
        rw [hnext, hprocNamed, hprocCreate, hsem]
        apply ht.inv hr.1 h hnone
      · apply h.moduleInit_failure hr
  | moduleExit id =>
      show (s.unregisterDevice maxCntlrCnt id).Inv maxCntlrCnt
      rw [State.unregisterDevice_none ha]
      apply h
  | openFile found => apply h.openFile
  | ioctl n arg setCfg copied => apply h.ioctl
  | release n => apply h.release ha

/-- A call leaves the nodes owned exactly if it is kept. -/
theorem State.Inv.nodeOwned_iff_kept {a : Act} (h : s.Inv maxCntlrCnt) :
  s.NodeOwned maxCntlrCnt a ↔ s.Kept maxCntlrCnt a
  := by
  constructor
  · intro howned
    cases a with
    | moduleInit id r =>
        intro hid hr
        obtain ⟨t, ht, hnext⟩ := State.next_moduleInit (s := s) hid hr
        have hpublished := howned.published
        rw [hnext] at hpublished
        split at hpublished
        · next hok =>
            obtain ⟨hproc, hsem⟩ := Bool.and_eq_true_iff.mp hok
            obtain ⟨hprocNamed, hprocCreate⟩ := Bool.and_eq_true_iff.mp hproc
            refine ⟨?_, hprocNamed, hprocCreate, hsem⟩
            cases hmiscdev : (s.vfsPara id).miscdev with
            | none => rfl
            | some d => exact absurd hpublished (ht.not_published h.published hmiscdev)
        · exact absurd hpublished (State.unregisterDevice_not_published hid ht.miscdev)
    | moduleExit id =>
        intro hid
        cases hmiscdev : (s.vfsPara id).miscdev with
        | none => rfl
        | some d =>
            exact absurd howned.published (State.unregisterDevice_not_published hid hmiscdev)
    | openFile found => trivial
    | ioctl n arg setCfg copied =>
        intro harg
        apply h.agrees_iff.mp
        intro file hfile
        apply howned.acts n file (if_pos harg) hfile
    | release n => exact h.agrees_iff.mp fun file hfile => howned.acts n file rfl hfile
  · intro ha
    apply State.Inv.nodeOwned (h.next ha)
    · intro n file hn hfile
      cases a with
      | ioctl n' arg setCfg copied =>
          unfold Act.file at hn
          dsimp only at hn
          split at hn
          · next harg =>
              obtain rfl := Option.some.inj hn
              exact h.agrees_iff.mpr (ha harg) file hfile
          · cases hn
      | release n' =>
          obtain rfl := Option.some.inj hn
          exact h.agrees_iff.mpr ha file hfile
      | _ => cases hn
    · rintro id rfl d hmem
      have hsame : s.next maxCntlrCnt (.moduleExit id) = s := State.unregisterDevice_none ha
      rw [hsame] at hmem
      have hmiscdev := (h.published.miscdev id d).mpr hmem
      by_cases hid : id < maxCntlrCnt
      · cases hmiscdev.symm.trans (ha hid)
      · cases hmiscdev.symm.trans (h.bound id (Nat.not_lt.mp hid))

/-- Over any calls, the files act on the controllers that they opened, these are closed once, and
the nodes are deregistered and freed once, exactly as long as the calls are kept. -/
theorem nodeOwned_iff (maxCntlrCnt : Nat) (acts : List Act) :
  Along (State.next maxCntlrCnt) (State.NodeOwned maxCntlrCnt) .init acts
    ↔ Along (State.next maxCntlrCnt) (State.Kept maxCntlrCnt) .init acts
  := by
  have hiff : ∀ (s : State) a, s.Inv maxCntlrCnt →
      (s.NodeOwned maxCntlrCnt a ↔ s.Kept maxCntlrCnt a) :=
    fun s a h => h.nodeOwned_iff_kept
  have hkeep : ∀ (s : State) a, s.Inv maxCntlrCnt → s.Kept maxCntlrCnt a →
      (s.next maxCntlrCnt a).Inv maxCntlrCnt :=
    fun s a h ha => h.next ha
  apply along_iff hiff hkeep State.inv_init

/-- With two ids: after a second init, the ioctls of a file that opened the first controller find
none, and its release closes none; and after two exits of an id its node is freed twice. -/
theorem not_nodeOwned :
  ∃ (r : Registration) (files exits : List Act),
    r = ⟨true, true, true, 0, true, true, true⟩
      ∧ ¬Along (State.next 2) (State.NodeOwned 2) .init files
      ∧ (files.foldl (State.next 2) .init).opens 0 = 1
      ∧ (files.foldl (State.next 2) .init).closes 0 = 0
      ∧ (files.foldl (State.next 2) .init).files = []
      ∧ ¬Along (State.next 2) (State.NodeOwned 2) .init exits
      ∧ (exits.foldl (State.next 2) .init).devs = ⟨1, [0, 0]⟩
      ∧ (exits.foldl (State.next 2) .init).strays = [0]
  := by
  refine ⟨_, [.moduleInit 0 ⟨true, true, true, 0, true, true, true⟩, .openFile true,
      .moduleInit 1 ⟨true, true, true, 0, true, true, true⟩, .ioctl 0 true true true, .release 0],
    [.moduleInit 0 ⟨true, true, true, 0, true, true, true⟩, .moduleExit 0, .moduleExit 0],
    rfl, ?_, rfl, rfl, rfl, ?_, rfl, rfl⟩
  · rintro ⟨-, -, -, hioctl, -⟩
    exact absurd (hioctl.acts 0 (some 0) rfl rfl) (by decide)
  · rintro ⟨-, hexit, -⟩
    exact absurd ((hexit.published.miscdev 0 0).mp rfl) (by decide)

end MipiTx
