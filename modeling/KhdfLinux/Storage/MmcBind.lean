import KhdfLinux.Hdf.Base
import KhdfLinux.Lib.Owner
import KhdfLinux.Lib.Run
import Mathlib.Logic.Function.Basic

/-!
# Binding the SDIO and eMMC drivers

A bind makes a controller, points `service` to it, adds it and gives it a device; one that fails
deletes the controller and keeps the pointer, and so does a release.  `owned_run_iff`: over any
calls, the controllers and their devices are freed and removed as they should, exactly as long as a
bind fails only for want of memory, where the pointer does not refer to a controller that was freed,
and a release finds no pointer or exactly one controller.
-/

namespace Mmc

/-- `g_sdioCntlrOps`. -/
inductive CntlrOps where
  | sdio
  deriving DecidableEq, Repr

/-- `struct MmcCntlr`, its host and its device by their numbers. -/
structure MmcCntlr where
  ops : Option CntlrOps
  index : Nat
  devType : Nat
  priv : Option Nat
  curDev : Option Nat
  deriving DecidableEq, Repr

/-- What the configuration answers: whether there is a node and an interface, and the results of
reading the number of the host and the type of the device. -/
structure Config where
  node : Bool
  drsOps : Bool
  hostId : Int × Nat
  devType : Int × Nat
  deriving DecidableEq, Repr

/-- The values of a driver: its operations, and the host of an index. -/
structure Driver where
  ops : Option CntlrOps
  getMmcHost : Nat → Option Nat

/-- `obj->service` and the controllers, their memory, and their devices. -/
structure State where
  owner : Owner
  cntlrs : Nat → MmcCntlr
  devs : Ledger

/-- The calls: a bind, with whether there is memory and what the core returns, and a release. -/
inductive Act where
  | bind (memory : Bool) (config : Config) (cntlrAdd allocDev : Int)
  | release

/-- `LinuxSdioCntlrParse` and `LinuxEmmcCntlrParse`. -/
def cntlrParse (config : Config) (cntlr : MmcCntlr) : Int × MmcCntlr :=
  if ¬config.node then (Hdf.failure, cntlr)
  else if ¬config.drsOps then (Hdf.failure, cntlr)
  else if config.hostId.1 ≠ Hdf.success then (config.hostId.1, cntlr)
  else
    let cntlr := { cntlr with index := config.hostId.2 }
    if config.devType.1 ≠ Hdf.success then (config.devType.1, cntlr)
    else (Hdf.success, { cntlr with devType := config.devType.2 })

namespace State

variable (s : State)

/-- Nothing was bound. -/
def init : State := ⟨.init, fun _ => ⟨none, 0, 0, none, none⟩, .empty⟩

/-- The memory of a controller is written. -/
def write (i : Nat) (cntlr : MmcCntlr) : State :=
  { s with cntlrs := Function.update s.cntlrs i cntlr }

/-- `LinuxSdioDeleteCntlr` and `LinuxEmmcDeleteCntlr`. -/
def deleteCntlr : Option Nat → State
  | none => s
  | some i =>
      { s with
        owner := (s.owner.remove i).free i
        devs := match (s.cntlrs i).curDev with
          | some d => s.devs.free d
          | none => s.devs }

/-- `MmcCntlrAllocDev` where it succeeds. -/
def allocDev (i : Nat) : State :=
  { s.write i { s.cntlrs i with curDev := some s.devs.allocated } with devs := s.devs.alloc }

/-- `LinuxSdioRelease` and `LinuxEmmcRelease`. -/
def release : State := s.deleteCntlr s.owner.handles.pointer

end State

/-- The bind of a driver. -/
def bind (driver : Driver) (s : State) (memory : Bool) (config : Config)
    (cntlrAdd allocDev : Int) : Int × State :=
  if ¬memory then (Hdf.errMallocFail, s)
  else
    let i := s.owner.fresh
    let s := { s with owner := s.owner.make }
    let parsed := cntlrParse config ⟨driver.ops, 0, 0, none, none⟩
    let s := s.write i parsed.2
    if parsed.1 ≠ Hdf.success then (Hdf.failure, s.deleteCntlr (some i))
    else
      let s := s.write i { parsed.2 with priv := driver.getMmcHost parsed.2.index }
      if cntlrAdd ≠ Hdf.success then (Hdf.failure, s.deleteCntlr (some i))
      else
        let s := { s with owner := s.owner.add i }
        if allocDev ≠ Hdf.success then (Hdf.failure, s.deleteCntlr (some i))
        else (Hdf.success, s.allocDev i)

/-- `LinuxSdioBind`: the host is not set. -/
def linuxSdioBind : State → Bool → Config → Int → Int → Int × State :=
  bind ⟨some .sdio, fun _ => none⟩

/-- `LinuxEmmcBind`, with `GetMmcHost`. -/
def linuxEmmcBind (getMmcHost : Nat → Option Nat) :
    State → Bool → Config → Int → Int → Int × State :=
  bind ⟨none, getMmcHost⟩

namespace State

variable (binds : State → Bool → Config → Int → Int → Int × State) (s : State)

/-- The result of a call of the driver with that bind, and the state after it. -/
def perform : Act → Owner.Kind × State
  | .bind memory config cntlrAdd allocDev =>
      match binds s memory config cntlrAdd allocDev with
      | (0, s) => (.made, s)
      | (_, s) => (.failed, s)
  | .release => (.released, s.release)

/-- The state after a call. -/
def next (a : Act) : State := (s.perform binds a).2

/-- The controllers are owned, and so are their devices. -/
structure OwnedBy (k : Owner.Kind) (t : State) : Prop where
  cntlrs : s.owner.Owns k t.owner
  devs : k = .released → t.devs.Exact
  once : t.devs.freed.Nodup

/-- The call leaves all owned. -/
def Owned (a : Act) : Prop := s.OwnedBy (s.perform binds a).1 (s.next binds a)

/-- A bind fails only for want of memory, where the pointer is safe; and a release finds no pointer
or exactly one controller. -/
def Kept : Act → Prop
  | .bind memory config cntlrAdd allocDev =>
      if memory then
        (cntlrParse config ⟨none, 0, 0, none, none⟩).1 = Hdf.success ∧ cntlrAdd = Hdf.success
          ∧ allocDev = Hdf.success
      else s.owner.Safe
  | .release => s.owner.handles.pointer.isSome → s.owner.handles.Single

/-- Each controller has the device of its number. -/
structure Inv : Prop where
  owner : s.owner.Inv
  devs : s.devs = s.owner.handles.objects
  curDev : ∀ i, i < s.owner.fresh → (s.cntlrs i).curDev = some i

end State

variable {s : State} {driver : Driver}

/-- Nothing was bound. -/
theorem State.inv_init :
  State.init.Inv
  where
  owner := Owner.inv_init
  devs := rfl
  curDev _ hi := nomatch hi

/-- The result of parsing does not depend on the controller. -/
theorem cntlrParse_ret (config : Config) (cntlr cntlr' : MmcCntlr) :
  (cntlrParse config cntlr).1 = (cntlrParse config cntlr').1
  := by
  unfold cntlrParse
  split_ifs <;> rfl

/-- A bind that succeeds makes and adds a controller with a device. -/
theorem State.perform_made (driver : Driver) (s : State) {config : Config} {cntlrAdd allocDev : Int}
    (hparse : (cntlrParse config ⟨none, 0, 0, none, none⟩).1 = Hdf.success)
    (hadd : cntlrAdd = Hdf.success) (halloc : allocDev = Hdf.success) :
  ∃ t, s.perform (bind driver) (.bind true config cntlrAdd allocDev) = (.made, t)
    ∧ t.owner = s.owner.make.add s.owner.fresh ∧ t.devs = s.devs.alloc
    ∧ (t.cntlrs s.owner.fresh).curDev = some s.devs.allocated
    ∧ ∀ i, i ≠ s.owner.fresh → t.cntlrs i = s.cntlrs i
  := by
  rw [cntlrParse_ret config _ ⟨driver.ops, 0, 0, none, none⟩] at hparse
  unfold State.perform bind
  dsimp only
  rw [if_neg (by simp), if_neg (not_not_intro hparse), if_neg (not_not_intro hadd),
    if_neg (not_not_intro halloc)]
  refine ⟨_, rfl, rfl, rfl, ?_, fun i hi => ?_⟩
  · simp [State.allocDev, State.write]
  · simp [State.allocDev, State.write, hi]

/-- A bind that does not succeed deletes the controller it made, and keeps the pointer. -/
theorem bind_failure (driver : Driver) (s : State) {config : Config} {cntlrAdd allocDev : Int}
    (h : ¬((cntlrParse config ⟨none, 0, 0, none, none⟩).1 = Hdf.success ∧ cntlrAdd = Hdf.success
      ∧ allocDev = Hdf.success)) :
  ∃ t, bind driver s true config cntlrAdd allocDev = (Hdf.failure, t)
    ∧ t.owner.handles.pointer = some s.owner.fresh
    ∧ s.owner.fresh ∈ t.owner.handles.objects.freed
  := by
  have hdelete : ∀ u : State, u.owner.handles.pointer = some s.owner.fresh →
      (u.deleteCntlr (some s.owner.fresh)).owner.handles.pointer = some s.owner.fresh
        ∧ s.owner.fresh ∈ (u.deleteCntlr (some s.owner.fresh)).owner.handles.objects.freed := by
    intro u hu
    show ((u.owner.remove _).free _).handles.pointer = _
      ∧ _ ∈ ((u.owner.remove _).free _).handles.objects.freed
    unfold Owner.free
    rw [Owner.remove_handles]
    exact ⟨hu, List.mem_cons_self⟩
  rw [cntlrParse_ret config _ ⟨driver.ops, 0, 0, none, none⟩] at h
  unfold bind
  dsimp only
  rw [if_neg (by simp)]
  split
  · exact ⟨_, rfl, hdelete _ rfl⟩
  next hparse =>
  split
  · exact ⟨_, rfl, hdelete _ rfl⟩
  next hadd =>
  split
  · exact ⟨_, rfl, hdelete _ rfl⟩
  next halloc =>
  exact absurd ⟨not_not.mp hparse, not_not.mp hadd, not_not.mp halloc⟩ h

/-- A bind that fails after the controller was made frees it and keeps the pointer. -/
theorem State.perform_failed (driver : Driver) (s : State) {config : Config}
    {cntlrAdd allocDev : Int}
    (h : ¬((cntlrParse config ⟨none, 0, 0, none, none⟩).1 = Hdf.success ∧ cntlrAdd = Hdf.success
      ∧ allocDev = Hdf.success)) :
  ∃ t, s.perform (bind driver) (.bind true config cntlrAdd allocDev) = (.failed, t)
    ∧ t.owner.handles.pointer = some s.owner.fresh
    ∧ s.owner.fresh ∈ t.owner.handles.objects.freed
  := by
  obtain ⟨t, ht, hfreed⟩ := bind_failure driver s h
  refine ⟨t, ?_, hfreed⟩
  unfold State.perform
  dsimp only
  rw [ht]
  rfl

/-- What a state with the invariant owns depends only on its controllers. -/
theorem State.Inv.ownedBy_iff {t : State} {k : Owner.Kind} (ht : t.Inv) :
  s.OwnedBy k t ↔ s.owner.Owns k t.owner
  := by
  constructor
  · exact fun h => h.cntlrs
  · intro h
    refine ⟨h, fun hk => ?_, ?_⟩
    · rw [ht.devs]
      apply h.released hk
    · rw [ht.devs]
      apply h.once

/-- The controller that is made has the device of its number. -/
theorem State.Inv.made {t : State} (h : s.Inv) (howner : t.owner = s.owner.make.add s.owner.fresh)
    (hdevs : t.devs = s.devs.alloc)
    (hfresh : (t.cntlrs s.owner.fresh).curDev = some s.devs.allocated)
    (hold : ∀ i, i ≠ s.owner.fresh → t.cntlrs i = s.cntlrs i) :
  t.Inv
  where
  owner := by
    rw [howner]
    apply h.owner.made
  devs := by
    rw [howner, hdevs, h.devs]
    rfl
  curDev i hi := by
    rw [howner] at hi
    obtain hlt | rfl := Nat.lt_succ_iff_lt_or_eq.mp hi
    · rw [hold i (Nat.ne_of_lt hlt)]
      apply h.curDev i hlt
    · rw [← Owner.fresh, hfresh, h.devs]
      rfl

/-- The device of a controller that is released has its number. -/
theorem State.Inv.release {i : Nat} (h : s.Inv) (hpointer : s.owner.handles.pointer = some i)
    (hsingle : s.owner.handles.Single) :
  s.release.Inv
  := by
  have hlive := h.owner.live_of_single hpointer hsingle
  unfold State.release State.deleteCntlr
  rw [hpointer]
  dsimp only
  rw [h.curDev i hlive.1]
  refine ⟨h.owner.release hpointer hsingle, ?_, fun j hj => ?_⟩
  · rw [h.devs]
    show _ = (s.owner.remove i).handles.objects.free i
    rw [Owner.remove_handles]
  · rw [Owner.fresh_release] at hj
    apply h.curDev j hj

/-- A call of a driver is owned exactly if it is kept. -/
theorem State.Inv.owned_iff_kept {a : Act} (h : s.Inv) :
  s.Owned (bind driver) a ↔ s.Kept a
  := by
  unfold State.Owned State.next
  cases a with
  | bind memory config cntlrAdd allocDev =>
      cases memory with
      | false => exact h.ownedBy_iff.trans h.owner.owns_failed_iff
      | true =>
          show _ ↔ (_ ∧ _ ∧ _)
          constructor
          · intro howned
            by_contra hnot
            obtain ⟨t, ht, hpointer, hfreed⟩ := State.perform_failed driver s hnot
            rw [ht] at howned
            exact Owner.not_owns_failed hpointer hfreed howned.cntlrs
          · rintro ⟨hparse, hadd, halloc⟩
            obtain ⟨t, ht, howner, hdevs, hfresh, hold⟩ :=
              State.perform_made driver s hparse hadd halloc
            rw [ht]
            have htInv := h.made howner hdevs hfresh hold
            exact htInv.ownedBy_iff.mpr htInv.owner.owns_made
  | release =>
      show s.OwnedBy .released s.release ↔ (_ → _)
      cases hpointer : s.owner.handles.pointer with
      | none =>
          have hrelease : s.release = s := by
            unfold State.release
            rw [hpointer]
            rfl
          rw [hrelease, h.ownedBy_iff]
          exact iff_of_true (h.owner.owns_released hpointer) fun hsome => nomatch hsome
      | some i =>
          have hiff := h.owner.owns_released_iff hpointer
          have howner : s.release.owner = (s.owner.remove i).free i := by
            unfold State.release
            rw [hpointer]
            rfl
          rw [← howner] at hiff
          constructor
          · exact fun howned _ => hiff.mp howned.cntlrs
          · intro hsingle
            have ht := h.release hpointer (hsingle rfl)
            exact ht.ownedBy_iff.mpr (hiff.mpr (hsingle rfl))

/-- A call that is kept keeps the invariant. -/
theorem State.Inv.next {a : Act} (h : s.Inv) (ha : s.Kept a) :
  (s.next (bind driver) a).Inv
  := by
  unfold State.next
  cases a with
  | bind memory config cntlrAdd allocDev =>
      cases memory with
      | false => apply h
      | true =>
          obtain ⟨hparse, hadd, halloc⟩ : _ ∧ _ ∧ _ := ha
          obtain ⟨t, ht, howner, hdevs, hfresh, hold⟩ :=
            State.perform_made driver s hparse hadd halloc
          rw [ht]
          exact h.made howner hdevs hfresh hold
  | release =>
      cases hpointer : s.owner.handles.pointer with
      | none =>
          show s.release.Inv
          unfold State.release
          rw [hpointer]
          apply h
      | some i => exact h.release hpointer (ha (Option.isSome_of_mem hpointer))

/-- The controllers of a driver are owned in each call exactly as long as the calls are kept. -/
theorem owned_run_iff (driver : Driver) (acts : List Act) :
  Along (State.next (bind driver)) (State.Owned (bind driver)) .init acts
    ↔ Along (State.next (bind driver)) State.Kept .init acts
  := by
  have hiff : ∀ (s : State) a, s.Inv → (s.Owned (bind driver) a ↔ s.Kept a) :=
    fun s a h => h.owned_iff_kept
  have hkeep : ∀ (s : State) a, s.Inv → s.Kept a → (s.next (bind driver) a).Inv :=
    fun s a h ha => h.next ha
  apply along_iff hiff hkeep State.inv_init

end Mmc
