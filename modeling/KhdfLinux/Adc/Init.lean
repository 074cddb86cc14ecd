import KhdfLinux.Storage.MmcBind
import KhdfLinux.Uart.Nodes

/-!
# Initialising the ADC driver

An init makes a device, points `priv` to it and adds it; one that fails frees the device and keeps
the pointer.  `owned_iff`, of the SDIO, eMMC and ADC drivers: over any calls, what they make is
freed and removed as it should, exactly as long as a bind or an init fails only before it made
anything, where the pointer does not refer to what was freed, and a release finds no pointer or
exactly one controller or device.
-/

namespace Adc

open Bytes

/-- `struct AdcIioDevice`, with the number of its `struct AdcDevice`. -/
structure AdcIioDevice where
  devNum : BitVec 32
  deviceNum : BitVec 32
  scanMode : BitVec 32
  rate : BitVec 32
  deriving DecidableEq, Repr

/-- What the configuration answers: whether there is an interface, and the results of reading the
name of the driver, the number of the device, its mode and its rate. -/
structure Config where
  drsOps : Bool
  driverName : Int × CString
  deviceNum : Int × BitVec 32
  scanMode : Int × BitVec 32
  rate : Int × BitVec 32

/-- `device->priv` and the devices, their memory, and `g_driverPathname`. -/
structure InitState where
  owner : Owner
  devices : Nat → AdcIioDevice
  driverPathname : Bytes

/-- The calls: an init, with whether there is a property and memory and what the core returns, and a
release. -/
inductive InitAct where
  | init (property memory : Bool) (config : Config) (deviceAdd : Int)
  | release

/-- `AdcIioReadDrs`, with `g_driverPathname`. -/
def adcIioReadDrs (config : Config) (adcDevice : AdcIioDevice) (driverPathname : Bytes) :
    Int × AdcIioDevice × Bytes :=
  if ¬config.drsOps then (Hdf.errNotSupport, adcDevice, driverPathname)
  else if config.driverName.1 ≠ Hdf.success then (config.driverName.1, adcDevice, driverPathname)
  else
    let copied := Nodes.adcIioReadDrs driverPathname config.driverName.2
    let driverPathname := copied.2
    if copied.1 ≠ Hdf.success then (copied.1, adcDevice, driverPathname)
    else if config.deviceNum.1 ≠ Hdf.success then (config.deviceNum.1, adcDevice, driverPathname)
    else
      let adcDevice := { adcDevice with deviceNum := config.deviceNum.2 }
      if config.scanMode.1 ≠ Hdf.success then (config.scanMode.1, adcDevice, driverPathname)
      else
        let adcDevice := { adcDevice with scanMode := config.scanMode.2 }
        if config.rate.1 ≠ Hdf.success then (config.rate.1, adcDevice, driverPathname)
        else (Hdf.success, { adcDevice with rate := config.rate.2 }, driverPathname)

namespace InitState

variable (s : InitState)

/-- Nothing was initialised. -/
def start : InitState :=
  ⟨.init, fun _ => ⟨0, 0, 0, 0⟩, List.replicate Nodes.adcDriverPathnameLen 0⟩

/-- The memory of a device and the name of the driver are written. -/
def write (i : Nat) (adcDevice : AdcIioDevice) (driverPathname : Bytes) : InitState :=
  { s with
    devices := Function.update s.devices i adcDevice
    driverPathname := driverPathname }

/-- `OsalMemFree` of a device. -/
def free (i : Nat) : InitState := { s with owner := s.owner.free i }

/-- `LinuxAdcInit`. -/
def linuxAdcInit (property memory : Bool) (config : Config) (deviceAdd : Int) : Int × InitState :=
  if ¬property then (Hdf.errInvalidObject, s)
  else if ¬memory then (Hdf.errMallocFail, s)
  else
    let i := s.owner.fresh
    let s := { s with owner := s.owner.make }
    let drs := adcIioReadDrs config ⟨0, 0, 0, 0⟩ s.driverPathname
    let s := s.write i drs.2.1 drs.2.2
    if drs.1 ≠ Hdf.success then (drs.1, s.free i)
    else
      let s := s.write i { drs.2.1 with devNum := drs.2.1.deviceNum } drs.2.2
      if deviceAdd ≠ Hdf.success then (deviceAdd, s.free i)
      else (Hdf.success, { s with owner := s.owner.add i })

/-- `LinuxAdcRelease`. -/
def linuxAdcRelease : InitState :=
  match s.owner.handles.pointer with
  | none => s
  | some i => { s with owner := (s.owner.remove i).free i }

/-- The result of a call, and the state after it. -/
def perform : InitAct → Owner.Kind × InitState
  | .init property memory config deviceAdd =>
      match s.linuxAdcInit property memory config deviceAdd with
      | (0, s) => (.made, s)
      | (_, s) => (.failed, s)
  | .release => (.released, s.linuxAdcRelease)

/-- The state after a call. -/
def next (a : InitAct) : InitState := (s.perform a).2

/-- The devices are owned. -/
def Owned (a : InitAct) : Prop := s.owner.Owns (s.perform a).1 (s.next a).owner

/-- An init fails only before it makes a device, where the pointer is safe; and a release finds no
pointer or exactly one device. -/
def Kept : InitAct → Prop
  | .init property memory config deviceAdd =>
      if property && memory then
        (adcIioReadDrs config ⟨0, 0, 0, 0⟩ s.driverPathname).1 = Hdf.success
          ∧ deviceAdd = Hdf.success
      else s.owner.Safe
  | .release => s.owner.handles.pointer.isSome → s.owner.handles.Single

end InitState

variable {s : InitState}

/-- An init that succeeds makes and adds a device. -/
theorem InitState.perform_made {config : Config} {deviceAdd : Int}
    (hdrs : (adcIioReadDrs config ⟨0, 0, 0, 0⟩ s.driverPathname).1 = Hdf.success)
    (hadd : deviceAdd = Hdf.success) :
  ∃ t, s.perform (.init true true config deviceAdd) = (.made, t)
    ∧ t.owner = s.owner.make.add s.owner.fresh
  := by
  unfold InitState.perform InitState.linuxAdcInit
  dsimp only
  rw [if_neg (by simp), if_neg (by simp), if_neg (not_not_intro hdrs),
    if_neg (not_not_intro hadd)]
  exact ⟨_, rfl, rfl⟩

/-- An init that does not succeed frees the device it made, and keeps the pointer. -/
theorem InitState.linuxAdcInit_failed {config : Config} {deviceAdd : Int}
    (h : ¬((adcIioReadDrs config ⟨0, 0, 0, 0⟩ s.driverPathname).1 = Hdf.success
      ∧ deviceAdd = Hdf.success)) :
  ∃ ret t, ret ≠ 0 ∧ s.linuxAdcInit true true config deviceAdd = (ret, t)
    ∧ t.owner.handles.pointer = some s.owner.fresh
    ∧ s.owner.fresh ∈ t.owner.handles.objects.freed
  := by
  unfold InitState.linuxAdcInit
  dsimp only
  rw [if_neg (by simp), if_neg (by simp)]
  split
  · next hdrs => exact ⟨_, _, hdrs, rfl, rfl, List.mem_cons_self⟩
  next hdrs =>
  split
  · next hadd => exact ⟨_, _, hadd, rfl, rfl, List.mem_cons_self⟩
  next hadd =>
  exact absurd ⟨not_not.mp hdrs, not_not.mp hadd⟩ h

/-- An init that fails after the device was made frees it and keeps the pointer. -/
theorem InitState.perform_failed {config : Config} {deviceAdd : Int}
    (h : ¬((adcIioReadDrs config ⟨0, 0, 0, 0⟩ s.driverPathname).1 = Hdf.success
      ∧ deviceAdd = Hdf.success)) :
  ∃ t, s.perform (.init true true config deviceAdd) = (.failed, t)
    ∧ t.owner.handles.pointer = some s.owner.fresh
    ∧ s.owner.fresh ∈ t.owner.handles.objects.freed
  := by
  obtain ⟨ret, t, hret, ht, hfreed⟩ := InitState.linuxAdcInit_failed h
  refine ⟨t, ?_, hfreed⟩
  unfold InitState.perform
  dsimp only
  rw [ht]
  split
  · next heq => exact absurd (Prod.mk.inj heq).1 hret
  · next heq => rw [← (Prod.mk.inj heq).2]

/-- An init that fails before it makes a device changes nothing. -/
theorem InitState.perform_unmade {property memory : Bool} {config : Config} {deviceAdd : Int}
    (h : ¬(property && memory) = true) :
  s.perform (.init property memory config deviceAdd) = (.failed, s)
  := by
  cases property with
  | false => rfl
  | true =>
      cases memory with
      | false => rfl
      | true => exact absurd rfl h

/-- A release removes and frees the device. -/
theorem InitState.linuxAdcRelease_owner {i : Nat} (hpointer : s.owner.handles.pointer = some i) :
  s.linuxAdcRelease.owner = (s.owner.remove i).free i
  := by
  unfold InitState.linuxAdcRelease
  rw [hpointer]

/-- A release without a pointer changes nothing. -/
theorem InitState.linuxAdcRelease_none (hpointer : s.owner.handles.pointer = none) :
  s.linuxAdcRelease = s
  := by
  unfold InitState.linuxAdcRelease
  rw [hpointer]

/-- A call is owned exactly if it is kept. -/
theorem InitState.owned_iff_kept {a : InitAct} (h : s.owner.Inv) :
  s.Owned a ↔ s.Kept a
  := by
  unfold InitState.Owned InitState.next
  cases a with
  | init property memory config deviceAdd =>
      unfold InitState.Kept
      dsimp only
      split
      · next hmade =>
          obtain ⟨rfl, rfl⟩ := Bool.and_eq_true_iff.mp hmade
          constructor
          · intro howned
            by_contra hnot
            obtain ⟨t, ht, hpointer, hfreed⟩ := InitState.perform_failed hnot
            rw [ht] at howned
            exact Owner.not_owns_failed hpointer hfreed howned
          · rintro ⟨hdrs, hadd⟩
            obtain ⟨t, ht, howner⟩ := InitState.perform_made hdrs hadd
            rw [ht, howner]
            apply h.made.owns_made
      · next hunmade =>
          rw [InitState.perform_unmade hunmade]
          apply h.owns_failed_iff
  | release =>
      show s.owner.Owns .released s.linuxAdcRelease.owner ↔ (_ → _)
      cases hpointer : s.owner.handles.pointer with
      | none =>
          rw [InitState.linuxAdcRelease_none hpointer]
          exact iff_of_true (h.owns_released hpointer) fun hsome => nomatch hsome
      | some i =>
          rw [InitState.linuxAdcRelease_owner hpointer, h.owns_released_iff hpointer]
          exact ⟨fun hsingle _ => hsingle, fun hsingle => hsingle rfl⟩

/-- A call that is kept keeps the invariant. -/
theorem InitState.next_inv {a : InitAct} (h : s.owner.Inv) (ha : s.Kept a) :
  (s.next a).owner.Inv
  := by
  unfold InitState.next
  cases a with
  | init property memory config deviceAdd =>
      unfold InitState.Kept at ha
      dsimp only at ha
      split at ha
      · next hmade =>
          obtain ⟨rfl, rfl⟩ := Bool.and_eq_true_iff.mp hmade
          obtain ⟨t, ht, howner⟩ := InitState.perform_made ha.1 ha.2
          rw [ht, howner]
          apply h.made
      · next hunmade =>
          rw [InitState.perform_unmade hunmade]
          apply h
  | release =>
      show s.linuxAdcRelease.owner.Inv
      cases hpointer : s.owner.handles.pointer with
      | none =>
          rw [InitState.linuxAdcRelease_none hpointer]
          apply h
      | some i =>
          rw [InitState.linuxAdcRelease_owner hpointer]
          apply h.release hpointer (ha (Option.isSome_of_mem hpointer))

/-- Over any calls of the SDIO, eMMC and ADC drivers, what they make is owned exactly as long as the
calls are kept. -/
theorem owned_iff (getMmcHost : Nat → Option Nat) (sdio emmc : List Mmc.Act)
    (adc : List InitAct) :
  (Along (Mmc.State.next Mmc.linuxSdioBind) (Mmc.State.Owned Mmc.linuxSdioBind) .init sdio
      ↔ Along (Mmc.State.next Mmc.linuxSdioBind) Mmc.State.Kept .init sdio)
    ∧ (Along (Mmc.State.next (Mmc.linuxEmmcBind getMmcHost))
          (Mmc.State.Owned (Mmc.linuxEmmcBind getMmcHost)) .init emmc
      ↔ Along (Mmc.State.next (Mmc.linuxEmmcBind getMmcHost)) Mmc.State.Kept .init emmc)
    ∧ (Along InitState.next InitState.Owned .start adc
      ↔ Along InitState.next InitState.Kept .start adc)
  := by
  refine ⟨Mmc.owned_run_iff _ sdio, Mmc.owned_run_iff _ emmc, ?_⟩
  have hiff : ∀ (s : InitState) a, s.owner.Inv → (s.Owned a ↔ s.Kept a) :=
    fun s a h => InitState.owned_iff_kept h
  have hkeep : ∀ (s : InitState) a, s.owner.Inv → s.Kept a → (s.next a).owner.Inv :=
    fun s a h ha => InitState.next_inv h ha
  apply along_iff hiff hkeep Owner.inv_init

/-- A bind or an init that fails after its allocation is followed by a release: each frees the
controller or the device, which for the SDIO and eMMC drivers was never added to the manager. -/
theorem not_owned :
  ∃ (mmc : List Mmc.Act) (adc : List InitAct),
    ¬Along (Mmc.State.next Mmc.linuxSdioBind) (Mmc.State.Owned Mmc.linuxSdioBind) .init mmc
      ∧ (mmc.foldl (Mmc.State.next Mmc.linuxSdioBind) .init).owner
        = ⟨⟨some 0, ⟨1, [0, 0]⟩⟩, [], [0, 0]⟩
      ∧ ¬Along (Mmc.State.next (Mmc.linuxEmmcBind some)) (Mmc.State.Owned (Mmc.linuxEmmcBind some))
        .init mmc
      ∧ (mmc.foldl (Mmc.State.next (Mmc.linuxEmmcBind some)) .init).owner
        = ⟨⟨some 0, ⟨1, [0, 0]⟩⟩, [], [0, 0]⟩
      ∧ ¬Along InitState.next InitState.Owned .start adc
      ∧ (adc.foldl InitState.next .start).owner.handles = ⟨some 0, ⟨1, [0, 0]⟩⟩
  := by
  refine ⟨[.bind true ⟨true, true, (-1, 0), (0, 0)⟩ 0 0, .release],
    [.init true true ⟨true, (-1, ⟨[], nofun⟩), (0, 0), (0, 0), (0, 0)⟩ 0, .release],
    ?_, rfl, ?_, rfl, ?_, rfl⟩
  · rintro ⟨hbind, -⟩
    exact absurd hbind.cntlrs.removed (by decide)
  · rintro ⟨hbind, -⟩
    exact absurd hbind.cntlrs.removed (by decide)
  · rintro ⟨hinit, -⟩
    exact absurd (hinit.failed rfl 0 rfl).2 (by decide)

end Adc
