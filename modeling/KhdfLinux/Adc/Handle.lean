import KhdfLinux.Hdf.Base
import KhdfLinux.Lib.Handles
import KhdfLinux.Lib.Run

/-!
# The file of an ADC device

`AdcIioStart` opens the file of the device and keeps it in `priv`, `AdcIioRead` reads it and
`AdcIioStop` closes it.  `follows_iff`: over any calls, the file follows them exactly as long as a
device that was started is read only where its file is open, and stopped only where that file is the
only one that is open.
-/

namespace Adc

/-- The calls on a device, with the results of the functions of the kernel; the files of the device
are its handles. -/
inductive Act where
  | start (opens : Bool)
  | read (val : Bool) (kernelRead : Int)
  | stop (filpClose : Int)

/-- `AdcIioStart`, with the value of `HDF_PLT_ERR_OS_API`. -/
def adcIioStart (errOsApi : Int) (device : Handles) (opens : Bool) : Int × Touched × Handles :=
  if ¬opens then (errOsApi, .nothing, device)
  else (Hdf.success, .nothing, device.opened)

/-- `AdcIioRead`: whether there is a place for the value. -/
def adcIioRead (errOsApi : Int) (device : Handles) (val : Bool) (kernelRead : Int) :
    Int × Touched × Handles :=
  match device.pointer with
  | none => (Hdf.errInvalidObject, .nothing, device)
  | some fp =>
      if ¬val then (Hdf.errInvalidParam, .nothing, device)
      else if kernelRead < 0 then (errOsApi, .object fp, device)
      else (Hdf.success, .object fp, device)

/-- `AdcIioStop`: the pointer is kept. -/
def adcIioStop (device : Handles) (filpClose : Int) : Int × Touched × Handles :=
  match device.pointer with
  | none => (Hdf.errInvalidObject, .nothing, device)
  | some fp => (filpClose, .object fp, device.closed fp)

namespace Act

/-- What kind of call it is. -/
def kind : Act → Handles.Kind
  | start _ => .start
  | read _ _ => .use
  | stop _ => .stop

/-- A call on the device: what it returns, touches and leaves. -/
def perform (errOsApi : Int) (device : Handles) : Act → Int × Touched × Handles
  | start opens => adcIioStart errOsApi device opens
  | read val kernelRead => adcIioRead errOsApi device val kernelRead
  | stop filpClose => adcIioStop device filpClose

end Act

section

variable (errOsApi : Int) (device : Handles)

/-- The device after a call. -/
def next (a : Act) : Handles := (a.perform errOsApi device).2.2

/-- The file follows the call. -/
def Follows (a : Act) : Prop :=
  device.Follows a.kind (a.perform errOsApi device).1 (a.perform errOsApi device).2.1
    (next errOsApi device a)

/-- A device that was started is read into a place only where a file is open, and stopped only where
exactly one is. -/
def Ordered : Act → Prop
  | .start _ => True
  | .read val _ => device.pointer.isSome → val → device.Busy
  | .stop _ => device.pointer.isSome → device.Single

end

variable {errOsApi : Int} {device : Handles} {a : Act}

/-- The file follows a call exactly if it is ordered. -/
theorem follows_iff_ordered (h : device.Tracks) :
  Follows errOsApi device a ↔ Ordered device a
  := by
  cases a with
  | start opens => exact ⟨fun _ => trivial, fun _ => Handles.follows_start _ _⟩
  | read val kernelRead =>
      show device.Follows .use (adcIioRead _ _ _ _).1 (adcIioRead _ _ _ _).2.1
        (adcIioRead _ _ _ _).2.2 ↔ (device.pointer.isSome → val → device.Busy)
      unfold adcIioRead
      cases hpointer : device.pointer with
      | none =>
          have hret : Hdf.errInvalidObject < 0 := by decide
          exact ⟨fun _ hsome => (nomatch hsome), fun _ => Handles.follows_use_nothing hret⟩
      | some fp =>
          cases val with
          | false =>
              have hret : Hdf.errInvalidParam < 0 := by decide
              exact ⟨fun _ _ hval => (nomatch hval), fun _ => Handles.follows_use_nothing hret⟩
          | true =>
              simp only [not_true_eq_false, if_false]
              refine Iff.trans ?_ ⟨fun hbusy _ _ => hbusy, fun hbusy => hbusy rfl trivial⟩
              split <;> apply h.follows_use_iff hpointer
  | stop filpClose =>
      show device.Follows .stop (adcIioStop _ _).1 (adcIioStop _ _).2.1 (adcIioStop _ _).2.2
        ↔ (device.pointer.isSome → device.Single)
      unfold adcIioStop
      cases hpointer : device.pointer with
      | none =>
          have hret : Hdf.errInvalidObject < 0 := by decide
          exact ⟨fun _ hsome => (nomatch hsome), fun _ => h.follows_stop_nothing hpointer hret⟩
      | some fp =>
          refine Iff.trans ?_ ⟨fun hsingle _ => hsingle, fun hsingle => hsingle rfl⟩
          apply h.follows_stop_iff hpointer

/-- An ordered call leaves the pointer at the last file that is open. -/
theorem next_tracks (h : device.Tracks) (ha : Ordered device a) :
  (next errOsApi device a).Tracks
  := by
  cases a with
  | start opens =>
      cases opens with
      | false => apply h
      | true => exact h.opened
  | read val kernelRead =>
      show (adcIioRead _ _ _ _).2.2.Tracks
      unfold adcIioRead
      split
      · apply h
      split
      · apply h
      split <;> apply h
  | stop filpClose =>
      show (adcIioStop _ _).2.2.Tracks
      unfold adcIioStop
      cases hpointer : device.pointer with
      | none => apply h
      | some fp => exact h.closed hpointer (ha (by rw [hpointer]; rfl))

/-- The file of the device follows the calls exactly as long as they are ordered. -/
theorem follows_run_iff (errOsApi : Int) (acts : List Act) :
  Along (next errOsApi) (Follows errOsApi) .init acts ↔ Along (next errOsApi) Ordered .init acts
  := by
  have hiff : ∀ (device : Handles) a, device.Tracks →
      (Follows errOsApi device a ↔ Ordered device a) := fun _ _ h => follows_iff_ordered h
  have hkeep : ∀ (device : Handles) a, device.Tracks → Ordered device a →
      (next errOsApi device a).Tracks := fun _ _ h ha => next_tracks h ha
  apply along_iff hiff hkeep Handles.tracks_init

end Adc
