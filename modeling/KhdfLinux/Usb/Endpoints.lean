import KhdfLinux.Lib.Run
import KhdfLinux.Usb.Events
import KhdfLinux.Usb.Registry

/-!
# The endpoints of a function

`ffsFuncSetAlt` enables the endpoints of a function, one after the other, and links them to
the endpoint files; `ffsFuncDisable` and `ffsFuncUnbind` disable them.  The functions of an
instance share one `ffs_data`, in which `func` is the function that was enabled last.
-/

namespace Ffs

/-- The part of `struct ffs_function` these calls use: the `ep` of each of its `eps`, and the
interface numbers it was given. -/
structure FfsFunction where
  eps : Nat → Option Nat
  interfacesNums : List Int

/-- What is told of the endpoints: the events that were queued, and where `ffsFuncEpsDisable`
was called. -/
inductive EpsEvent where
  | queued (type : EventType)
  | disabled
  deriving DecidableEq, Repr

/-- The state of an `ffs_data` and its functions.  `epfiles` is the `ep` of each endpoint
file, once the files are created: the function it belongs to and its index in `eps`.  `funcs`
are the functions that are bound, `enabled` the endpoints of the controller that are enabled,
and `log` is what was told, the newest first. -/
structure EpsState where
  state : FfsState
  epsCount : Nat
  epfiles : Option (Nat → Option (Nat × Nat))
  func : Option Nat
  funcs : List (Nat × FfsFunction)
  enabled : List Nat
  log : List EpsEvent

/-- What `config_ep_by_speed` and `usb_ep_enable` return for each endpoint. -/
structure EnableCodes where
  config : Nat → Int
  enable : Nat → Int

namespace EpsState

/-- The `ep` of an endpoint file. -/
def epfileEp (s : EpsState) (i : Nat) : Option (Nat × Nat) := s.epfiles.bind fun ep => ep i

/-- Set the `ep` of an endpoint file. -/
def setEp (s : EpsState) (i : Nat) (ep : Option (Nat × Nat)) : EpsState :=
  { s with epfiles := s.epfiles.map fun epfiles => Function.update epfiles i ep }

/-- `ffs_event_add`. -/
def eventAdd (s : EpsState) (type : EventType) : EpsState :=
  { s with log := .queued type :: s.log }

/-- `usb_ep_disable`. -/
def usbEpDisable (s : EpsState) (ep : Nat) : EpsState :=
  { s with enabled := s.enabled.filter fun e => e ≠ ep }

/-- `usb_ep_enable`, if it succeeds. -/
def usbEpEnable (s : EpsState) (ep : Nat) : EpsState := { s with enabled := ep :: s.enabled }

/-- The loop of `ffs_func_eps_disable`, with `count` endpoints left from index `i` on. -/
def epsDisableLoop (func : FfsFunction) : Nat → Nat → EpsState → EpsState
  | 0, _, s => s
  | count + 1, i, s =>
      let s :=
        match func.eps i with
        | some ep => s.usbEpDisable ep
        | none => s
      epsDisableLoop func count (i + 1) (s.setEp i none)

/-- `ffs_func_eps_disable`. -/
def ffsFuncEpsDisable (s : EpsState) (func : FfsFunction) : EpsState :=
  let s := epsDisableLoop func s.epsCount 0 s
  { s with log := .disabled :: s.log }

/-- The loop of `ffs_func_eps_enable`, with `count` endpoints left from index `i` on. -/
def epsEnableLoop (id : Nat) (func : FfsFunction) (codes : EnableCodes) :
    Nat → Nat → EpsState → Except Oops (EpsState × Int)
  | 0, _, s => .ok (s, 0)
  | count + 1, i, s =>
      match func.eps i with
      | none => .error .nullDeref
      | some ep =>
          if codes.config i ≠ 0 then
            .ok (s, codes.config i)
          else if codes.enable i ≠ 0 then
            .ok (s, codes.enable i)
          else
            match s.epfiles with
            | none => .error .nullDeref
            | some _ =>
                epsEnableLoop id func codes count (i + 1)
                  ((s.usbEpEnable ep).setEp i (some (id, i)))

/-- `ffs_func_eps_enable`. -/
def ffsFuncEpsEnable (s : EpsState) (id : Nat) (func : FfsFunction) (codes : EnableCodes) :
    Except Oops (EpsState × Int) :=
  epsEnableLoop id func codes s.epsCount 0 s

/-- `ffs_func_revmap_intf`. -/
def ffsFuncRevmapIntf (func : FfsFunction) (intf : UInt8) : Int :=
  match func.interfacesNums.findIdx? fun (num : Int) => 0 ≤ num ∧ num = (intf.toNat : Int) with
  | some i => i
  | none => -edom

/-- Disable the endpoints of the function that was enabled last, if there is one. -/
def disableLast (s : EpsState) : Except Oops EpsState :=
  match s.func with
  | none => .ok s
  | some last =>
      match s.funcs.lookup last with
      | none => .error .nullDeref
      | some func => .ok (s.ffsFuncEpsDisable func)

/-- `(unsigned)-1`. -/
def altDisable : UInt32 := 4294967295

/-- `ffs_func_set_alt`. -/
def ffsFuncSetAlt (s : EpsState) (id : Nat) (func : FfsFunction) (interface alt : UInt32)
    (codes : EnableCodes) : Except Oops (EpsState × Int) :=
  if alt ≠ altDisable ∧ ffsFuncRevmapIntf func interface.toUInt8 < 0 then
    .ok (s, ffsFuncRevmapIntf func interface.toUInt8)
  else
    match s.disableLast with
    | .error e => .error e
    | .ok s =>
        if s.state = .deactivated then
          -- `ffs_reset_work` is scheduled
          .ok ({ s with state := .closing }, -enodev)
        else if s.state ≠ .active then
          .ok (s, -enodev)
        else if alt = altDisable then
          .ok ({ s with func := none }.eventAdd .disable, 0)
        else
          match { s with func := some id }.ffsFuncEpsEnable id func codes with
          | .error e => .error e
          | .ok (s, ret) => .ok (if 0 ≤ ret then s.eventAdd .enable else s, ret)

/-- `ffs_func_disable`, with what `ffs_func_set_alt` returns. -/
def ffsFuncDisable (s : EpsState) (id : Nat) (func : FfsFunction) :
    Except Oops (EpsState × Int) :=
  s.ffsFuncSetAlt id func 0 altDisable ⟨fun _ => 0, fun _ => 0⟩

/-- `ffs_func_unbind`. -/
def ffsFuncUnbind (s : EpsState) (id : Nat) (func : FfsFunction) : EpsState :=
  let s := if s.func = some id then { s.ffsFuncEpsDisable func with func := none } else s
  { s with funcs := s.funcs.filter fun f => f.1 ≠ id }.eventAdd .unbind

end EpsState

/-- An `ffs_data` that was just created. -/
def epsStateNew : EpsState where
  state := .readDescriptors
  epsCount := 0
  epfiles := none
  func := none
  funcs := []
  enabled := []
  log := []

/-- What happens to an `ffs_data` and its functions. -/
inductive EpsAct where
  /-- The descriptors are accepted. -/
  | gotDescs (epsCount : Nat)
  /-- The strings are accepted; `ffs_epfiles_create` creates the endpoint files, or fails. -/
  | gotStrings (created : Bool)
  /-- `ffs_ready` fails, after the endpoint files were created. -/
  | readyFails
  /-- `ffs_func_bind` succeeds. -/
  | bind (id : Nat) (func : FfsFunction)
  | setAlt (id : Nat) (interface alt : UInt32) (codes : EnableCodes)
  | disable (id : Nat)
  | unbind (id : Nat)
  /-- The `ffs_data` is deleted, once its functions are unbound, and a new one is created. -/
  | teardown

namespace EpsState

/-- The next state, and what is returned, if the step is possible and does not stop the
kernel.  Composite selects settings of bound functions only, and of their own interfaces; its
settings are bytes. -/
def step (s : EpsState) : EpsAct → Option (EpsState × Int)
  | .gotDescs epsCount =>
      if s.state = .readDescriptors then some ({ s with state := .readStrings, epsCount }, 0)
      else none
  | .gotStrings created =>
      if s.state ≠ .readStrings then none
      else if created then
        some ({ s with state := .active, epfiles := some fun _ => none }, 0)
      else
        some ({ s with state := .closing }, -enomem)
  | .readyFails => if s.state = .active then some ({ s with state := .closing }, -einval) else none
  | .bind id func =>
      if s.epfiles.isNone ∨ (s.funcs.lookup id).isSome then none
      else some ({ s with funcs := (id, func) :: s.funcs }.eventAdd .bind, 0)
  | .setAlt id interface alt codes =>
      (s.funcs.lookup id).bind fun func =>
        if (interface.toUInt8.toNat : Int) ∈ func.interfacesNums ∧ alt.toNat < 256 then
          (s.ffsFuncSetAlt id func interface alt codes).toOption
        else none
  | .disable id => (s.funcs.lookup id).bind fun func => (s.ffsFuncDisable id func).toOption
  | .unbind id => (s.funcs.lookup id).map fun func => (s.ffsFuncUnbind id func, 0)
  | .teardown =>
      if s.funcs.isEmpty then some ({ epsStateNew with enabled := s.enabled }, 0) else none

end EpsState

end Ffs
