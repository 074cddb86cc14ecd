import KhdfLinux.Lib.Locks
import KhdfLinux.Usb.Uapi
import Mathlib.Algebra.GroupWithZero.Nat

/-!
# The endpoint files

`ffsEpfileIorw` and `ffsEpfileIoctl` with the locks they take, `eps_lock` of the `ffs_data`
and `mutex` of the endpoint file.  What a call reads while it does not hold `eps_lock`, and
what the kernel's functions return to it, is given with the call.
-/

namespace Ffs

open Exec Locks

/-- The locks of an endpoint file. -/
inductive EpfileLock where
  | epsLock
  | mutex
  deriving DecidableEq, Repr

/-- `struct ffs_memory`. -/
structure FfsMemory where
  mem : UInt64
  size : UInt32
  vmStart : UInt64
  deriving DecidableEq, Repr

/-- `generic_find_memory_area`. -/
def genericFindMemoryArea (memoryList : List FfsMemory) (buf : UInt64) (len : UInt32) :
    Option FfsMemory :=
  memoryList.find? fun iter =>
    iter.vmStart ≤ buf ∧ buf < iter.vmStart + iter.size.toUInt64
      ∧ len.toUInt64 ≤ iter.vmStart + iter.size.toUInt64 - buf

/-- `struct IoData`. -/
structure IoData where
  aio : UInt32
  read : UInt32
  len : UInt32
  timeout : UInt32
  buf : UInt64
  deriving DecidableEq, Repr

/-- `struct generic_memory`. -/
structure GenericMemory where
  size : UInt32
  buf : UInt64
  deriving DecidableEq, Repr

/-- The part of `struct ffs_epfile` a transfer reads, except `ep`. -/
structure Epfile where
  memoryList : List FfsMemory
  in_ : Bool
  isoc : Bool
  deriving DecidableEq, Repr

/-! ### Transfers -/

/-- The surroundings of a transfer: `active` tells if the state is `FFS_ACTIVE`, `nonblock`
if the file is; `ep` is `epfile->ep` at the start, `waitedEp` what it is after a wait, if
that is not interrupted, `alignEp` and `ioEp` what it is in the two parts that hold
`eps_lock`; the other fields are the results of the kernel's functions. -/
structure IorwEnv where
  active : Bool
  nonblock : Bool
  ep : Option Nat
  waitedEp : Option Nat
  alignEp : Option Nat
  ioEp : Option Nat
  mutexLock : Int
  setHalt : Int
  queue : Int
  wait : Int
  epStatus : Int
  reqActual : Int
  allocRequest : Bool
  deriving DecidableEq, Repr

/-- The label `error_mutex`. -/
def errorMutex (ret : Int) : Exec (Locks EpfileLock) Int := do
  release .mutex
  pure ret

/-- The label `error_lock`. -/
def errorLock (ret : Int) : Exec (Locks EpfileLock) Int := do
  release .epsLock
  errorMutex ret

/-- The endpoint of a transfer, or the code that is returned for want of it. -/
def IorwEnv.waitEp (env : IorwEnv) : Except Int Nat :=
  match env.ep with
  | some ep => .ok ep
  | none =>
      if env.nonblock then
        .error (-eagain)
      else
        match env.waitedEp with
        | some ep => .ok ep
        | none => .error (-eintr)

/-- `halt`: the direction of the transfer is not that of the endpoint. -/
def isHalt (epfile : Epfile) (io : IoData) : Bool := (io.read = 0) == !epfile.in_

/-- A transfer the caller waits for, entered with both locks held: queue the request, and
return what comes of it. -/
def waitRequest (io : IoData) (env : IorwEnv) : Exec (Locks EpfileLock) Int := do
  if env.queue < 0 then
    errorLock env.queue
  else
    release .epsLock
    if 0 < io.timeout ∧ env.wait = 0 then
      errorMutex (-ebusy)
    else if env.wait < 0 ∧ env.epStatus < 0 then
      errorMutex (-eintr)
    else
      errorMutex env.reqActual

/-- The second part of a transfer, which starts with `mutex` held. -/
def startRequest (epfile : Epfile) (io : IoData) (env : IorwEnv) (ep : Nat) :
    Exec (Locks EpfileLock) Int := do
  acquire .epsLock
  match genericFindMemoryArea epfile.memoryList io.buf io.len with
  -- the return here passes over the labels
  | none => pure (-efault)
  | some _ =>
      if env.ioEp ≠ some ep then
        errorLock (-eshutdown)
      else if isHalt epfile io then
        errorLock (if env.setHalt = 0 then -ebadmsg else env.setHalt)
      else if io.aio = 0 then
        waitRequest io env
      else if ¬env.allocRequest then
        errorLock (-enomem)
      else if env.queue ≠ 0 then
        errorLock env.queue
      else
        errorLock (-eiocbqueued)

/-- `ffs_epfile_iorw`. -/
def ffsEpfileIorw (epfile : Epfile) (io : IoData) (env : IorwEnv) :
    Exec (Locks EpfileLock) Int := do
  if ¬env.active then
    pure (-enodev)
  else
    match env.waitEp with
    | .error ret => pure ret
    | .ok ep =>
        if isHalt epfile io ∧ epfile.isoc then
          pure (-einval)
        else
          let ret ← attempt .mutex env.mutexLock
          if ret ≠ 0 then
            pure ret
          else if isHalt epfile io then
            startRequest epfile io env ep
          else
            acquire .epsLock
            -- in the meantime, endpoint got disabled or changed
            if env.alignEp ≠ some ep then
              errorLock (-eshutdown)
            else
              release .epsLock
              startRequest epfile io env ep

/-! ### Commands -/

/-- The commands of `ffs_epfile_ioctl`. -/
inductive EpfileCmd where
  | queueInit
  | queueDel
  | releaseBuf
  | read
  | write
  | rwCancel
  | getReqStatus
  | fifoStatus
  | fifoFlush
  | clearHalt
  | endpointRevmap
  | endpointDesc
  | other
  deriving DecidableEq, Repr

/-- The index into `descs` for the connected speed: super speed has its own, every other
speed that of high speed. -/
def descIdx (superSpeed : Bool) : Fin 3 := if superSpeed then 2 else 1

/-- The surroundings of a command: `ep` is `epfile->ep` at the start, `lockedEp` what it is
while `eps_lock` is held; `mem` and `io` are what is copied from user space, if the copy
succeeds; `requests` are the buffers and the status of the requests in flight on the
endpoint; `descs` are the `bLength` of the descriptors of the endpoint that are there; the
other fields are the results of the kernel's functions. -/
structure IoctlEnv where
  active : Bool
  ep : Option Nat
  lockedEp : Option Nat
  kfifoAlloc : Int
  mem : Option GenericMemory
  io : Option IoData
  kmalloc : Bool
  iorw : IorwEnv
  requests : List (UInt64 × Int)
  fifoStatus : Int
  clearHalt : Int
  epNum : Int
  superSpeed : Bool
  descs : Fin 3 → Option UInt8
  copyToUser : Bool

/-- Release `eps_lock` and return. -/
def unlockReturn (ret : Int) : Exec (Locks EpfileLock) Int := do
  release .epsLock
  pure ret

/-- `FUNCTIONFS_ENDPOINT_READ` and `FUNCTIONFS_ENDPOINT_WRITE`, entered with `eps_lock`
held. -/
def ioctlReadWrite (epfile : Epfile) (env : IoctlEnv) : Exec (Locks EpfileLock) Int :=
  match env.io with
  | none => unlockReturn (-efault)
  | some io =>
      if io.aio ≠ 0 ∧ ¬env.kmalloc then
        unlockReturn (-enomem)
      else do
        -- `memset_s` and `memcpy_s` are given the sizes of the objects, and don't fail
        release .epsLock
        let ret ← ffsEpfileIorw epfile io env.iorw
        pure (if ret = -eiocbqueued then 0 else ret)

/-- `FUNCTIONFS_ENDPOINT_RW_CANCEL` and `FUNCTIONFS_ENDPOINT_GET_REQ_STATUS`, entered with
`eps_lock` held: look for the request of a buffer, and return `found` of its status. -/
def ioctlFindRequest (epfile : Epfile) (env : IoctlEnv) (found : Int → Int) :
    Exec (Locks EpfileLock) Int :=
  if env.ep = none then
    unlockReturn (-efault)
  else
    match env.io with
    | none => unlockReturn (-efault)
    | some io =>
        match genericFindMemoryArea epfile.memoryList io.buf io.len with
        | none => pure (-efault)
        | some ffsm =>
            if env.lockedEp = none then
              stop (.fault .nullDeref)
            else
              match env.requests.find? fun req => req.1 = ffsm.mem + io.buf - ffsm.vmStart with
              | some req => unlockReturn (found req.2)
              | none => unlockReturn (-efault)

/-- A command that asks the controller about `epfile->ep->ep`, entered with `eps_lock`
held. -/
def ioctlEp (env : IoctlEnv) (ret : Int) : Exec (Locks EpfileLock) Int :=
  if env.lockedEp = none then stop (.fault .nullDeref) else unlockReturn ret

/-- `FUNCTIONFS_ENDPOINT_DESC`, entered with `eps_lock` held. -/
def ioctlEndpointDesc (env : IoctlEnv) : Exec (Locks EpfileLock) Int := do
  release .epsLock
  match env.descs (descIdx env.superSpeed) with
  | none => stop (.fault .nullDeref)
  | some _ => pure (if env.copyToUser then 0 else -efault)

/-- `ffs_epfile_ioctl`. -/
def ffsEpfileIoctl (epfile : Epfile) (cmd : EpfileCmd) (env : IoctlEnv) :
    Exec (Locks EpfileLock) Int := do
  if ¬env.active then
    pure (-enodev)
  else
    acquire .epsLock
    match cmd with
    | .queueInit => unlockReturn env.kfifoAlloc
    | .queueDel => unlockReturn 0
    | .releaseBuf =>
        match env.mem with
        | none => pure (-efault)
        | some mem =>
            match genericFindMemoryArea epfile.memoryList mem.buf mem.size with
            | none => pure (-efault)
            | some _ => unlockReturn 0
    | .read | .write => ioctlReadWrite epfile env
    | .rwCancel => ioctlFindRequest epfile env fun _ => 0
    | .getReqStatus => ioctlFindRequest epfile env id
    | .fifoStatus => ioctlEp env env.fifoStatus
    | .fifoFlush => ioctlEp env 0
    | .clearHalt => ioctlEp env env.clearHalt
    | .endpointRevmap => ioctlEp env env.epNum
    | .endpointDesc => ioctlEndpointDesc env
    | .other => unlockReturn (-enotty)

end Ffs
