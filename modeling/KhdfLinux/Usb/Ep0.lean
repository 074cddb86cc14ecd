import KhdfLinux.Usb.Events

/-!
# The control endpoint file

The calls on the file of endpoint zero while the function is active, the setup requests and
the other events that arrive, and the completions of the replies.  A call of `ffs_ep0_read`
or of `ffs_ep0_write` holds `mutex`, and is cut where it lets go of the lock of the events;
the commands take neither lock.  The calls, the arrivals and the completions interleave in
any order.

The setup requests are numbered as they arrive, and the numbers are carried along with the
replies.  They and the counts of the cancellations and of the reports are there for the
statements only: no step looks at them.
-/

namespace Ffs

open Exec

/-! ### The parts of the calls -/

/-- Where the call that holds `mutex` goes on; if it is `idle` no call holds `mutex`. -/
inductive Ep0Pc where
  | idle
  /-- `ffs_ep0_read` waits for an event, and takes up to `n` of them. -/
  | awaitEvents (n : Nat)
  /-- The lock is released before `__ffs_ep0_stall`. -/
  | stall
  /-- The lock is released to prepare the buffer. -/
  | prepare
  /-- `__ffs_ep0_queue_wait` has released the lock. -/
  | queue
  /-- `__ffs_ep0_queue_wait` waits for the completion. -/
  | wait
  /-- The completion has come, and the setup state is not assigned yet. -/
  | finish
  deriving DecidableEq, Repr

/-- The setup state after a cancellation is cleared. -/
def SetupState.clear : SetupState → SetupState
  | .cancelled => .noSetup
  | state => state

/-- `ffs_setup_state_clear_cancelled`. -/
def ffsSetupStateClearCancelled : Exec FfsEv SetupState := do
  let ev ← get
  set { ev with setupState := ev.setupState.clear }
  pure ev.setupState

/-- The check at the entry of `ffs_ep0_read` and `ffs_ep0_write`, without a lock. -/
def ffsEp0Enter : Exec FfsEv Unit := do
  let state ← ffsSetupStateClearCancelled
  if state = .cancelled then stop (.ret (-eidrm)) else pure ()

/-- `ffs_ep0_write` up to where it lets go of the lock of the events. -/
def ffsEp0Write : Exec FfsEv Ep0Pc := do
  match ← ffsSetupStateClearCancelled with
  | .cancelled => stop (.ret (-eidrm))
  | .noSetup => stop (.ret (-esrch))
  | .pending => do
      let ev ← get
      pure (if ev.setup.bRequestType &&& usbDirIn = 0 then .stall else .prepare)

/-- `ffs_ep0_read` up to where it lets go of the lock of the events, or waits for one. -/
def ffsEp0Read (len : Nat) (nonblock : Bool) : Exec FfsEv Ep0Pc := do
  match ← ffsSetupStateClearCancelled with
  | .cancelled => stop (.ret (-eidrm))
  | .noSetup => do
      let ev ← get
      if len / usbFunctionfsEventSize = 0 then stop (.ret (-einval))
      else if nonblock ∧ ev.count = 0 then stop (.ret (-eagain))
      else pure (.awaitEvents (len / usbFunctionfsEventSize))
  | .pending => do
      let ev ← get
      pure (if ev.setup.bRequestType &&& usbDirIn ≠ 0 then .stall else .prepare)

/-- The second check of `ffs_ep0_read` and `ffs_ep0_write`, after the buffer is prepared. -/
def ffsEp0Recheck : Exec FfsEv Ep0Pc := do
  let state ← ffsSetupStateClearCancelled
  if state = .cancelled then stop (.ret (-eidrm)) else pure .queue

/-- The assignment of `FFS_NO_SETUP` in `ffs_ep0_complete`, `__ffs_ep0_queue_wait`,
`__ffs_ep0_stall` and `ffs_ep0_ioctl`. -/
def assignNoSetup : Exec FfsEv Unit := modify fun ev => { ev with setupState := .noSetup }

/-- `__ffs_ep0_stall`. -/
def ffsEp0Stall : Exec FfsEv Int := do
  let ev ← get
  if ev.canStall then do
    assignNoSetup
    pure (-el2hlt)
  else
    pure (-esrch)

/-! ### The steps -/

/-- The control endpoint: its events, the call that holds `mutex`, the count of
`ep0req_completion`, the replies on `ep0req` the controller has (`inflight`), those whose
`ffs_ep0_complete` has signalled the completion and not yet assigned the setup state
(`signalled`), the commands that wait for a completion, the replies the controller has on
requests of their own (`async`), and those in `reqEventFifo`.  A reply is the number of the
setup request it is for.

Of the rest, `arrived` is the number of the latest setup request, `handed` of the one that
was handed over last, and `owner` of the one the call that holds `mutex` handles;
`cancellations` counts how often a pending setup was cancelled, `reports` how often a call
returned `-EIDRM`, and `answers` pairs the replies and stalls that were sent with the setup
request they answer, which is the latest. -/
structure Ep0 where
  ev : FfsEv
  pc : Ep0Pc
  completion : Nat
  inflight : List Nat
  signalled : List Nat
  syncCalls : Nat
  async : List Nat
  fifo : List Nat
  arrived : Nat
  handed : Nat
  owner : Nat
  cancellations : Nat
  reports : Nat
  answers : List (Nat × Nat)
  deriving DecidableEq, Repr

/-- What happens at the control endpoint. -/
inductive Ep0Act where
  /-- `ffs_event_add` of an event other than a setup request. -/
  | event (type : EventType)
  /-- `ffs_func_setup` takes a setup request. -/
  | setup (creq : UsbCtrlrequest)
  | enter
  | write
  | read (len : Nat) (nonblock : Bool)
  /-- There are events for the read; `copied` tells if user space gets them. -/
  | readEvents (copied : Bool)
  | interruptRead
  | stall
  | prepareFails
  | recheck
  /-- `usb_ep_queue` in `__ffs_ep0_queue_wait`. -/
  | queue (accepted : Bool)
  | wake
  | interruptWait
  | finish
  /-- `ffs_ep0_iorw` up to `usb_ep_queue`. -/
  | iorw (aio accepted : Bool)
  | iorwWake
  /-- `complete` in `ffs_ep0_complete` for the reply at the index. -/
  | complete (i : Nat)
  /-- The assignment in `ffs_ep0_complete`. -/
  | completed (i : Nat)
  /-- `ffs_ep0_async_io_complete`; `stored` tells if there is room in the fifo. -/
  | asyncComplete (i : Nat) (stored : Bool)
  /-- `FUNCTIONFS_ENDPOINT_GET_EP0_EVENT`, with an event in the fifo that is copied. -/
  | getEp0Event
  deriving DecidableEq, Repr

namespace Ep0

/-- The setup state. -/
abbrev state (s : Ep0) : SetupState := s.ev.setupState

/-- A call returns. -/
def returns (s : Ep0) (ret : Int) : Ep0 :=
  { s with reports := if ret = -eidrm then s.reports + 1 else s.reports }

/-- The call that takes `mutex`, or holds it, goes on. -/
def goOn (s : Ep0) (part : Exec FfsEv Ep0Pc) : Option Ep0 :=
  match part.run s.ev with
  | .ok pc ev => some { s with ev := ev, pc := pc }
  | .error (.ret ret) ev => some ({ s with ev := ev, pc := .idle }.returns ret)
  | .error (.fault _) _ => none

/-- An event arrives. -/
def add (s : Ep0) (type : EventType) : Option Ep0 :=
  match (ffsEventAdd type).run s.ev with
  | .ok _ ev => some { s with
      ev := ev
      cancellations :=
        if s.state ≠ .cancelled ∧ ev.setupState = .cancelled then s.cancellations + 1
        else s.cancellations }
  | .error _ _ => none

/-- A reply or a stall for the setup request `k` is sent, and answers the latest one. -/
def answer (s : Ep0) (k : Nat) : Ep0 := { s with answers := (k, s.arrived) :: s.answers }

/-- The setup state is assigned. -/
def assign (s : Ep0) : Ep0 := { s with ev := { s.ev with setupState := .noSetup } }

/-- The call that waits for events gets up to `n` of them. -/
def take (s : Ep0) (n : Nat) (copied : Bool) : Option Ep0 :=
  match (ffsEp0ReadEvents (min n s.ev.count) copied).run s.ev with
  | .ok (events, _) ev => some { s with
      ev := ev
      pc := .idle
      handed :=
        if copied ∧ .setup ∈ events.map UsbFunctionfsEvent.type then s.arrived else s.handed }
  | .error _ _ => none

/-- The next state of the control endpoint, if the step is possible. -/
def step (s : Ep0) : Ep0Act → Option Ep0
  | .event type => if type = .setup then none else s.add type
  | .setup creq =>
      { s with ev := { s.ev with setup := creq }, arrived := s.arrived + 1 }.add .setup
  | .enter =>
      match ffsEp0Enter.run s.ev with
      | .ok _ ev => some { s with ev := ev }
      | .error (.ret ret) ev => some ({ s with ev := ev }.returns ret)
      | .error (.fault _) _ => none
  | .write => if s.pc = .idle then { s with owner := s.handed }.goOn ffsEp0Write else none
  | .read len nonblock =>
      if s.pc = .idle then { s with owner := s.handed }.goOn (ffsEp0Read len nonblock)
      else none
  | .readEvents copied =>
      match s.pc with
      | .awaitEvents n => if s.ev.count = 0 then none else s.take n copied
      | _ => none
  | .interruptRead =>
      match s.pc with
      | .awaitEvents _ => some { s with pc := .idle }
      | _ => none
  | .stall =>
      if s.pc = .stall then
        match ffsEp0Stall.run s.ev with
        | .ok ret ev =>
            let t := { s with ev := ev, pc := .idle }
            some (if ret = -el2hlt then t.answer s.owner else t)
        | .error _ _ => none
      else none
  | .prepareFails => if s.pc = .prepare then some { s with pc := .idle } else none
  | .recheck => if s.pc = .prepare then s.goOn ffsEp0Recheck else none
  | .queue accepted =>
      if s.pc = .queue then
        some (if accepted then
          { s with
            completion := 0
            pc := .wait
            inflight := s.inflight ++ [s.owner] }.answer s.owner
        else { s with completion := 0, pc := .idle })
      else none
  | .wake =>
      if s.pc = .wait ∧ 0 < s.completion then
        some { s with pc := .finish, completion := s.completion - 1 }
      else none
  | .interruptWait => if s.pc = .wait then some { s with pc := .idle } else none
  | .finish => if s.pc = .finish then some { s.assign with pc := .idle } else none
  | .iorw false accepted =>
      some (if accepted then
        { s with
          completion := 0
          syncCalls := s.syncCalls + 1
          inflight := s.inflight ++ [s.handed] }.answer s.handed
      else { s with completion := 0 })
  | .iorw true accepted =>
      some (if accepted then { s with async := s.async ++ [s.handed] }.answer s.handed else s)
  | .iorwWake =>
      if 0 < s.syncCalls ∧ 0 < s.completion then
        some { s with syncCalls := s.syncCalls - 1, completion := s.completion - 1 }
      else none
  | .complete i =>
      s.inflight[i]?.map fun k => { s with
        inflight := s.inflight.eraseIdx i
        signalled := s.signalled ++ [k]
        completion := s.completion + 1 }
  | .completed i =>
      s.signalled[i]?.map fun _ => { s.assign with signalled := s.signalled.eraseIdx i }
  | .asyncComplete i stored =>
      s.async[i]?.map fun k => { s with
        async := s.async.eraseIdx i
        fifo := if stored then s.fifo ++ [k] else s.fifo }
  | .getEp0Event => s.fifo.head?.map fun _ => { s.assign with fifo := s.fifo.tail }

end Ep0

/-- The control endpoint of a new `ffs_data`. -/
def ep0New : Ep0 where
  ev := ffsEvNew
  pc := .idle
  completion := 0
  inflight := []
  signalled := []
  syncCalls := 0
  async := []
  fifo := []
  arrived := 0
  handed := 0
  owner := 0
  cancellations := 0
  reports := 0
  answers := []

end Ffs
