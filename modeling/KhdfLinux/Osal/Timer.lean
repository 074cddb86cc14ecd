import Mathlib.Tactic.Common
import Mathlib.Algebra.Ring.Nat

/-!
# Timers of the OSAL

A timer is a handle to a ktimer, which holds a timer of the kernel.  `OsalTimerDelete` sets a flag
and leaves it to the callback of the next expiration to free the ktimer.  The model has the ktimers
that were created through one handle, the call on it that is going on, and the callbacks that are
running, all in steps between which the others can come: locked sections and calls of the kernel.
-/

namespace Osal.Timer

/-! ### Ktimers -/

/-- `OsalTimerMode`. -/
inductive OsalTimerMode where
  | once
  | loop
  deriving DecidableEq, Repr

/-- Where a run of `osal_timer_callback` is. -/
inductive Callback where
  /-- Before its first locked section. -/
  | entered
  /-- The flag was found unset, and the function is to be called. -/
  | sampled (mode : OsalTimerMode)
  /-- In the function. -/
  | func (mode : OsalTimerMode)
  /-- In the function, which has made a call on the timer. -/
  | calling (mode : OsalTimerMode)
  /-- The interval is read, and the timer of a loop is to be started again. -/
  | rearming (msec : Nat)
  /-- The flag was found set. -/
  | stopping
  /-- The timer is stopped, and the ktimer is to be freed. -/
  | freeing
  deriving DecidableEq, Repr

/-- A call on the timer has returned. -/
def Callback.resume : Callback → Callback
  | calling mode => func mode
  | callback => callback

/-- What must not be done to a ktimer. -/
inductive Fault where
  | freed
  | notSetUp
  | setUpPending
  | addPending
  deriving DecidableEq, Repr

/-- `struct osal_ktimer` with its `timer_list`, and what has happened to it: whether `timer_setup`
was applied, whether it is pending, the callbacks that are running, whether it was set up for
another processor during one, how often it was freed and its function called, whether
`OsalTimerDelete` has returned, and the faults. -/
structure KTimer where
  msec : Nat
  mode : OsalTimerMode
  stopFlag : Bool
  expires : Nat
  isSetUp : Bool
  pending : Bool
  callbacks : List Callback
  moved : Bool
  frees : Nat
  invocations : Nat
  deleted : Bool
  faults : List Fault
  deriving DecidableEq, Repr

/-- The time, and what is read as mode and flag of a ktimer that is freed. -/
structure Moment where
  jiffies : Nat
  mode : OsalTimerMode
  stopFlag : Bool

namespace KTimer

variable (toJiffies : Nat → Nat) (k : KTimer)

/-- Note a fault. -/
def check (bad : Bool) (fault : Fault) : KTimer :=
  if bad then { k with faults := fault :: k.faults } else k

/-- Access the ktimer. -/
def touch : KTimer := k.check (0 < k.frees) .freed

/-- `timer_setup`. -/
def timerSetup : KTimer :=
  { k.touch.check k.pending .setUpPending with isSetUp := true, pending := false }

/-- `add_timer`. -/
def addTimer : KTimer :=
  { (k.touch.check (!k.isSetUp) .notSetUp).check k.pending .addPending with pending := true }

/-- `mod_timer`. -/
def modTimer (expires : Nat) : KTimer :=
  { k.touch.check (!k.isSetUp) .notSetUp with expires, pending := true }

/-- `del_timer`. -/
def delTimer : KTimer :=
  { k.touch.check (!k.isSetUp) .notSetUp with pending := false }

/-- `OsalMutexDestroy` and `OsalMemFree`. -/
def free : KTimer := { k.touch with frees := k.frees + 1 }

/-- What is read as the mode. -/
def readMode (moment : Moment) : OsalTimerMode := if 0 < k.frees then moment.mode else k.mode

/-- What is read as the flag. -/
def readStopFlag (moment : Moment) : Bool :=
  if 0 < k.frees then moment.stopFlag else k.stopFlag

/-- The timer expires.  Its callbacks run one after the other, unless it was set up for another
processor during one. -/
def expire : Option KTimer :=
  if k.pending ∧ (k.callbacks = [] ∨ k.moved) then
    some { k.touch with pending := false, callbacks := k.callbacks ++ [.entered] }
  else
    none

/-- `osal_timer_callback`: the next section of a callback. -/
def timerCallback (n : Nat) (moment : Moment) : Option KTimer :=
  match k.callbacks[n]? with
  | none => none
  | some .entered =>
      let callback :=
        if k.readStopFlag moment then .stopping else .sampled (k.readMode moment)
      some { k.touch with callbacks := k.callbacks.set n callback }
  | some (.sampled mode) =>
      some { k.touch with
        callbacks := k.callbacks.set n (.func mode)
        invocations := k.invocations + 1 }
  | some (.func .once) => some { k.touch with callbacks := k.callbacks.eraseIdx n }
  | some (.func .loop) => some { k.touch with callbacks := k.callbacks.set n (.rearming k.msec) }
  | some (.calling _) => none
  | some (.rearming msec) =>
      some { k.modTimer (moment.jiffies + toJiffies msec) with
        callbacks := k.callbacks.eraseIdx n }
  | some .stopping => some { k.delTimer with callbacks := k.callbacks.set n .freeing }
  | some .freeing => some { k.free with callbacks := k.callbacks.eraseIdx n }

/-- What the kernel does to a ktimer: an expiration, or the next section of a callback. -/
def kernelNext : Option (Nat × Moment) → Option KTimer
  | none => k.expire
  | some (n, moment) => k.timerCallback toJiffies n moment

/-- A callback calls on the timer from its function, or another thread does. -/
def call : Option Nat → Option KTimer
  | none => some k
  | some n =>
      match k.callbacks[n]? with
      | some (.func mode) => some { k with callbacks := k.callbacks.set n (.calling mode) }
      | _ => none

/-- The call returns to the callback, if it was made there. -/
def resume : KTimer := { k with callbacks := k.callbacks.map Callback.resume }

end KTimer

/-! ### Calls -/

/-- Where a call is: `OsalTimerStart` after `timer_setup` and with the mode set, `OsalTimerDelete`
with the flag set, with `OSAL_TIMER_ONCE` read as the mode, and before it clears the handle. -/
inductive CallPhase where
  | setUp (mode : OsalTimerMode)
  | modeSet
  | flagged
  | rearming
  | done
  deriving DecidableEq, Repr

/-- A call, with the ktimer that it found in the handle. -/
structure Call where
  target : Nat
  phase : CallPhase
  deriving DecidableEq, Repr

/-- The ktimers that were created, the one that the handle refers to, and the call on the handle
that is going on. -/
structure State where
  timers : List KTimer
  handle : Option Nat
  call : Option Call
  deriving DecidableEq, Repr

/-- The calls, each by the callback of a number that runs for the timer of the handle or by another
thread, the next section of the call, the expirations, and the next sections of the callbacks. -/
inductive Act where
  | create (func : Bool) (interval : Nat) (allocated : Bool)
  | start (own : Option Nat) (mode : OsalTimerMode)
  | setTimeout (interval : Nat)
  | delete (own : Option Nat)
  | proceed (moment : Moment)
  | expire (i : Nat)
  | callback (i n : Nat) (moment : Moment)

/-- A ktimer as `OsalTimerCreate` makes it. -/
def ktimerNew (interval : Nat) : KTimer where
  msec := interval
  mode := .once
  stopFlag := false
  expires := 0
  isSetUp := false
  pending := false
  callbacks := []
  moved := false
  frees := 0
  invocations := 0
  deleted := false
  faults := []

namespace State

variable (toJiffies : Nat → Nat) (s : State)

/-- Nothing has been created. -/
def new : State := ⟨[], none, none⟩

/-- Put a ktimer back. -/
def put (i : Nat) (k : KTimer) : State := { s with timers := s.timers.set i k }

/-- `OsalTimerCreate`. -/
def timerCreate (func : Bool) (interval : Nat) (allocated : Bool) : State :=
  if ¬func ∨ interval = 0 then s
  else if ¬allocated then { s with handle := none }
  else
    { s with
      timers := s.timers ++ [ktimerNew interval]
      handle := some s.timers.length }

/-- `OsalTimerStart`, up to `timer_setup`.  It is set up for the processor of the caller. -/
def timerStart (i : Nat) (k : KTimer) (own : Option Nat) (mode : OsalTimerMode) : Option State := do
  let k ← k.call own
  let moved := k.moved || (own.isNone && !k.callbacks.isEmpty)
  some { s.put i { k.timerSetup with moved } with call := some ⟨i, .setUp mode⟩ }

/-- `OsalTimerSetTimeout`. -/
def timerSetTimeout (i : Nat) (k : KTimer) (interval : Nat) : State :=
  if interval = 0 then s
  else if k.msec = interval then s.put i k.touch
  else s.put i { k.touch with msec := interval }

/-- `OsalTimerDelete`, up to the end of its locked section. -/
def timerDelete (i : Nat) (k : KTimer) (own : Option Nat) : Option State := do
  let k ← k.call own
  some { s.put i { k.touch with stopFlag := true } with call := some ⟨i, .flagged⟩ }

/-- The next section of the call that is going on. -/
def proceed (i : Nat) (k : KTimer) (moment : Moment) : CallPhase → State
  | .setUp mode => { s.put i { k.touch with mode } with call := some ⟨i, .modeSet⟩ }
  | .modeSet =>
      let k := { k.touch with expires := moment.jiffies + toJiffies k.msec }
      { s.put i k.addTimer.resume with call := none }
  | .flagged =>
      let phase := if k.readMode moment = .once then .rearming else .done
      { s.put i k.touch with call := some ⟨i, phase⟩ }
  | .rearming => { s.put i (k.modTimer k.expires) with call := some ⟨i, .done⟩ }
  | .done => { s.put i { k.resume with deleted := true } with handle := none, call := none }

/-- The ktimer that the handle refers to. -/
def held : Option (Nat × KTimer) := do
  let i ← s.handle
  let k ← s.timers[i]?
  some (i, k)

/-- A step.  Calls on the handle are made one after the other; without a ktimer they do nothing. -/
def next : Act → Option State
  | .create func interval allocated =>
      if s.call = none then some (s.timerCreate func interval allocated) else none
  | .start own mode =>
      if s.call = none then
        match s.held with
        | none => some s
        | some (i, k) => s.timerStart i k own mode
      else none
  | .setTimeout interval =>
      if s.call = none then
        match s.held with
        | none => some s
        | some (i, k) => some (s.timerSetTimeout i k interval)
      else none
  | .delete own =>
      if s.call = none then
        match s.held with
        | none => some s
        | some (i, k) => s.timerDelete i k own
      else none
  | .proceed moment => do
      let call ← s.call
      let k ← s.timers[call.target]?
      some (s.proceed toJiffies call.target k moment call.phase)
  | .expire i => do
      let k ← s.timers[i]?
      let k ← k.expire
      some (s.put i k)
  | .callback i n moment => do
      let k ← s.timers[i]?
      let k ← k.timerCallback toJiffies n moment
      some (s.put i k)

end State

end Osal.Timer
