import KhdfLinux.Kevent.SysEvent
import KhdfLinux.Lib.Run
import Mathlib.Algebra.Ring.Nat

/-!
# The kevent module

The clients of the module, the calls of `SendKevent` that are under way with their waits, and the
messages by which clients acknowledge events, as the steps of one system.  What is done under the
mutexes is a step.
-/

namespace Kevent

/-- A message by which a client means to acknowledge the event of a call. -/
structure Ack where
  client : Nat
  about : Nat
  deriving DecidableEq, Repr

/-- A `struct HdfKeventWait` at the address `token`, with the number of its call, the clients that
were registered when the event was sent and those to which it was delivered, and the messages that
carried its address, in order. -/
structure Wait where
  token : Token
  waitCount : BitVec 32
  done : Nat
  number : Nat
  registered : List Nat
  delivered : List Nat
  acks : List Ack
  deriving DecidableEq, Repr

/-- A call of `SendKevent`, as it was asked for, with a number of its own. -/
structure Call where
  number : Nat
  eventClass : BitVec 64
  event : BitVec 32
  content : Option String
  sync : Bool
  deriving DecidableEq, Repr

/-- A call of `HdfDeviceSendEventToClient`, and what it returned. -/
structure Attempt where
  client : Nat
  buf : SBuf
  ret : Int
  deriving DecidableEq, Repr

/-- Where a call is: it has seen that there are clients, has built the buffer, waits, or waits no
more, because the wait was completed in time or not.  A `ret` that was not assigned is `none`. -/
inductive Phase where
  | checked
  | prepared (buf : SBuf) (wait : Option Token)
  | waiting (wait : Wait) (attempts : List Attempt) (ret : Option Int)
  | woken (wait : Wait) (attempts : List Attempt) (inTime : Bool) (ret : Option Int)
  deriving DecidableEq, Repr

/-- A call that is under way. -/
structure Frame where
  call : Call
  phase : Phase
  deriving DecidableEq, Repr

/-- How a call came to its end: there is no module, there are no clients, there is no buffer, or the
event was sent. -/
inductive Ending where
  | unavailable
  | nobody
  | unprepared
  | sent (inTime : Bool)
  deriving DecidableEq, Repr

/-- A call that has returned `result`, with the clients that were registered, what was sent to them
with which token, and those of them that are still open and have not acknowledged the event. -/
structure Report where
  call : Call
  ending : Ending
  registered : List Nat
  attempts : List Attempt
  syncToken : Token
  result : Option Int
  owing : List Nat
  deriving DecidableEq, Repr

/-- `struct HdfKeventModule` with whether it is published as `g_keventModule`, the calls that are
under way, and what has returned.  The waits on `waitList` are those of the calls; `allocated` are
the addresses of all waits that were not freed, and `opened` and `called` count the clients and the
calls so far. -/
structure System where
  published : Bool
  clientList : List Nat
  clientCount : BitVec 32
  frames : List Frame
  allocated : List Token
  opened : Nat
  called : Nat
  returned : List Report
  deriving DecidableEq, Repr

/-- The module when it was just bound. -/
def systemNew : System where
  published := false
  clientList := []
  clientCount := 0
  frames := []
  allocated := []
  opened := 0
  called := 0
  returned := []

/-! ### Waits -/

/-- What `CompleteKevent` does to a wait on the list. -/
def Wait.complete (w : Wait) (token : Token) (ack : Ack) : Wait :=
  if token = w.token then
    { w with
      waitCount := w.waitCount - 1
      done := if w.waitCount - 1 = 0 then w.done + 1 else w.done
      acks := w.acks ++ [ack] }
  else w

/-- The wait of a call, if it is on `waitList`. -/
def Phase.wait? : Phase → Option Wait
  | .waiting wait _ _ | .woken wait _ _ _ => some wait
  | _ => none

/-- The call with another wait. -/
def Phase.mapWait (f : Wait → Wait) : Phase → Phase
  | .waiting wait attempts ret => .waiting (f wait) attempts ret
  | .woken wait attempts inTime ret => .woken (f wait) attempts inTime ret
  | phase => phase

/-- Whether the client has acknowledged the event of the wait. -/
def Wait.AckedBy (w : Wait) (client : Nat) : Prop :=
  ∃ a ∈ w.acks, a.client = client ∧ a.about = w.number

instance (w : Wait) (client : Nat) : Decidable (w.AckedBy client) :=
  inferInstanceAs (Decidable (∃ a ∈ w.acks, _))

/-- What happens. -/
inductive Act where
  /-- `HdfKeventDriverInit` publishes the module. -/
  | driverInit
  | sysEventSend (eventClass : BitVec 64) (event : BitVec 32) (content : Option String)
      (sync : Bool)
  /-- A notifier calls `SendKevent`. -/
  | sendKevent (eventClass : BitVec 16) (event : BitVec 32) (content : Option String) (sync : Bool)
  | prepare (number : Nat) (o : Preparation)
  /-- A call sends the event to each client, with this return value for each. -/
  | deliver (number : Nat) (outcomes : Nat → Int)
  /-- The wait of a call was completed. -/
  | wake (number : Nat)
  /-- The wait of a call was not completed in time. -/
  | expire (number : Nat)
  | finish (number : Nat)
  /-- A client sends a command with a buffer; it means to acknowledge the event of the call `about`.
  -/
  | dispatch (client : Nat) (id : Int) (token : Option Token) (about : Nat)
  | driverOpen (allocated : Bool)
  | driverClose (client : Nat)

/-- `KEVENT_COMPLETE_EVENT`. -/
def keventCompleteEvent : Int := 1

namespace System

/-- `waitList`. -/
def waitList (s : System) : List Wait :=
  s.frames.filterMap fun f => f.phase.wait?

/-- The call of this number, if it is under way. -/
def frame (s : System) (number : Nat) : Option Frame :=
  s.frames.find? fun f => f.call.number = number

/-- The call goes on. -/
def setPhase (s : System) (call : Call) (phase : Phase) : System :=
  { s with
    frames := s.frames.map fun f => if f.call.number = call.number then ⟨call, phase⟩ else f }

/-- The call returns. -/
def leave (s : System) (report : Report) : System :=
  { s with
    frames := s.frames.filter fun f => f.call.number ≠ report.call.number
    returned := s.returned ++ [report] }

/-- A call that returns before it has sent anything. -/
def refuse (s : System) (call : Call) (ending : Ending) (result : Int) : System :=
  s.leave ⟨call, ending, s.clientList, [], 0, some result, s.clientList⟩

/-- Those of the clients that are still open and have not acknowledged the event of the wait. -/
def remaining (s : System) (w : Wait) (clients : List Nat) : List Nat :=
  clients.filter fun c => c ∈ s.clientList ∧ ¬w.AckedBy c

/-- Those that were registered when the event was sent. -/
def owing (s : System) (w : Wait) : List Nat :=
  s.remaining w w.registered

/-! ### Sending -/

/-- `SendKevent`, up to its test of `clientCount`. -/
def sendKevent (s : System) (eventClass : BitVec 64) (event : BitVec 32) (content : Option String)
    (sync : Bool) : System :=
  let call : Call := ⟨s.called, eventClass, event, content, sync⟩
  let s := { s with called := s.called + 1 }
  if s.clientCount.toInt ≤ 0 then s.refuse call .nobody Hdf.success
  else { s with frames := s.frames ++ [⟨call, .checked⟩] }

/-- `HdfSysEventSend`, up to there. -/
def sysEventSend (s : System) (eventClass : BitVec 64) (event : BitVec 32) (content : Option String)
    (sync : Bool) : System :=
  if s.published then s.sendKevent eventClass event content sync
  else
    let call : Call := ⟨s.called, eventClass, event, content, sync⟩
    { s with called := s.called + 1 }.refuse call .unavailable Hdf.devErrOp

/-- The part of `SendKevent` that calls `PrepareEvent`.  The class has passed through a `uint16_t`.
-/
def prepare (s : System) (call : Call) (o : Preparation) : System :=
  let (eventBuf, wait) :=
    prepareEvent o ((call.eventClass.setWidth 16).setWidth 64) call.event call.content call.sync
  let s := { s with allocated := wait.toList ++ s.allocated }
  match eventBuf with
  | none => s.refuse call .unprepared Hdf.failure
  | some buf => s.setPhase call (.prepared buf wait)

/-- The loop of `SendKevent` over `clientList`. -/
def attempts (s : System) (buf : SBuf) (outcomes : Nat → Int) : List Attempt :=
  s.clientList.map fun client => ⟨client, buf, outcomes client⟩

/-- The wait when its call unlocks the mutexes. -/
def newWait (s : System) (call : Call) (token : Token) (outcomes : Nat → Int) : Wait where
  token := token
  waitCount := s.clientCount
  done := 0
  number := call.number
  registered := s.clientList
  delivered := s.clientList.filter fun client => outcomes client = Hdf.success
  acks := []

/-- The part of `SendKevent` under the mutexes, and to its end if it does not wait. -/
def deliver (s : System) (call : Call) (buf : SBuf) (wait : Option Token) (outcomes : Nat → Int) :
    System :=
  let attempts := s.attempts buf outcomes
  -- each round assigns `ret`
  let ret := attempts.getLast?.map Attempt.ret
  match wait with
  | some token => s.setPhase call (.waiting (s.newWait call token outcomes) attempts ret)
  | none => s.leave ⟨call, .sent false, s.clientList, attempts, 0, ret, s.clientList⟩

/-- The end of a call of `SendKevent` that has waited. -/
def finish (s : System) (call : Call) (wait : Wait) (attempts : List Attempt) (inTime : Bool)
    (ret : Option Int) : System :=
  { s with allocated := s.allocated.erase wait.token }.leave
    ⟨call, .sent inTime, wait.registered, attempts, wait.token, ret, s.owing wait⟩

/-! ### Clients -/

/-- `CompleteKevent`, with what can be read from the buffer. -/
def completeKevent (s : System) (token : Option Token) (ack : Ack) : System :=
  match token with
  | none => s
  | some token =>
      { s with frames := s.frames.map fun f =>
          { f with phase := f.phase.mapWait fun wait => wait.complete token ack } }

/-- `HdfKeventIoServiceDispatch`. -/
def ioServiceDispatch (s : System) (id : Int) (token : Option Token) (ack : Ack) : System :=
  if id = keventCompleteEvent then s.completeKevent token ack else s

/-- `HdfKeventDriverOpen`, and what it returns. -/
def driverOpen (s : System) (allocated : Bool) : System × Int :=
  if allocated then
    ({ s with
      clientList := s.clientList ++ [s.opened]
      clientCount := s.clientCount + 1
      opened := s.opened + 1 }, Hdf.success)
  else
    (s, Hdf.errMallocFail)

/-- `HdfKeventDriverClose`. -/
def driverClose (s : System) (client : Nat) : System :=
  if client ∈ s.clientList then
    { s with clientList := s.clientList.erase client, clientCount := s.clientCount - 1 }
  else s

/-- Whether a wait can be allocated there. -/
def free (s : System) : Option Token → Bool
  | some token => token ≠ 0 ∧ token ∉ s.allocated
  | none => true

/-- A step, if it is possible.  A wait is allocated where none is, and clients that are open send
commands. -/
def next (s : System) : Act → Option System
  | .driverInit => some { s with published := true }
  | .sysEventSend eventClass event content sync =>
      some (s.sysEventSend eventClass event content sync)
  | .sendKevent eventClass event content sync =>
      some (s.sendKevent (eventClass.setWidth 64) event content sync)
  | .prepare number o =>
      match s.frame number with
      | some ⟨call, .checked⟩ =>
          if s.free o.wait then some (s.prepare call o) else none
      | _ => none
  | .deliver number outcomes =>
      match s.frame number with
      | some ⟨call, .prepared buf wait⟩ => some (s.deliver call buf wait outcomes)
      | _ => none
  | .wake number =>
      match s.frame number with
      | some ⟨call, .waiting wait attempts ret⟩ =>
          if wait.done = 0 then none
          else some (s.setPhase call (.woken { wait with done := wait.done - 1 } attempts true ret))
      | _ => none
  | .expire number =>
      match s.frame number with
      | some ⟨call, .waiting wait attempts _⟩ =>
          if wait.done = 0 then
            some (s.setPhase call (.woken wait attempts false (some Hdf.errTimeout)))
          else none
      | _ => none
  | .finish number =>
      match s.frame number with
      | some ⟨call, .woken wait attempts inTime ret⟩ =>
          some (s.finish call wait attempts inTime ret)
      | _ => none
  | .dispatch client id token about =>
      if client ∈ s.clientList then some (s.ioServiceDispatch id token ⟨client, about⟩) else none
  | .driverOpen allocated => some (s.driverOpen allocated).1
  | .driverClose client => some (s.driverClose client)

/-! ### What a step can do -/

/-- Where a call that is under way comes from. -/
inductive Origin (s : System) : Act → Frame → Prop where
  | old {a : Act} {f : Frame} (hf : f ∈ s.frames) : Origin s a f
  | started {a : Act} (call : Call) : Origin s a ⟨call, .checked⟩
  | prepared {call : Call} {o : Preparation} {buf : SBuf} {wait : Option Token}
      (hf : ⟨call, .checked⟩ ∈ s.frames)
      (hevent : prepareEvent o ((call.eventClass.setWidth 16).setWidth 64) call.event call.content
        call.sync = (some buf, wait)) :
      Origin s (.prepare call.number o) ⟨call, .prepared buf wait⟩
  | delivered {call : Call} {buf : SBuf} {token : Token} {outcomes : Nat → Int}
      (hframe : s.frame call.number = some ⟨call, .prepared buf (some token)⟩) :
      Origin s (.deliver call.number outcomes)
        ⟨call, .waiting (s.newWait call token outcomes) (s.attempts buf outcomes)
          ((s.attempts buf outcomes).getLast?.map Attempt.ret)⟩
  | woken {call : Call} {wait : Wait} {attempts : List Attempt} {ret : Option Int}
      (hf : ⟨call, .waiting wait attempts ret⟩ ∈ s.frames) (hdone : wait.done ≠ 0) :
      Origin s (.wake call.number)
        ⟨call, .woken { wait with done := wait.done - 1 } attempts true ret⟩
  | expired {call : Call} {wait : Wait} {attempts : List Attempt} {ret : Option Int}
      (hf : ⟨call, .waiting wait attempts ret⟩ ∈ s.frames) (hdone : wait.done = 0) :
      Origin s (.expire call.number) ⟨call, .woken wait attempts false (some Hdf.errTimeout)⟩
  | completed {f : Frame} {client : Nat} {token : Token} {about : Nat} (hf : f ∈ s.frames)
      (hclient : client ∈ s.clientList) :
      Origin s (.dispatch client keventCompleteEvent (some token) about)
        { f with phase := f.phase.mapWait fun wait => wait.complete token ⟨client, about⟩ }

/-- Where what a call has returned comes from. -/
inductive Returned (s : System) : Act → Report → Prop where
  | old {a : Act} {r : Report} (hr : r ∈ s.returned) : Returned s a r
  | unavailable {a : Act} (call : Call) (hpublished : ¬s.published) :
      Returned s a ⟨call, .unavailable, s.clientList, [], 0, some Hdf.devErrOp, s.clientList⟩
  | nobody {a : Act} (call : Call) (hcount : s.clientCount.toInt ≤ 0) :
      Returned s a ⟨call, .nobody, s.clientList, [], 0, some Hdf.success, s.clientList⟩
  | unprepared {call : Call} {o : Preparation} (hf : ⟨call, .checked⟩ ∈ s.frames) :
      Returned s (.prepare call.number o)
        ⟨call, .unprepared, s.clientList, [], 0, some Hdf.failure, s.clientList⟩
  | sent {call : Call} {buf : SBuf} {outcomes : Nat → Int}
      (hf : ⟨call, .prepared buf none⟩ ∈ s.frames) :
      Returned s (.deliver call.number outcomes)
        ⟨call, .sent false, s.clientList, s.attempts buf outcomes, 0,
          (s.attempts buf outcomes).getLast?.map Attempt.ret, s.clientList⟩
  | finished {call : Call} {wait : Wait} {attempts : List Attempt} {inTime : Bool}
      {ret : Option Int}
      (hf : ⟨call, .woken wait attempts inTime ret⟩ ∈ s.frames) :
      Returned s (.finish call.number)
        ⟨call, .sent inTime, wait.registered, attempts, wait.token, ret, s.owing wait⟩

/-- What a step does to the clients. -/
inductive Clients (s t : System) : Act → Prop where
  | same {a : Act} (hlist : t.clientList = s.clientList) (hcount : t.clientCount = s.clientCount)
      (hopened : t.opened = s.opened) : Clients s t a
  | opened (hlist : t.clientList = s.clientList ++ [s.opened])
      (hcount : t.clientCount = s.clientCount + 1) (hopened : t.opened = s.opened + 1) :
      Clients s t (.driverOpen true)
  | closed {client : Nat} (hclient : client ∈ s.clientList)
      (hlist : t.clientList = s.clientList.erase client)
      (hcount : t.clientCount = s.clientCount - 1)
      (hopened : t.opened = s.opened) : Clients s t (.driverClose client)

variable {s t : System} {a : Act}

theorem mem_of_frame {number : Nat} {f : Frame} (h : s.frame number = some f) :
  f ∈ s.frames ∧ f.call.number = number
  := ⟨List.mem_of_find?_eq_some h, by simpa using List.find?_some h⟩

theorem mem_setPhase {call : Call} {phase : Phase} {f : Frame}
    (h : f ∈ (s.setPhase call phase).frames) :
  f = ⟨call, phase⟩ ∨ f ∈ s.frames
  := by
  obtain ⟨f₀, hf₀, rfl⟩ := List.mem_map.mp h
  split
  · exact .inl rfl
  · exact .inr hf₀

/-- The call that goes on is under way. -/
theorem setPhase_self {call : Call} {phase phase' : Phase} (h : ⟨call, phase⟩ ∈ s.frames) :
  ⟨call, phase'⟩ ∈ (s.setPhase call phase').frames
  := List.mem_map.mpr ⟨⟨call, phase⟩, h, if_pos rfl⟩

theorem mem_leave_frames {r : Report} {f : Frame} (h : f ∈ (s.leave r).frames) :
  f ∈ s.frames
  := (List.mem_filter.mp h).1

theorem mem_leave_returned {r r' : Report} (h : r' ∈ (s.leave r).returned) :
  r' ∈ s.returned ∨ r' = r
  := (List.mem_append.mp h).imp_right List.mem_singleton.mp

/-- What may become of a system by a step. -/
structure Steps (s : System) (a : Act) (t : System) : Prop where
  clients : s.Clients t a
  frames : ∀ f ∈ t.frames, s.Origin a f
  returned : ∀ r ∈ t.returned, s.Returned a r

/-- A step that only has a call go on. -/
theorem steps_setPhase {allocated : List Token} {call : Call} {phase : Phase}
    (h : s.Origin a ⟨call, phase⟩) :
  s.Steps a ({ s with allocated }.setPhase call phase)
  := by
  refine ⟨.same rfl rfl rfl, fun f hf => ?_, fun r hr => .old hr⟩
  obtain rfl | hf := mem_setPhase hf
  · apply h
  · exact .old hf

/-- A step that only has a call return. -/
theorem steps_leave {allocated : List Token} {called : Nat} {r : Report} (h : s.Returned a r) :
  s.Steps a ({ s with allocated, called }.leave r)
  := by
  refine ⟨.same rfl rfl rfl, fun f hf => .old (mem_leave_frames hf), fun r' hr' => ?_⟩
  obtain hr' | rfl := mem_leave_returned hr'
  · exact .old hr'
  · apply h

theorem steps_sendKevent (a : Act) (eventClass : BitVec 64) (event : BitVec 32)
    (content : Option String) (sync : Bool) :
  s.Steps a (s.sendKevent eventClass event content sync)
  := by
  unfold sendKevent
  dsimp only
  split
  · rename_i hcount
    let call : Call := ⟨s.called, eventClass, event, content, sync⟩
    have hleave : s.Steps a ({ s with called := s.called + 1 }.leave
        ⟨call, .nobody, s.clientList, [], 0, some Hdf.success, s.clientList⟩) :=
      steps_leave (.nobody call hcount)
    apply hleave
  · refine ⟨.same rfl rfl rfl, fun f hf => ?_, fun r hr => .old hr⟩
    obtain hf | hf := List.mem_append.mp hf
    · exact .old hf
    · rw [List.mem_singleton.mp hf]
      exact .started _

/-- What a step can do. -/
theorem next_steps (h : s.next a = some t) :
  s.Steps a t
  := by
  cases a with
  | driverInit =>
      obtain rfl := Option.some.inj h
      exact ⟨.same rfl rfl rfl, fun f hf => .old hf, fun r hr => .old hr⟩
  | sysEventSend eventClass event content sync =>
      obtain rfl := Option.some.inj h
      unfold sysEventSend
      split
      · apply steps_sendKevent
      · rename_i hpublished
        apply steps_leave (.unavailable _ hpublished)
  | sendKevent eventClass event content sync =>
      obtain rfl := Option.some.inj h
      apply steps_sendKevent
  | prepare number o =>
      unfold next at h
      dsimp only at h
      split at h
      · rename_i call hframe
        obtain ⟨hf, rfl⟩ := mem_of_frame hframe
        split at h
        · obtain rfl := Option.some.inj h
          unfold System.prepare
          generalize hevent : prepareEvent o _ _ _ _ = prepared
          obtain ⟨eventBuf, wait⟩ := prepared
          dsimp only
          cases eventBuf with
          | none => exact steps_leave (.unprepared hf)
          | some buf => exact steps_setPhase (.prepared hf hevent)
        · cases h
      · cases h
  | deliver number outcomes =>
      unfold next at h
      dsimp only at h
      split at h
      · rename_i call buf wait hframe
        obtain ⟨hf, rfl⟩ := mem_of_frame hframe
        obtain rfl := Option.some.inj h
        unfold System.deliver
        cases wait with
        | none => exact steps_leave (.sent hf)
        | some token => exact steps_setPhase (.delivered hframe)
      · cases h
  | wake number =>
      unfold next at h
      dsimp only at h
      split at h
      · rename_i call wait attempts ret hframe
        obtain ⟨hf, rfl⟩ := mem_of_frame hframe
        split at h
        · cases h
        · rename_i hdone
          obtain rfl := Option.some.inj h
          apply steps_setPhase (.woken hf hdone)
      · cases h
  | expire number =>
      unfold next at h
      dsimp only at h
      split at h
      · rename_i call wait attempts ret hframe
        obtain ⟨hf, rfl⟩ := mem_of_frame hframe
        split at h
        · rename_i hdone
          obtain rfl := Option.some.inj h
          apply steps_setPhase (.expired hf hdone)
        · cases h
      · cases h
  | finish number =>
      unfold next at h
      dsimp only at h
      split at h
      · rename_i call wait attempts inTime ret hframe
        obtain ⟨hf, rfl⟩ := mem_of_frame hframe
        obtain rfl := Option.some.inj h
        apply steps_leave (.finished hf)
      · cases h
  | dispatch client id token about =>
      unfold next at h
      dsimp only at h
      split at h
      · rename_i hclient
        obtain rfl := Option.some.inj h
        unfold ioServiceDispatch
        split
        · rename_i hid
          subst hid
          cases token with
          | none => exact ⟨.same rfl rfl rfl, fun f hf => .old hf, fun r hr => .old hr⟩
          | some token =>
              refine ⟨.same rfl rfl rfl, fun f hf => ?_, fun r hr => .old hr⟩
              obtain ⟨f₀, hf₀, rfl⟩ := List.mem_map.mp hf
              exact .completed hf₀ hclient
        · exact ⟨.same rfl rfl rfl, fun f hf => .old hf, fun r hr => .old hr⟩
      · cases h
  | driverOpen allocated =>
      obtain rfl := Option.some.inj h
      cases allocated with
      | false => exact ⟨.same rfl rfl rfl, fun f hf => .old hf, fun r hr => .old hr⟩
      | true => exact ⟨.opened rfl rfl rfl, fun f hf => .old hf, fun r hr => .old hr⟩
  | driverClose client =>
      obtain rfl := Option.some.inj h
      unfold System.driverClose
      split
      · rename_i hclient
        exact ⟨.closed hclient rfl rfl rfl, fun f hf => .old hf, fun r hr => .old hr⟩
      · exact ⟨.same rfl rfl rfl, fun f hf => .old hf, fun r hr => .old hr⟩

end System

end Kevent
