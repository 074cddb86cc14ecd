import KhdfLinux.Hdf.Base

/-!
# System events

A system event as it is written into a buffer, and `PrepareEvent`, which builds the buffer.
-/

namespace Kevent

/-- An address, or the value of a token. -/
abbrev Token := BitVec 64

/-- `struct HdfSysEvent`. -/
structure SysEvent where
  eventClass : BitVec 64
  eventid : BitVec 32
  syncToken : Token
  deriving DecidableEq, Repr

/-- What is written into a `struct HdfSBuf`. -/
inductive Item where
  | buffer (sysEvent : SysEvent)
  | string (value : Option String)
  deriving DecidableEq, Repr

/-- A `struct HdfSBuf`, with what was written into it, in order. -/
abbrev SBuf := List Item

/-- What a client reads from the buffer: the event, then its content. -/
def SBuf.decode : SBuf → Option (SysEvent × Option String)
  | [.buffer sysEvent, .string content] => some (sysEvent, content)
  | _ => none

/-- What the functions that `PrepareEvent` calls return: if there is a buffer, the new wait if there
is memory for it, and if the event and the content fit into the buffer. -/
structure Preparation where
  obtained : Bool
  wait : Option Token
  bufferWritten : Bool
  stringWritten : Bool
  deriving DecidableEq, Repr

/-- All goes well, with a new wait at the address. -/
def Preparation.fine (wait : Token) : Preparation := ⟨true, some wait, true, true⟩

/-- `PrepareEvent`: the buffer, and the wait it has allocated. -/
def prepareEvent (o : Preparation) (eventClass : BitVec 64) (eventId : BitVec 32)
    (content : Option String) (sync : Bool) : Option SBuf × Option Token :=
  if ¬o.obtained then (none, none)
  else if sync ∧ o.wait = none then (none, none)
  else
    let eventWait := if sync then o.wait else none
    let sysEvent : SysEvent := ⟨eventClass, eventId, eventWait.getD 0⟩
    -- a wait that was allocated is not freed here
    if ¬o.bufferWritten then (none, eventWait)
    else if ¬o.stringWritten then (none, eventWait)
    else (some [.buffer sysEvent, .string content], eventWait)

/-- A buffer that is built is read as the event it was built for, with the wait as its token. -/
theorem decode_prepareEvent {o : Preparation} {eventClass : BitVec 64} {eventId : BitVec 32}
    {content : Option String} {sync : Bool} {buf : SBuf} {wait : Option Token}
    (h : prepareEvent o eventClass eventId content sync = (some buf, wait)) :
  buf.decode = some (⟨eventClass, eventId, wait.getD 0⟩, content) ∧ (wait.isSome ↔ sync)
  := by
  unfold prepareEvent at h
  split at h
  · cases h
  split at h
  · cases h
  · rename_i hwait
    dsimp only at h
    split at h
    · cases h
    split at h
    · cases h
    obtain ⟨hbuf, rfl⟩ := Prod.mk.inj h
    obtain rfl := Option.some.inj hbuf
    refine ⟨rfl, ?_⟩
    cases sync with
    | false => exact iff_of_false Bool.false_ne_true Bool.false_ne_true
    | true =>
        refine iff_of_true ?_ rfl
        rw [if_pos rfl]
        exact Option.isSome_iff_ne_none.mpr fun hnone => hwait ⟨rfl, hnone⟩

end Kevent
