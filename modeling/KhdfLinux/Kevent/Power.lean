import KhdfLinux.Kevent.Acknowledged
import KhdfLinux.Kevent.Lifecycle

/-!
# Power events

A notifier of the module tells user space of a change of power by `SendKevent`, and the drivers by
`KernalSpacePmNotify` after that.  `drivers_follow`: in a run whose messages are honest, the drivers
are told of the events of each chain in the order in which they were announced, each once, and of a
suspension or a display that goes off only when every client that was told has acknowledged this
event or was closed, or the call has failed.
-/

namespace Kevent

open Lifecycle (Notifier)

/-! ### Events -/

/-- `KEVENT_POWER_SUSPEND` and so on. -/
inductive PowerEvent where
  | suspend
  | displayOff
  | resume
  | displayOn
  deriving DecidableEq, Repr

/-- `POWER_STATE_SUSPEND` and so on. -/
inductive PowerState where
  | suspend
  | dozeSuspend
  | resume
  | dozeResume
  deriving DecidableEq, Repr

/-- `HDF_SYSEVENT_CLASS_POWER`, and the values of the events, which are labels of one `switch`. -/
structure PowerCodes where
  classPower : BitVec 16
  event : PowerEvent → BitVec 32
  injective : Function.Injective event

/-- `PM_SUSPEND_PREPARE`. -/
def pmSuspendPrepare : Nat := 3

/-- `PM_POST_SUSPEND`. -/
def pmPostSuspend : Nat := 4

/-- `FB_EVENT_BLANK`. -/
def fbEventBlank : Nat := 9

/-- `FB_BLANK_UNBLANK`. -/
def fbBlankUnblank : Int := 0

/-- The event of `KeventPmNotifierFn`, and whether it is synchronous, unless it does nothing. -/
def keventPmNotifierFn (action : Nat) : Option (PowerEvent × Bool) :=
  if action = pmSuspendPrepare then some (.suspend, true)
  else if action = pmPostSuspend then some (.resume, false)
  else none

/-- The same of `KeventFbNotifierFn`, with what `fbEvent->data` points to, if it does. -/
def keventFbNotifierFn (event : Nat) (blank : Option Int) : Option (PowerEvent × Bool) :=
  if event ≠ fbEventBlank then none
  else blank.map fun blank =>
    if blank = fbBlankUnblank then (.displayOn, false) else (.displayOff, true)

/-- The state that `KernalSpacePmNotify` asks of the driver manager. -/
def kernalSpacePmNotify (codes : PowerCodes) (powerEvent : BitVec 32) : Option PowerState :=
  if powerEvent = codes.event .suspend then some .suspend
  else if powerEvent = codes.event .displayOff then some .dozeSuspend
  else if powerEvent = codes.event .resume then some .resume
  else if powerEvent = codes.event .displayOn then some .dozeResume
  else none

/-! ### Notifiers -/

/-- A notifier that has called `SendKevent`. -/
structure Notifying where
  powerEvent : PowerEvent
  call : Call
  deriving DecidableEq, Repr

/-- What the drivers were told by a notifier of the chain: nothing, if there was no driver
manager. -/
structure Told extends Notifying where
  chain : Notifier
  change : Option PowerState
  deriving DecidableEq, Repr

/-- The module, the notifier that is called on each chain, the events that were announced on it,
and what the drivers were told. -/
structure Power where
  kevent : System
  notifying : Notifier → Option Notifying
  announced : Notifier → List PowerEvent
  told : List Told

namespace Power

/-- What happens. -/
inductive Act where
  | kevent (a : Kevent.Act)
  | pmNotify (action : Nat)
  | fbNotify (event : Nat) (blank : Option Int)
  /-- The notifier whose call has returned goes on; `manager` tells whether there is a driver
  manager. -/
  | spaceNotify (chain : Notifier) (manager : Bool)

/-- The module when it was just bound. -/
def init : Power := ⟨systemNew, fun _ => none, fun _ => [], []⟩

variable (codes : PowerCodes) (s : Power)

/-- A notifier, up to its call of `SendKevent`.  A chain calls one notifier at a time: its callers
hold a lock. -/
def notify (chain : Notifier) (powerEvent : Option (PowerEvent × Bool)) : Option Power :=
  match s.notifying chain, powerEvent with
  | some _, _ => none
  | none, none => some s
  | none, some (powerEvent, sync) =>
      (s.kevent.next (.sendKevent codes.classPower (codes.event powerEvent) none sync)).map
        fun kevent =>
          { s with
            kevent
            notifying := Function.update s.notifying chain (some ⟨powerEvent,
              ⟨s.kevent.called, codes.classPower.setWidth 64, codes.event powerEvent, none,
                sync⟩⟩)
            announced := Function.update s.announced chain (s.announced chain ++ [powerEvent]) }

/-- The rest of a notifier. -/
def spaceNotify (chain : Notifier) (manager : Bool) : Option Power :=
  match s.notifying chain with
  | none => none
  | some n =>
      if n.call ∈ s.kevent.returned.map Report.call then
        some { s with
          notifying := Function.update s.notifying chain none
          told := s.told ++ [⟨n, chain,
            if manager then kernalSpacePmNotify codes (codes.event n.powerEvent) else none⟩] }
      else none

/-- The step is the call of `SendKevent` by a notifier. -/
def ofNotifier : Kevent.Act → Bool
  | .sendKevent _ _ _ _ => true
  | _ => false

/-- A step, if it is possible. -/
def next : Act → Option Power
  | .kevent a =>
      if ofNotifier a then none else (s.kevent.next a).map fun kevent => { s with kevent }
  | .pmNotify action => s.notify codes .pm (keventPmNotifierFn action)
  | .fbNotify event blank => s.notify codes .fb (keventFbNotifierFn event blank)
  | .spaceNotify chain manager => s.spaceNotify codes chain manager

/-- The messages of clients are honest. -/
def Honest : Act → Prop
  | .kevent a => s.kevent.Honest a
  | _ => True

/-- A step by honest messages. -/
def HonestStep (t : Power) (a : Act) (u : Power) : Prop := t.next codes a = some u ∧ t.Honest a

/-- What the drivers were told by the chain. -/
def toldOn (chain : Notifier) : List Told := s.told.filter fun m => m.chain = chain

end Power

/-- User space is to acknowledge the event. -/
def PowerEvent.Sync : PowerEvent → Prop
  | .suspend | .displayOff => True
  | .resume | .displayOn => False

/-- The state of the drivers after the event. -/
def PowerEvent.state : PowerEvent → PowerState
  | .suspend => .suspend
  | .displayOff => .dozeSuspend
  | .resume => .resume
  | .displayOn => .dozeResume

/-- The call sends the event. -/
structure Notifying.Sends (codes : PowerCodes) (n : Notifying) : Prop where
  eventClass : n.call.eventClass = codes.classPower.setWidth 64
  event : n.call.event = codes.event n.powerEvent
  content : n.call.content = none
  sync : n.call.sync ↔ n.powerEvent.Sync

/-- No client that was told, and is open, has yet to acknowledge the event, or the call has
failed. -/
def Report.Settled (r : Report) : Prop :=
  r.owing = [] ∨ ∃ code, r.result = some code ∧ code ≠ Hdf.success

/-- The drivers were told of the event after its call has returned, and of one that is to be
acknowledged after that. -/
structure Told.Follows (codes : PowerCodes) (s : System) (m : Told) : Prop where
  sends : m.Sends codes
  change : m.change = none ∨ m.change = some m.powerEvent.state
  returned : ∃ r ∈ s.returned, r.call = m.call
  settled : m.powerEvent.Sync → ∀ r ∈ s.returned, r.call = m.call → r.Settled

namespace Power

variable {codes : PowerCodes} {s t : Power} {chain : Notifier}

/-- What holds in every run. -/
structure Inv (codes : PowerCodes) (s : Power) : Prop where
  tidy : s.kevent.Tidy
  patient : s.kevent.Patient
  waits : s.kevent.WaitsForAll
  order : ∀ chain, s.announced chain
    = (s.toldOn chain).map (fun m => m.powerEvent)
      ++ ((s.notifying chain).map Notifying.powerEvent).toList
  sends : ∀ chain, ∀ n ∈ s.notifying chain, n.Sends codes
  told : ∀ m ∈ s.told, m.Sends codes ∧ (m.change = none ∨ m.change = some m.powerEvent.state)
    ∧ ∃ r ∈ s.kevent.returned, r.call = m.call

/-! ### The functions -/

theorem kernalSpacePmNotify_event (codes : PowerCodes) (powerEvent : PowerEvent) :
  kernalSpacePmNotify codes (codes.event powerEvent) = some powerEvent.state
  := by
  unfold kernalSpacePmNotify
  simp only [codes.injective.eq_iff]
  cases powerEvent with
  | suspend => rfl
  | displayOff => rfl
  | resume => rfl
  | displayOn => rfl

/-- The notifiers are synchronous for what is to be acknowledged. -/
theorem sync_of_pm {action : Nat} {powerEvent : PowerEvent} {sync : Bool}
    (h : keventPmNotifierFn action = some (powerEvent, sync)) :
  sync ↔ powerEvent.Sync
  := by
  unfold keventPmNotifierFn at h
  split at h
  · cases h
    exact iff_of_true rfl trivial
  split at h
  · cases h
    exact iff_of_false Bool.false_ne_true id
  · cases h

theorem sync_of_fb {event : Nat} {blank : Option Int} {powerEvent : PowerEvent} {sync : Bool}
    (h : keventFbNotifierFn event blank = some (powerEvent, sync)) :
  sync ↔ powerEvent.Sync
  := by
  unfold keventFbNotifierFn at h
  split at h
  · cases h
  obtain ⟨blank, -, h⟩ := Option.map_eq_some_iff.mp h
  split at h
  · cases h
    exact iff_of_false Bool.false_ne_true id
  · cases h
    exact iff_of_true rfl trivial

end Power

namespace System

variable {s t : System} {a : Act}

theorem returned_sendKevent (eventClass : BitVec 64) (event : BitVec 32)
    (content : Option String) (sync : Bool) :
  s.returned ⊆ (s.sendKevent eventClass event content sync).returned
  := by
  unfold sendKevent
  dsimp only
  split
  · exact List.subset_append_left _ _
  · exact List.Subset.refl _

/-- What a call has returned is kept. -/
theorem returned_subset (h : s.next a = some t) :
  s.returned ⊆ t.returned
  := by
  cases a with
  | driverInit =>
      obtain rfl := Option.some.inj h
      exact List.Subset.refl _
  | sysEventSend eventClass event content sync =>
      obtain rfl := Option.some.inj h
      unfold sysEventSend
      split
      · apply returned_sendKevent
      · exact List.subset_append_left _ _
  | sendKevent eventClass event content sync =>
      obtain rfl := Option.some.inj h
      apply returned_sendKevent
  | prepare number o =>
      unfold next at h
      dsimp only at h
      split at h
      · split at h
        · obtain rfl := Option.some.inj h
          unfold System.prepare
          generalize prepareEvent o _ _ _ _ = prepared
          obtain ⟨eventBuf, wait⟩ := prepared
          cases eventBuf with
          | none => exact List.subset_append_left _ _
          | some buf => exact List.Subset.refl _
        · cases h
      · cases h
  | deliver number outcomes =>
      unfold next at h
      dsimp only at h
      split at h
      · next call buf wait hframe =>
        obtain rfl := Option.some.inj h
        cases wait with
        | none => exact List.subset_append_left _ _
        | some token => exact List.Subset.refl _
      · cases h
  | wake number =>
      unfold next at h
      dsimp only at h
      split at h
      · split at h
        · cases h
        · obtain rfl := Option.some.inj h
          exact List.Subset.refl _
      · cases h
  | expire number =>
      unfold next at h
      dsimp only at h
      split at h
      · split at h
        · obtain rfl := Option.some.inj h
          exact List.Subset.refl _
        · cases h
      · cases h
  | finish number =>
      unfold next at h
      dsimp only at h
      split at h
      · obtain rfl := Option.some.inj h
        exact List.subset_append_left _ _
      · cases h
  | dispatch client id token about =>
      unfold next at h
      dsimp only at h
      split at h
      · obtain rfl := Option.some.inj h
        unfold ioServiceDispatch
        split
        · cases token with
          | none => exact List.Subset.refl _
          | some token => exact List.Subset.refl _
        · exact List.Subset.refl _
      · cases h
  | driverOpen allocated =>
      obtain rfl := Option.some.inj h
      cases allocated with
      | false => exact List.Subset.refl _
      | true => exact List.Subset.refl _
  | driverClose client =>
      obtain rfl := Option.some.inj h
      unfold System.driverClose
      split
      · exact List.Subset.refl _
      · exact List.Subset.refl _

/-- A step by honest messages keeps the invariants of the module. -/
theorem keeps (htidy : s.Tidy) (hpatient : s.Patient) (hwaits : s.WaitsForAll)
    (h : s.next a = some t) (honest : s.Honest a) :
  t.Tidy ∧ t.Patient ∧ t.WaitsForAll
  := by
  have hsteps := next_steps h
  exact ⟨htidy.step hsteps, hpatient.step htidy hsteps honest,
    hwaits.step hpatient htidy hsteps honest⟩

end System

namespace Power

variable {codes : PowerCodes} {s t : Power} {chain : Notifier}

/-- A step of the module alone. -/
theorem Inv.kevent (h : s.Inv codes) {a : Kevent.Act} {kevent : System}
    (hnext : s.kevent.next a = some kevent) (honest : s.kevent.Honest a) :
  Inv codes { s with kevent }
  := by
  obtain ⟨htidy, hpatient, hwaits⟩ := System.keeps h.tidy h.patient h.waits hnext honest
  refine ⟨htidy, hpatient, hwaits, h.order, h.sends, fun m hm => ?_⟩
  obtain ⟨hsends, hchange, r, hr, hcall⟩ := h.told m hm
  exact ⟨hsends, hchange, r, System.returned_subset hnext hr, hcall⟩

/-- A notifier that calls `SendKevent`. -/
theorem Inv.notify (h : s.Inv codes) {powerEvent : Option (PowerEvent × Bool)}
    (hsync : ∀ e sync, powerEvent = some (e, sync) → (sync ↔ e.Sync))
    (hnext : s.notify codes chain powerEvent = some t) :
  t.Inv codes
  := by
  unfold Power.notify at hnext
  split at hnext
  · cases hnext
  · obtain rfl := Option.some.inj hnext
    exact h
  next e sync hidle =>
    obtain ⟨kevent, hkevent, rfl⟩ := Option.map_eq_some_iff.mp hnext
    obtain ⟨htidy, hpatient, hwaits, horder, hsends, htold⟩ := h.kevent hkevent trivial
    refine ⟨htidy, hpatient, hwaits, fun c => ?_, fun c n hn => ?_, htold⟩
    · dsimp only
      by_cases hc : c = chain
      · subst hc
        rw [Function.update_self, Function.update_self, h.order c, hidle]
        simp [toldOn]
      · rw [Function.update_of_ne hc, Function.update_of_ne hc]
        exact horder c
    · dsimp only at hn
      by_cases hc : c = chain
      · subst hc
        rw [Function.update_self] at hn
        obtain rfl := Option.some.inj hn
        exact ⟨rfl, rfl, rfl, hsync e sync rfl⟩
      · rw [Function.update_of_ne hc] at hn
        exact hsends c n hn

/-- A notifier that tells the drivers. -/
theorem Inv.spaceNotify (h : s.Inv codes) {manager : Bool}
    (hnext : s.spaceNotify codes chain manager = some t) :
  t.Inv codes
  := by
  unfold Power.spaceNotify at hnext
  split at hnext
  · cases hnext
  next n hn =>
    split at hnext
    · next hmem =>
      obtain rfl := Option.some.inj hnext
      refine ⟨h.tidy, h.patient, h.waits, fun c => ?_, fun c n' hn' => ?_, fun m hm => ?_⟩
      · have horder := h.order c
        dsimp only
        unfold toldOn at horder ⊢
        dsimp only
        rw [List.filter_append, List.map_append]
        by_cases hc : c = chain
        · subst hc
          rw [Function.update_self, horder, hn]
          simp
        · rw [Function.update_of_ne hc, horder]
          simp [Ne.symm hc]
      · dsimp only at hn'
        by_cases hc : c = chain
        · subst hc
          rw [Function.update_self] at hn'
          cases hn'
        · rw [Function.update_of_ne hc] at hn'
          exact h.sends c n' hn'
      · obtain hm | hm := List.mem_append.mp hm
        · exact h.told m hm
        · obtain rfl := List.mem_singleton.mp hm
          obtain ⟨r, hr, hcall⟩ := List.mem_map.mp hmem
          refine ⟨h.sends chain n hn, ?_, r, hr, hcall⟩
          dsimp only
          split
          · exact .inr (kernalSpacePmNotify_event codes n.powerEvent)
          · exact .inl rfl
    · cases hnext

/-- Each step keeps the invariant. -/
theorem Inv.next (h : s.Inv codes) {a : Act} (hnext : s.next codes a = some t)
    (honest : s.Honest a) :
  t.Inv codes
  := by
  cases a with
  | kevent a =>
      unfold Power.next at hnext
      dsimp only at hnext
      split at hnext
      · cases hnext
      · obtain ⟨kevent, hkevent, rfl⟩ := Option.map_eq_some_iff.mp hnext
        exact h.kevent hkevent honest
  | pmNotify action => exact h.notify (fun _ _ heq => sync_of_pm heq) hnext
  | fbNotify event blank => exact h.notify (fun _ _ heq => sync_of_fb heq) hnext
  | spaceNotify chain manager => exact h.spaceNotify hnext

theorem inv_init (codes : PowerCodes) :
  init.Inv codes
  := by
  have hpatient : systemNew.Patient := ⟨by decide, nofun, nofun, nofun⟩
  have hwaits : systemNew.WaitsForAll := ⟨nofun, nofun, nofun⟩
  exact ⟨System.tidy_systemNew, hpatient, hwaits, fun _ => rfl, nofun, nofun⟩

end Power

/-- In a run whose messages are honest, the drivers are told of the events of each chain in order,
each once, and of one that is to be acknowledged only after every client that was told has done so
or was closed, or the call has failed. -/
theorem drivers_follow (codes : PowerCodes) {acts : List Power.Act} {s : Power}
    (h : Run (Power.HonestStep codes) .init acts s) :
  (∀ chain, s.announced chain = (s.toldOn chain).map (fun m => m.powerEvent)
      ++ ((s.notifying chain).map Notifying.powerEvent).toList)
    ∧ ∀ m ∈ s.told, m.Follows codes s.kevent
  := by
  have hinv := h.keeps (Power.Inv codes) (fun s a t hs hstep => hs.next hstep.1 hstep.2)
    (Power.inv_init codes)
  refine ⟨hinv.order, fun m hm => ?_⟩
  obtain ⟨hsends, hchange, hreturned⟩ := hinv.told m hm
  refine ⟨hsends, hchange, hreturned, fun hsync r hr hcall => ?_⟩
  have hcallsync : r.call.sync := by
    rw [hcall]
    exact hsends.sync.mpr hsync
  cases hresult : r.result with
  | none => exact .inl (hinv.waits.success r hr hcallsync (.inl hresult))
  | some code =>
      by_cases hcode : code = Hdf.success
      · exact .inl (hinv.waits.success r hr hcallsync (.inr (hcode ▸ hresult)))
      · exact .inr ⟨code, hresult, hcode⟩

/-- The events in the order of their definition. -/
def orderedCodes : PowerCodes where
  classPower := 2
  event
    | .suspend => 0
    | .displayOff => 1
    | .resume => 2
    | .displayOn => 3
  injective a b h := by
    cases a <;> cases b <;> first | rfl | cases h

/-- The client acknowledges the suspension, and the drivers are told of it. -/
def suspendActs : List Power.Act :=
  [.kevent (.driverOpen true), .pmNotify pmSuspendPrepare, .kevent (.prepare 0 (.fine 4096)),
   .kevent (.deliver 0 fun _ => Hdf.success),
   .kevent (.dispatch 0 keventCompleteEvent (some 4096) 0), .kevent (.wake 0),
   .kevent (.finish 0), .spaceNotify .pm true]

theorem drivers_follow_suspend :
  ∃ s, Run (Power.HonestStep orderedCodes) .init suspendActs s
    ∧ s.told.map Told.change = [some .suspend] ∧ ∀ m ∈ s.told, m.Follows orderedCodes s.kevent
  := by
  have hrun : ∃ s, Run (Power.HonestStep orderedCodes) .init suspendActs s
      ∧ s.told.map Told.change = [some .suspend] := by
    refine ⟨_, .cons ⟨rfl, ?_⟩ (.cons ⟨rfl, trivial⟩ (.cons ⟨rfl, trivial⟩ (.cons ⟨rfl, trivial⟩
      (.cons ⟨rfl, ?_⟩ (.cons ⟨rfl, trivial⟩ (.cons ⟨rfl, trivial⟩ (.cons ⟨rfl, trivial⟩
        (.nil _)))))))), rfl⟩
    · exact (by decide : 0 + 1 < 2 ^ 31)
    · intro _ w hw _
      obtain rfl := List.mem_singleton.mp hw
      exact ⟨rfl, by decide⟩
  obtain ⟨s, hrun, htold⟩ := hrun
  exact ⟨s, hrun, htold, (drivers_follow orderedCodes hrun).2⟩

end Kevent
