import KhdfLinux.Lib.Exec
import KhdfLinux.Lib.Run
import KhdfLinux.Lib.Slots
import KhdfLinux.Usb.Uapi
import Mathlib.Data.Fintype.Card

/-!
# The event queue

`ffsEventAdd` queues an event for user space and `ffsEp0ReadEvents` hands the oldest events
over.  The queue has four slots, and nothing checks that an event finds one free: an
arrival first purges the events it supersedes.  The events fall into four classes, and
every arrival purges at least the events of its own class, so that the events in the queue
are of different classes.
-/

namespace Ffs

open Exec Slots

/-! ### The queue of the driver -/

/-- `enum usb_functionfs_event_type`. -/
inductive EventType where
  | bind
  | unbind
  | enable
  | disable
  | setup
  | suspend
  | resume
  deriving DecidableEq, Repr

/-- `enum ffs_setup_state`. -/
inductive SetupState where
  | noSetup
  | pending
  | cancelled
  deriving DecidableEq, Repr

/-- `struct usb_ctrlrequest`. -/
structure UsbCtrlrequest where
  bRequestType : UInt8
  bRequest : UInt8
  wValue : UInt16
  wIndex : UInt16
  wLength : UInt16
  deriving DecidableEq, Repr

/-- The number of slots of `ev.types`. -/
abbrev evSlots : Nat := 4

/-- The events of an `ffs_data`: the `setup_state` and the fields of `ev`. -/
structure FfsEv where
  setupState : SetupState
  types : Vector EventType evSlots
  count : Nat
  canStall : Bool
  setup : UsbCtrlrequest
  deriving DecidableEq, Repr

/-- `struct usb_functionfs_event`. -/
structure UsbFunctionfsEvent where
  setup : UsbCtrlrequest
  type : EventType
  deriving DecidableEq, Repr

/-- `sizeof(struct usb_functionfs_event)`. -/
def usbFunctionfsEventSize : Nat := 12

/-- `rem_type1`, `rem_type2` and `neg` for an arriving event. -/
def EventType.remTypes : EventType → EventType × EventType × Bool
  | .resume => (.resume, .suspend, false)
  | .suspend => (.suspend, .suspend, false)
  | .setup => (.setup, .setup, false)
  | .bind | .unbind | .disable | .enable => (.suspend, .resume, true)

/-- The test of an event `e` in the queue when `type` arrives: is it kept? -/
def EventType.keeps (type e : EventType) : Bool :=
  decide (e = type.remTypes.1 ∨ e = type.remTypes.2.1) == type.remTypes.2.2

/-- The setup state after an event arrives: a setup that is not handled is aborted. -/
def SetupState.abort : SetupState → SetupState
  | .pending => .cancelled
  | state => state

/-- `__ffs_event_add`. -/
def ffsEventAdd (type : EventType) : Exec FfsEv Unit := do
  modify fun ev => { ev with setupState := ev.setupState.abort }
  let ev ← get
  match compact type.keeps ev.count 0 0 ev.types with
  | none => stop (.fault .outOfBounds)
  | some (types, out) =>
      match put types out type with
      | none => stop (.fault .outOfBounds)
      | some types => set { ev with types := types, count := out + 1 }

/-- The event in slot `i`, for user space; a setup request that is handed over is
pending. -/
def fetchEvent (i : Nat) : Exec FfsEv UsbFunctionfsEvent := do
  let ev ← get
  match ev.types[i]? with
  | none => stop (.fault .outOfBounds)
  | some .setup => do
      set { ev with setupState := .pending }
      pure ⟨ev.setup, .setup⟩
  | some type => pure ⟨⟨0, 0, 0, 0, 0⟩, type⟩

/-- The events in the `n` slots from slot `i` on. -/
def fetchEvents : (n i : Nat) → Exec FfsEv (List UsbFunctionfsEvent)
  | 0, _ => pure []
  | n + 1, i => do
      let event ← fetchEvent i
      let events ← fetchEvents n (i + 1)
      pure (event :: events)

/-- `__ffs_ep0_read_events`: hand the `n` oldest events over.  `copied` tells if the copy to
user space succeeds.  The result is the buffer that is copied and the return value. -/
def ffsEp0ReadEvents (n : Nat) (copied : Bool) : Exec FfsEv (List UsbFunctionfsEvent × Int) := do
  if n = 0 then
    -- `memset_s` with a destination of no bytes
    stop (.ret erange)
  else if evSlots < n then
    stop (.fault .outOfBounds)
  else
    let events ← fetchEvents n 0
    let ev ← get
    let count := ev.count - n
    match if count = 0 then some ev.types else moveDown ev.types n count with
    | none => stop (.fault .outOfBounds)
    | some types => do
        set { ev with types := types, count := count }
        pure (events, if copied then (n * usbFunctionfsEventSize : Nat) else -efault)

/-- The events in the queue, the oldest first. -/
def FfsEv.queue (ev : FfsEv) : List EventType := used ev.types ev.count

/-! ### Classes of events -/

/-- The classes of events: an arrival supersedes the queued event of its own class. -/
inductive EventClass where
  | lifecycle
  | setup
  | suspend
  | resume
  deriving DecidableEq, Repr

instance : Fintype EventClass where
  elems := {.lifecycle, .setup, .suspend, .resume}
  complete := by
    intro c
    cases c <;> decide

/-- The class of an event. -/
def EventType.toClass : EventType → EventClass
  | .bind | .unbind | .enable | .disable => .lifecycle
  | .setup => .setup
  | .suspend => .suspend
  | .resume => .resume

/-- The events of a queue are of different classes. -/
def Distinct (q : List EventType) : Prop := (q.map EventType.toClass).Nodup

/-- The queue after `type` arrives. -/
def arrive (type : EventType) (q : List EventType) : List EventType := q.filter type.keeps ++ [type]

theorem toClass_ne_of_keeps {type e : EventType} (h : type.keeps e = true) :
  e.toClass ≠ type.toClass
  := by
  cases type <;> cases e <;> revert h <;> decide

theorem keeps_of_lifecycle {type e : EventType} (h : type.toClass = .lifecycle) :
  type.keeps e = decide (e = .suspend ∨ e = .resume)
  := by
  cases type <;> cases e <;> revert h <;> decide

theorem Distinct.filter {q : List EventType} (h : Distinct q) (p : EventType → Bool) :
  Distinct (q.filter p)
  := List.Nodup.sublist (List.filter_sublist.map _) h

theorem Distinct.drop {q : List EventType} (h : Distinct q) (n : Nat) :
  Distinct (q.drop n)
  := List.Nodup.sublist ((List.drop_sublist n q).map _) h

/-- An arrival keeps the classes different. -/
theorem Distinct.arrive {q : List EventType} (h : Distinct q) (type : EventType) :
  Distinct (arrive type q)
  := by
  unfold Distinct Ffs.arrive
  rw [List.map_append, List.map_singleton]
  apply (h.filter type.keeps).append (List.nodup_singleton _)
  rw [List.disjoint_singleton]
  intro hmem
  obtain ⟨e, he, hclass⟩ := List.mem_map.mp hmem
  apply toClass_ne_of_keeps (List.mem_filter.mp he).2 hclass

theorem Distinct.length_le {q : List EventType} (h : Distinct q) :
  q.length ≤ evSlots
  := by
  have hcard := List.Nodup.length_le_card h
  rwa [List.length_map] at hcard

/-- There is room for an arrival. -/
theorem Distinct.length_filter_lt {q : List EventType} (h : Distinct q) (type : EventType) :
  (q.filter type.keeps).length < evSlots
  := by
  have hle := (h.arrive type).length_le
  rw [Ffs.arrive, List.length_append, List.length_singleton] at hle
  omega

/-- A queue of events of different classes holds at most one event of each class. -/
theorem Distinct.countP_le {q : List EventType} (h : Distinct q) (c : EventClass) :
  q.countP (fun e => e.toClass = c) ≤ 1
  := by
  have hcount := List.nodup_iff_count_le_one.mp h c
  rw [List.count, List.countP_map] at hcount
  apply le_trans (List.countP_mono_left _) hcount
  intro e _ he
  simpa using he

/-! ### The invariant -/

/-- What holds of the events in every run: the slots hold the queue, and its events are of
different classes. -/
structure FfsEv.Valid (ev : FfsEv) : Prop where
  count_le : ev.count ≤ evSlots
  distinct : Distinct ev.queue

theorem FfsEv.Valid.length_queue {ev : FfsEv} (h : ev.Valid) :
  ev.queue.length = ev.count
  := by
  simp [queue, used, h.count_le]

theorem FfsEv.valid_of_empty {ev : FfsEv} (h : ev.count = 0) :
  ev.Valid
  := by
  constructor
  · omega
  · simp [Distinct, queue, used, h]

/-- An event is queued behind the events it does not supersede. -/
theorem ffsEventAdd_spec {ev : FfsEv} (h : ev.Valid) (type : EventType) :
  ∃ ev', (ffsEventAdd type).run ev = .ok () ev' ∧ ev'.queue = arrive type ev.queue
    ∧ ev'.count = (ev.queue.filter type.keeps).length + 1
    ∧ ev'.setupState = ev.setupState.abort ∧ ev'.setup = ev.setup ∧ ev'.canStall = ev.canStall
  := by
  obtain ⟨types, htypes, hused⟩ := compact_used type.keeps ev.types h.count_le
  obtain ⟨types', htypes'⟩ := put_isSome types type
    (show ((used ev.types ev.count).filter type.keeps).length < evSlots from
      h.distinct.length_filter_lt type)
  have hrun : (ffsEventAdd type).run ev = .ok () { ev with
      setupState := ev.setupState.abort
      types := types'
      count := (ev.queue.filter type.keeps).length + 1 } := by
    unfold ffsEventAdd
    rw [EStateM.run_bind, EStateM.run_modify]
    dsimp only
    rw [EStateM.run_bind, EStateM.run_get]
    simp only [htypes, htypes']
    rfl
  refine ⟨_, hrun, ?_, rfl, rfl, rfl, rfl⟩
  change used types' (((used ev.types ev.count).filter type.keeps).length + 1) = _
  rw [used_put htypes', hused]
  rfl

theorem FfsEv.Valid.add {ev ev' : FfsEv} {type : EventType} (h : ev.Valid)
    (hrun : (ffsEventAdd type).run ev = .ok () ev') :
  ev'.Valid
  := by
  obtain ⟨ev₁, hrun₁, hqueue, hcount, -⟩ := ffsEventAdd_spec h type
  rw [hrun] at hrun₁
  cases hrun₁
  constructor
  · rw [hcount]
    apply h.distinct.length_filter_lt type
  · rw [hqueue]
    apply h.distinct.arrive type

/-- The event in slot `i` for user space. -/
def FfsEv.event (ev : FfsEv) (type : EventType) : UsbFunctionfsEvent :=
  if type = .setup then ⟨ev.setup, .setup⟩ else ⟨⟨0, 0, 0, 0, 0⟩, type⟩

/-- The setup state after events are handed over. -/
def SetupState.handOver (events : List EventType) (state : SetupState) : SetupState :=
  if .setup ∈ events then .pending else state

theorem handOver_cons (type : EventType) (events : List EventType) (state : SetupState) :
  state.handOver (type :: events) = (state.handOver [type]).handOver events
  := by
  unfold SetupState.handOver
  by_cases h : EventType.setup ∈ events
  · simp [h]
  · simp [h]

theorem fetchEvent_run {ev : FfsEv} {i : Nat} {type : EventType} (h : ev.types[i]? = some type) :
  (fetchEvent i).run ev
    = .ok (ev.event type) { ev with setupState := ev.setupState.handOver [type] }
  := by
  unfold fetchEvent FfsEv.event SetupState.handOver
  rw [EStateM.run_bind, EStateM.run_get]
  dsimp only
  rw [h]
  cases type <;> rfl

/-- The events of `n` slots are fetched in order. -/
theorem fetchEvents_run {ev : FfsEv} {n i : Nat} (h : i + n ≤ evSlots) :
  (fetchEvents n i).run ev
    = .ok (((ev.types.toList.drop i).take n).map ev.event)
        { ev with setupState := ev.setupState.handOver ((ev.types.toList.drop i).take n) }
  := by
  induction n generalizing ev i with
  | zero => simp [fetchEvents, SetupState.handOver]
  | succ n ih =>
      have hi : i < ev.types.toList.length := by
        simp
        omega
      have hget : ev.types[i]? = some ev.types.toList[i] := by
        rw [← Vector.getElem?_toList, List.getElem?_eq_getElem hi]
      rw [fetchEvents, EStateM.run_bind, fetchEvent_run hget]
      dsimp only
      rw [EStateM.run_bind, ih (by omega)]
      rw [List.drop_eq_getElem_cons hi, List.take_succ_cons, List.map_cons,
        handOver_cons _ ((ev.types.toList.drop (i + 1)).take n)]
      rfl

/-- A read of `n` events hands the `n` oldest over, in order, and leaves the others. -/
theorem ffsEp0ReadEvents_spec
    {ev : FfsEv} (h : ev.Valid) {n : Nat} (hn : 1 ≤ n) (hcount : n ≤ ev.count) (copied : Bool) :
  ∃ ev', (ffsEp0ReadEvents n copied).run ev
      = .ok ((ev.queue.take n).map ev.event,
          if copied then (n * usbFunctionfsEventSize : Nat) else -efault) ev'
    ∧ ev'.queue = ev.queue.drop n ∧ ev'.count = ev.count - n
    ∧ ev'.setupState = ev.setupState.handOver (ev.queue.take n)
    ∧ ev'.setup = ev.setup ∧ ev'.canStall = ev.canStall
  := by
  have hslots := h.count_le
  obtain ⟨types, htypes, hused⟩ : ∃ types,
      (if ev.count - n = 0 then some ev.types else moveDown ev.types n (ev.count - n)) = some types
        ∧ used types (ev.count - n) = ev.queue.drop n := by
    by_cases h0 : ev.count - n = 0
    · refine ⟨ev.types, if_pos h0, ?_⟩
      rw [h0, show used ev.types 0 = [] from List.take_zero, eq_comm, List.drop_eq_nil_iff,
        h.length_queue]
      omega
    · obtain ⟨types, htypes, hused⟩ :=
        used_moveDown ev.types (k := n) (n := ev.count - n) (by omega)
      refine ⟨types, by rw [if_neg h0, htypes], ?_⟩
      rw [hused, FfsEv.queue, show n + (ev.count - n) = ev.count by omega]
  have htake : (ev.types.toList.drop 0).take n = ev.queue.take n := by
    rw [FfsEv.queue, used, List.drop_zero, List.take_take, Nat.min_eq_left hcount]
  have hrun : (ffsEp0ReadEvents n copied).run ev
      = .ok ((ev.queue.take n).map ev.event,
          if copied then (n * usbFunctionfsEventSize : Nat) else -efault) { ev with
        setupState := ev.setupState.handOver (ev.queue.take n)
        types := types
        count := ev.count - n } := by
    unfold ffsEp0ReadEvents
    rw [if_neg (by omega), if_neg (by omega), EStateM.run_bind, fetchEvents_run (by omega), htake]
    dsimp only
    rw [EStateM.run_bind, EStateM.run_get]
    simp only [htypes]
    rfl
  exact ⟨_, hrun, hused, rfl, rfl, rfl, rfl⟩

/-! ### Runs -/

/-- What happens to the queue: an event arrives, or `n` events are read. -/
inductive EvAction where
  | add (type : EventType)
  | read (n : Nat) (copied : Bool)
  deriving DecidableEq, Repr

/-- A step of the queue.  A read asks for one event at least, and for no more events than
there are. -/
def EvStep (ev : FfsEv) : EvAction → FfsEv → Prop
  | .add type, ev' => (ffsEventAdd type).run ev = .ok () ev'
  | .read n copied, ev' =>
      1 ≤ n ∧ n ≤ ev.count ∧ ∃ r, (ffsEp0ReadEvents n copied).run ev = .ok r ev'

theorem FfsEv.Valid.step {ev ev' : FfsEv} {a : EvAction} (h : ev.Valid) (hstep : EvStep ev a ev') :
  ev'.Valid
  := by
  cases a with
  | add type => apply h.add hstep
  | read n copied =>
      obtain ⟨hn, hcount, r, hrun⟩ := hstep
      obtain ⟨ev₁, hrun₁, hqueue, hcount', -⟩ := ffsEp0ReadEvents_spec h hn hcount copied
      rw [hrun] at hrun₁
      cases hrun₁
      have hslots := h.count_le
      constructor
      · omega
      · rw [hqueue]
        apply h.distinct.drop n

theorem valid_of_run
    {ev₀ ev : FfsEv} {as : List EvAction} (h : Run EvStep ev₀ as ev) (hempty : ev₀.count = 0) :
  ev.Valid
  := h.keeps _ (fun _ _ _ hv hstep => hv.step hstep) (FfsEv.valid_of_empty hempty)

/-- The bounds of a queue: its length, and at most one event of each kind. -/
structure FfsEv.Bounded (ev : FfsEv) : Prop where
  count_le : ev.count ≤ evSlots
  lifecycle : ev.queue.countP
    (fun e => e = .bind ∨ e = .unbind ∨ e = .enable ∨ e = .disable) ≤ 1
  setup : ev.queue.count .setup ≤ 1
  suspend : ev.queue.count .suspend ≤ 1
  resume : ev.queue.count .resume ≤ 1

theorem FfsEv.Valid.bounded {ev : FfsEv} (h : ev.Valid) :
  ev.Bounded
  := by
  have hclass : ∀ (p : EventType → Bool) (c : EventClass),
      (∀ e, p e = true → e.toClass = c) → ev.queue.countP p ≤ 1 := by
    intro p c hp
    apply le_trans (List.countP_mono_left _) (h.distinct.countP_le c)
    intro e _ he
    simpa using hp e he
  constructor
  · apply h.count_le
  · apply hclass _ .lifecycle
    intro e
    cases e <;> decide
  · apply hclass _ .setup
    intro e
    cases e <;> decide
  · apply hclass _ .suspend
    intro e
    cases e <;> decide
  · apply hclass _ .resume
    intro e
    cases e <;> decide

/-- In every run from an empty queue the bounds hold, and every event that arrives and
every read succeeds: a resume event leaves no suspend event, a lifecycle event only the
suspend and resume events before it, in their order, and a read takes the oldest events. -/
theorem event_queue_invariant
    {ev₀ ev : FfsEv} {as : List EvAction} (h : Run EvStep ev₀ as ev) (hempty : ev₀.count = 0) :
  ev.Bounded
    ∧ (∀ type, ∃ ev', (ffsEventAdd type).run ev = .ok () ev'
      ∧ ev'.Bounded
      ∧ (type = .resume → .suspend ∉ ev'.queue)
      ∧ (type.toClass = .lifecycle →
        ev'.queue = ev.queue.filter (fun e => e = .suspend ∨ e = .resume) ++ [type]))
    ∧ ∀ n copied, 1 ≤ n → n ≤ ev.count → ∃ events ret ev',
      (ffsEp0ReadEvents n copied).run ev = .ok (events, ret) ev'
        ∧ ev'.Bounded
        ∧ events.map UsbFunctionfsEvent.type = ev.queue.take n
        ∧ ev'.queue = ev.queue.drop n
        ∧ (copied = true → ret = (n * usbFunctionfsEventSize : Nat))
  := by
  have hvalid := valid_of_run h hempty
  refine ⟨hvalid.bounded, ?_, ?_⟩
  · intro type
    obtain ⟨ev', hrun, hqueue, -⟩ := ffsEventAdd_spec hvalid type
    refine ⟨ev', hrun, (hvalid.add hrun).bounded, ?_, ?_⟩
    · rintro rfl
      simp [hqueue, arrive, EventType.keeps, EventType.remTypes]
    · intro hclass
      rw [hqueue, arrive]
      congr 2
      funext e
      apply keeps_of_lifecycle hclass
  · intro n copied hn hcount
    obtain ⟨ev', hrun, hqueue, -⟩ := ffsEp0ReadEvents_spec hvalid hn hcount copied
    have hstep : EvStep ev (.read n copied) ev' := ⟨hn, hcount, _, hrun⟩
    refine ⟨_, _, ev', hrun, (hvalid.step hstep).bounded, ?_, hqueue, ?_⟩
    · rw [List.map_map]
      conv_rhs => rw [← List.map_id (ev.queue.take n)]
      apply List.map_congr_left
      intro e _
      cases e <;> rfl
    · intro hcopied
      rw [if_pos hcopied]

/-- The events of a new `ffs_data`. -/
def ffsEvNew : FfsEv where
  setupState := .noSetup
  types := Vector.replicate evSlots .bind
  count := 0
  canStall := true
  setup := ⟨0, 0, 0, 0, 0⟩

/-- The queue after a function is bound and enabled, and the host suspends it. -/
theorem event_queue_invariant_suspended :
  ∃ ev, Run EvStep ffsEvNew [.add .bind, .add .enable, .add .suspend, .read 1 true] ev
    ∧ ev.Bounded ∧ ev.queue = [.suspend]
  := by
  have h₁ : EvStep ffsEvNew (.add .bind) { ffsEvNew with
      types := #v[.bind, .bind, .bind, .bind], count := 1 } := rfl
  have h₂ : EvStep { ffsEvNew with types := #v[.bind, .bind, .bind, .bind], count := 1 }
      (.add .enable) { ffsEvNew with types := #v[.enable, .bind, .bind, .bind], count := 1 } := rfl
  have h₃ : EvStep { ffsEvNew with types := #v[.enable, .bind, .bind, .bind], count := 1 }
      (.add .suspend) { ffsEvNew with
        types := #v[.enable, .suspend, .bind, .bind], count := 2 } := rfl
  have h₄ : EvStep { ffsEvNew with types := #v[.enable, .suspend, .bind, .bind], count := 2 }
      (.read 1 true) { ffsEvNew with
        types := #v[.suspend, .suspend, .bind, .bind], count := 1 } :=
    ⟨by decide, by decide, _, rfl⟩
  have hrun := Run.cons h₁ (.cons h₂ (.cons h₃ (.cons h₄ (.nil _))))
  exact ⟨_, hrun, (event_queue_invariant hrun rfl).1, rfl⟩

end Ffs
