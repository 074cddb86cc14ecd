import KhdfLinux.Hdf.Base
import KhdfLinux.Lib.Run
import KhdfLinux.Lib.Table
import Mathlib.Data.List.Count

/-!
# Works of the OSAL

A work is a handle to a wrapper with a function and its parameter.  It is put on the queue, at once
or when its timer expires, and the thread of the queue takes the wrappers from it one by one and
calls their functions; a work that is pending already is not put there again.  `works_sound_iff`:
nothing is used after it is freed, each work that was accepted is called exactly once, in the order
of the queue and with the parameter of its own handle, or was cancelled, exactly as long as a work
is initialised in an empty handle, delayed only if it was initialised for it, and destroyed only
when it is not pending, taken or being cancelled, and the queue is destroyed once, with no timer
running, and not used after it.
-/

namespace Osal.Work

/-! ### Works and their queue -/

/-- A function and its parameter. -/
structure Call where
  workFunc : Nat
  para : Nat
  deriving DecidableEq, Repr

/-- `struct WorkWrapper`, with whether its work has a timer. -/
structure WorkWrapper where
  call : Call
  delayed : Bool
  deriving DecidableEq, Repr

/-- What the kernel keeps in the work: it is pending while its timer runs, on the queue, and while
a call that cancels it waits for its function. -/
inductive Status where
  | idle
  | armed
  | queued
  | cancelling (removed : Bool)
  deriving DecidableEq, Repr

/-- How often a work with this status is still to be taken. -/
def Status.waits : Status → Nat
  | .armed | .queued => 1
  | .idle | .cancelling _ => 0

/-- The works, and those on the queue; the work that the thread of the queue has taken, with whether
it is in its function already; whether the queue was not destroyed; and what was accepted, put on
the queue, called and cancelled up to now. -/
structure Works where
  table : Table WorkWrapper WorkWrapper
  status : Nat → Status
  queue : List Nat
  current : Option (Nat × Bool)
  alive : Bool
  accepted : List Nat
  puts : List Nat
  called : List (Nat × Call)
  cancelled : List Nat

/-- What happens: a call on a handle, or on the queue, a timer, or a step of the thread. -/
inductive Act where
  | init (h : Nat) (func : Option Nat) (para : Nat) (memory : Bool)
  | initDelayed (h : Nat) (func : Option Nat) (para : Nat) (memory : Bool)
  | destroy (h : Nat)
  | add (h : Nat)
  | addDelayed (h : Nat) (ms : Nat)
  | busy (h : Nat)
  /-- `HdfCancelWorkSync` up to the waiting. -/
  | cancel (h : Nat)
  | cancelDelayed (h : Nat)
  /-- A call that cancels the work returns. -/
  | cancelled (w : Nat)
  /-- The timer of the work expires. -/
  | expire (w : Nat)
  /-- The thread takes the first work of the queue. -/
  | take
  /-- `WorkEntry`, up to the call of the function. -/
  | enter
  /-- The function of the work returns. -/
  | leave
  /-- `HdfWorkQueueDestroy`, once nothing is left to do. -/
  | destroyQueue
  deriving DecidableEq, Repr

namespace Works

/-- A new queue, and no work. -/
def start : Works := ⟨.empty, fun _ => .idle, [], none, true, [], [], [], []⟩

variable (s : Works)

/-- A work is initialised. -/
def initWork (delayed : Bool) (h : Nat) (func : Option Nat) (para : Nat) (memory : Bool) :
    Int × Works :=
  match func with
  | none => (Hdf.errInvalidParam, s)
  | some workFunc =>
      if memory then
        (Hdf.success, { s with table := s.table.alloc id h ⟨⟨workFunc, para⟩, delayed⟩ })
      else (Hdf.errMallocFail,
        { s with table := { s.table with handles := Function.update s.table.handles h none } })

/-- `HdfWorkInit`. -/
def hdfWorkInit := s.initWork false

/-- `HdfDelayedWorkInit`. -/
def hdfDelayedWorkInit := s.initWork true

/-- `HdfWorkDestroy`. -/
def hdfWorkDestroy (h : Nat) : Works :=
  match s.table.handles h with
  | none => s
  | some w => { s with table := s.table.free h w }

/-- The status of a work. -/
def setStatus (w : Nat) (status : Status) : Works :=
  { s with status := Function.update s.status w status }

/-- A work is put on the queue. -/
def put (w : Nat) : Works :=
  { s.setStatus w .queued with queue := s.queue ++ [w], puts := s.puts ++ [w] }

/-- A work is accepted. -/
def accept (w : Nat) : Works := { s with accepted := s.accepted ++ [w] }

/-- `HdfAddWork`. -/
def hdfAddWork (h : Nat) : Bool × Works :=
  match s.table.handles h with
  | none => (false, s)
  | some w => if s.status w = .idle then (true, (s.accept w).put w) else (false, s)

/-- `HdfAddDelayedWork`; the kernel needs no timer for a work without a delay. -/
def hdfAddDelayedWork (h ms : Nat) : Bool × Works :=
  match s.table.handles h with
  | none => (false, s)
  | some w =>
      if s.status w = .idle then
        (true, if ms = 0 then (s.accept w).put w else (s.accept w).setStatus w .armed)
      else (false, s)

/-- `HdfWorkBusy`: bits for a work that is pending, and for one that is running. -/
def hdfWorkBusy (h : Nat) : Nat :=
  match s.table.handles h with
  | none => 0
  | some w =>
      (if s.status w ≠ .idle then 1 else 0) + if s.current.map Prod.fst = some w then 2 else 0

/-- A work is cancelled: where it is pending it is taken back, but for one whose timer runs only
if the call is for works with a timer. -/
def cancelWork (delayed : Bool) (h : Nat) : Works :=
  match s.table.handles h with
  | none => s
  | some w =>
      match s.status w with
      | .idle => s.setStatus w (.cancelling false)
      | .armed =>
          if delayed then
            { s.setStatus w (.cancelling true) with cancelled := s.cancelled ++ [w] }
          else s
      | .queued =>
          { s.setStatus w (.cancelling true) with
            queue := s.queue.erase w
            cancelled := s.cancelled ++ [w] }
      | .cancelling _ => s

/-- `HdfCancelWorkSync` up to the waiting. -/
def hdfCancelWorkSync := s.cancelWork false

/-- `HdfCancelDelayedWorkSync` up to the waiting. -/
def hdfCancelDelayedWorkSync := s.cancelWork true

/-- The state after what happens; what is not possible changes nothing. -/
def next : Act → Works
  | .init h func para memory => (s.hdfWorkInit h func para memory).2
  | .initDelayed h func para memory => (s.hdfDelayedWorkInit h func para memory).2
  | .destroy h => s.hdfWorkDestroy h
  | .add h => (s.hdfAddWork h).2
  | .addDelayed h ms => (s.hdfAddDelayedWork h ms).2
  | .busy _ => s
  | .cancel h => s.hdfCancelWorkSync h
  | .cancelDelayed h => s.hdfCancelDelayedWorkSync h
  | .cancelled w =>
      match s.status w with
      | .cancelling _ => if s.current.map Prod.fst = some w then s else s.setStatus w .idle
      | _ => s
  | .expire w => if s.status w = .armed then s.put w else s
  | .take =>
      match s.queue, s.current with
      | w :: queue, none => { s.setStatus w .idle with queue, current := some (w, false) }
      | _, _ => s
  | .enter =>
      match s.current with
      | some (w, false) =>
          match s.table.objects w with
          | some wrapper =>
              { s with current := some (w, true), called := s.called ++ [(w, wrapper.call)] }
          | none => s
      | _ => s
  | .leave =>
      match s.current with
      | some (_, true) => { s with current := none }
      | _ => s
  | .destroyQueue => if s.queue = [] ∧ s.current = none then { s with alive := false } else s

/-! ### Soundness -/

/-- The work of a handle was freed. -/
def Dangles (h : Nat) : Prop := ∃ w, s.table.handles h = some w ∧ s.table.objects w = none

/-- A work is accepted that is idle, where the queue is gone or the work has no timer. -/
def Misused (h ms : Nat) : Prop :=
  ∃ w, s.table.handles h = some w ∧ s.status w = .idle
    ∧ (s.alive = false ∨ (ms ≠ 0 ∧ ∃ wrapper ∈ s.table.objects w, wrapper.delayed = false))

/-- What happens uses what is freed, or a timer that was not initialised. -/
def Faults : Act → Prop
  | .init .. | .initDelayed .. | .leave => False
  | .destroy h | .busy h | .cancel h | .cancelDelayed h => s.Dangles h
  | .add h => s.Dangles h ∨ s.Misused h 0
  | .addDelayed h ms => s.Dangles h ∨ s.Misused h ms
  | .cancelled w => (∃ removed, s.status w = .cancelling removed) ∧ s.table.objects w = none
  | .expire w => s.status w = .armed ∧ (s.alive = false ∨ s.table.objects w = none)
  | .take => ∃ w ∈ s.queue.head?, s.current = none ∧ s.table.objects w = none
  | .enter => ∃ w, s.current = some (w, false) ∧ s.table.objects w = none
  | .destroyQueue => s.alive = false

/-- The work that is taken and not called yet. -/
def taken : List Nat :=
  match s.current with
  | some (w, false) => [w]
  | _ => []

/-- What is pending or taken is there; each work that was accepted waits, is taken, was called or
was cancelled, and those that were called and wait were put on the queue in this order. -/
structure Sound : Prop where
  table : s.table.Sound id
  pending : ∀ w, s.status w ≠ .idle → s.table.objects w ≠ none
  taken : ∀ w ∈ s.taken, s.table.objects w ≠ none
  timers : ∀ w, s.status w = .armed → ∃ wrapper ∈ s.table.objects w, wrapper.delayed = true
  alive : s.alive = false → s.queue = [] ∧ ∀ w, s.status w ≠ .armed
  queue : ∀ w, w ∈ s.queue ↔ s.status w = .queued
  nodup : s.queue.Nodup
  calls : ∀ entry ∈ s.called, ∃ wrapper, s.table.made[entry.1]? = some wrapper
    ∧ wrapper.call = entry.2
  count : ∀ w, s.accepted.count w = (s.called.map Prod.fst).count w + s.cancelled.count w
    + s.taken.count w + (s.status w).waits
  order : (s.called.map Prod.fst ++ s.taken ++ s.queue).Sublist s.puts

/-- The discipline of the callers. -/
def Disciplined : Act → Prop
  | .init h func _ _ | .initDelayed h func _ _ => func ≠ none → s.table.handles h = none
  | .destroy h => ∀ w, s.table.handles h = some w → s.status w = .idle ∧ w ∉ s.taken
  | .add h => ∀ w, s.table.handles h = some w → s.status w = .idle → s.alive = true
  | .addDelayed h ms => ∀ w, s.table.handles h = some w → s.status w = .idle →
      s.alive = true ∧ (ms ≠ 0 → ∀ wrapper ∈ s.table.objects w, wrapper.delayed = true)
  | .destroyQueue => s.alive = true
      ∧ (s.queue = [] → s.current = none → ∀ w, s.status w ≠ .armed)
  | _ => True

variable {s : Works} {h w v : Nat}

theorem sound_start :
  start.Sound
  where
  table := Table.sound_empty
  pending _ hne := absurd rfl hne
  taken _ hw := nomatch hw
  timers _ hw := nomatch hw
  alive hdead := nomatch hdead
  queue _ := ⟨nofun, nofun⟩
  nodup := .nil
  calls _ hentry := nomatch hentry
  count _ := rfl
  order := .slnil

/-- What is sound is not used after it is freed, but for what is misused. -/
theorem Sound.faults_iff (hs : s.Sound) (a : Act) :
  s.Faults a ↔
    match a with
    | .add h => s.Misused h 0
    | .addDelayed h ms => s.Misused h ms
    | .destroyQueue => s.alive = false
    | _ => False
  := by
  have hdangles (h : Nat) : ¬s.Dangles h := fun ⟨w, hw, hnone⟩ => hs.table.held h w hw hnone
  cases a with
  | init | initDelayed | leave | destroyQueue => exact Iff.rfl
  | destroy h | busy h | cancel h | cancelDelayed h => exact iff_false_intro (hdangles h)
  | add h => exact or_iff_right (hdangles h)
  | addDelayed h ms => exact or_iff_right (hdangles h)
  | cancelled w =>
      refine iff_false_intro ?_
      rintro ⟨⟨removed, hstatus⟩, hnone⟩
      exact hs.pending w (by rw [hstatus]; nofun) hnone
  | expire w =>
      refine iff_false_intro ?_
      rintro ⟨harmed, hdead | hnone⟩
      · exact (hs.alive hdead).2 w harmed
      · exact hs.pending w (by rw [harmed]; nofun) hnone
  | take =>
      refine iff_false_intro ?_
      rintro ⟨w, hw, -, hnone⟩
      refine hs.pending w ?_ hnone
      rw [(hs.queue w).mp (List.mem_of_mem_head? hw)]
      nofun
  | enter =>
      refine iff_false_intro ?_
      rintro ⟨w, hw, hnone⟩
      refine hs.taken w ?_ hnone
      unfold Works.taken
      rw [hw]
      exact List.mem_singleton_self w

/-! ### Handles -/

/-- The table changes, and keeps what is pending or taken. -/
theorem Sound.withTable {table : Table WorkWrapper WorkWrapper} (hs : s.Sound)
    (htable : table.Sound id)
    (hlive : ∀ w, s.status w ≠ .idle ∨ w ∈ s.taken → table.objects w = s.table.objects w)
    (hmade : ∀ (w : Nat) wrapper, s.table.made[w]? = some wrapper → table.made[w]? = some wrapper) :
  Sound { s with table }
  where
  table := htable
  pending w hw := by
    rw [hlive w (.inl hw)]
    exact hs.pending w hw
  taken w hw := by
    rw [hlive w (.inr hw)]
    exact hs.taken w hw
  timers w hw := by
    have hne : s.status w ≠ .idle := by
      change s.status w = _ at hw
      rw [hw]
      nofun
    rw [hlive w (.inl hne)]
    exact hs.timers w hw
  alive := hs.alive
  queue := hs.queue
  nodup := hs.nodup
  calls entry hentry := by
    obtain ⟨wrapper, hwrapper, hcall⟩ := hs.calls entry hentry
    exact ⟨wrapper, hmade _ _ hwrapper, hcall⟩
  count := hs.count
  order := hs.order

/-- What is pending or taken is there. -/
theorem Sound.live (hs : s.Sound) (hw : s.status w ≠ .idle ∨ w ∈ s.taken) :
  s.table.objects w ≠ none
  := by
  obtain hpending | htaken := hw
  · exact hs.pending w hpending
  · exact hs.taken w htaken

/-- A work is initialised. -/
theorem Sound.init_iff (hs : s.Sound) (delayed : Bool) (h : Nat) (func : Option Nat) (para : Nat)
    (memory : Bool) :
  (s.initWork delayed h func para memory).2.Sound ↔ (func ≠ none → s.table.handles h = none)
  := by
  unfold initWork
  cases func with
  | none => exact iff_of_true hs fun hne => absurd rfl hne
  | some workFunc =>
      rw [forall_prop_of_true (Option.some_ne_none workFunc)]
      cases memory with
      | true =>
          have hcreate := hs.table.create_iff h (some ⟨⟨workFunc, para⟩, delayed⟩)
          constructor
          · exact fun hsound => hcreate.mp hsound.table
          · exact fun hnone => hs.withTable (hcreate.mpr hnone)
              (fun w hw => hs.table.alloc_objects (hs.live hw)) fun _ _ => Table.alloc_made
      | false =>
          have hcreate := hs.table.create_iff h none
          constructor
          · exact fun hsound => hcreate.mp hsound.table
          · exact fun hnone => hs.withTable (hcreate.mpr hnone) (fun _ _ => rfl) fun _ _ => id

/-- A work is destroyed. -/
theorem Sound.destroy_iff (hs : s.Sound) (h : Nat) :
  (s.hdfWorkDestroy h).Sound ↔ s.Disciplined (.destroy h)
  := by
  dsimp only [Disciplined, hdfWorkDestroy]
  cases hw : s.table.handles h with
  | none => exact iff_of_true hs fun _ hv => nomatch hv
  | some w =>
      constructor
      · intro hsound v hv
        obtain rfl := Option.some.inj hv
        refine ⟨?_, fun htaken => hsound.taken w htaken Table.free_objects_self⟩
        by_contra hne
        exact hsound.pending w hne Table.free_objects_self
      · intro hdisciplined
        obtain ⟨hidle, htaken⟩ := hdisciplined w rfl
        have htable := hs.table.free hw
        refine hs.withTable htable (fun v hv => Table.free_objects_of_ne ?_) fun _ _ => id
        rintro rfl
        obtain hne | hmem := hv
        · exact hne hidle
        · exact htaken hmem

/-! ### The queue -/

theorem status_self (status : Status) :
  (s.setStatus w status).status w = status
  := Function.update_self ..

theorem status_of_ne (status : Status) (hne : v ≠ w) :
  (s.setStatus w status).status v = s.status v
  := Function.update_of_ne hne ..

/-- A work is put on the queue, because it is accepted or because its timer has expired. -/
theorem Sound.put {accepted : List Nat} (hs : s.Sound) (hstatus : s.status w ≠ .queued)
    (hlive : s.table.objects w ≠ none) (halive : s.alive = true)
    (hself : accepted.count w + (s.status w).waits = s.accepted.count w + 1)
    (hothers : ∀ v ≠ w, accepted.count v = s.accepted.count v) :
  (Works.put { s with accepted } w).Sound
  := by
  have hnew : w ∉ s.queue := fun hmem => hstatus ((hs.queue w).mp hmem)
  refine ⟨hs.table, fun v hv => ?_, hs.taken, fun v hv => ?_, fun hdead => ?_, fun v => ?_, ?_,
    hs.calls, fun v => ?_, ?_⟩
  · obtain rfl | hne := eq_or_ne v w
    · exact hlive
    · exact hs.pending v fun heq => hv ((status_of_ne .queued hne).trans heq)
  · obtain rfl | hne := eq_or_ne v w
    · exact nomatch (status_self .queued).symm.trans hv
    · exact hs.timers v ((status_of_ne .queued hne).symm.trans hv)
  · exact nomatch halive.symm.trans hdead
  · show v ∈ s.queue ++ [w] ↔ (s.setStatus w .queued).status v = .queued
    rw [List.mem_append, List.mem_singleton]
    obtain rfl | hne := eq_or_ne v w
    · exact iff_of_true (.inr rfl) (status_self .queued)
    · rw [or_iff_left hne, hs.queue v, status_of_ne .queued hne]
  · refine List.nodup_append.mpr ⟨hs.nodup, List.pairwise_singleton _ w, fun v hv u hu => ?_⟩
    obtain rfl := List.mem_singleton.mp hu
    rintro rfl
    exact hnew hv
  · show accepted.count v = (s.called.map Prod.fst).count v + s.cancelled.count v
      + s.taken.count v + ((s.setStatus w .queued).status v).waits
    have hcount := hs.count v
    obtain rfl | hne := eq_or_ne v w
    · rw [status_self]
      show _ = _ + 1
      omega
    · rw [status_of_ne .queued hne, hothers v hne, hcount]
  · show (s.called.map Prod.fst ++ s.taken ++ (s.queue ++ [w])).Sublist (s.puts ++ [w])
    rw [← List.append_assoc]
    exact hs.order.append (.refl [w])

theorem count_accept_self :
  (s.accepted ++ [w]).count w = s.accepted.count w + 1
  := by
  rw [List.count_append, List.count_singleton_self]

theorem count_accept_of_ne (hne : v ≠ w) :
  (s.accepted ++ [w]).count v = s.accepted.count v
  := by
  rw [List.count_append, List.count_eq_zero_of_not_mem fun hmem => hne (List.mem_singleton.mp hmem),
    Nat.add_zero]

/-- An idle work is accepted, and put on the queue. -/
theorem Sound.acceptPut (hs : s.Sound) (hidle : s.status w = .idle)
    (hlive : s.table.objects w ≠ none) (halive : s.alive = true) :
  ((s.accept w).put w).Sound
  := by
  refine hs.put ?_ hlive halive ?_ fun v hne => count_accept_of_ne hne
  · rw [hidle]
    nofun
  · rw [hidle, count_accept_self]
    rfl

/-- An idle work is accepted, and its timer runs. -/
theorem Sound.acceptArm {wrapper : WorkWrapper} (hs : s.Sound) (hidle : s.status w = .idle)
    (hwrapper : wrapper ∈ s.table.objects w) (hdelayed : wrapper.delayed = true)
    (halive : s.alive = true) :
  ((s.accept w).setStatus w .armed).Sound
  := by
  refine ⟨hs.table, fun v hv => ?_, hs.taken, fun v hv => ?_, fun hdead => ?_, fun v => ?_,
    hs.nodup, hs.calls, fun v => ?_, hs.order⟩
  · obtain rfl | hne := eq_or_ne v w
    · exact Option.ne_none_iff_exists'.mpr ⟨wrapper, hwrapper⟩
    · exact hs.pending v fun heq => hv ((status_of_ne .armed hne).trans heq)
  · obtain rfl | hne := eq_or_ne v w
    · exact ⟨wrapper, hwrapper, hdelayed⟩
    · exact hs.timers v ((status_of_ne .armed hne).symm.trans hv)
  · exact nomatch halive.symm.trans hdead
  · show v ∈ s.queue ↔ (s.setStatus w .armed).status v = .queued
    rw [hs.queue v]
    obtain rfl | hne := eq_or_ne v w
    · rw [hidle, status_self]
      exact iff_of_false nofun nofun
    · rw [status_of_ne .armed hne]
  · show (s.accepted ++ [w]).count v = (s.called.map Prod.fst).count v + s.cancelled.count v
      + s.taken.count v + ((s.setStatus w .armed).status v).waits
    obtain rfl | hne := eq_or_ne v w
    · rw [status_self, count_accept_self, hs.count v, hidle]
      rfl
    · rw [status_of_ne .armed hne, count_accept_of_ne hne, hs.count v]

/-- A work is added with a delay. -/
theorem Sound.addDelayed_iff (hs : s.Sound) (h ms : Nat) :
  ¬s.Misused h ms ∧ (s.hdfAddDelayedWork h ms).2.Sound ↔ s.Disciplined (.addDelayed h ms)
  := by
  dsimp only [hdfAddDelayedWork, Disciplined, Misused]
  cases hw : s.table.handles h with
  | none => exact iff_of_true ⟨(fun ⟨_, hv, _⟩ => nomatch hv), hs⟩ fun _ hv => nomatch hv
  | some w =>
      have hlive := hs.table.held h w hw
      by_cases hidle : s.status w = .idle
      · dsimp only
        rw [if_pos hidle]
        constructor
        · rintro ⟨hgood, -⟩ v hv -
          obtain rfl := Option.some.inj hv
          constructor
          · by_contra hdead
            exact hgood ⟨w, rfl, hidle, .inl (eq_false_of_ne_true hdead)⟩
          · intro hms wrapper hwrapper
            by_contra hdelayed
            exact hgood ⟨w, rfl, hidle,
              .inr ⟨hms, wrapper, hwrapper, eq_false_of_ne_true hdelayed⟩⟩
        · intro hdisciplined
          obtain ⟨halive, hdelayed⟩ := hdisciplined w rfl hidle
          constructor
          · rintro ⟨v, hv, -, hdead | ⟨hms, wrapper, hwrapper, hplain⟩⟩
            · exact nomatch halive.symm.trans hdead
            · obtain rfl := Option.some.inj hv
              exact nomatch (hdelayed hms wrapper hwrapper).symm.trans hplain
          · by_cases hms : ms = 0
            · rw [if_pos hms]
              exact hs.acceptPut hidle hlive halive
            · rw [if_neg hms]
              obtain ⟨wrapper, hwrapper⟩ := Option.ne_none_iff_exists'.mp hlive
              exact hs.acceptArm hidle hwrapper (hdelayed hms wrapper hwrapper) halive
      · dsimp only
        rw [if_neg hidle]
        refine iff_of_true ⟨?_, hs⟩ ?_
        · rintro ⟨v, hv, hvidle, -⟩
          obtain rfl := Option.some.inj hv
          exact hidle hvidle
        · intro v hv hvidle
          obtain rfl := Option.some.inj hv
          exact absurd hvidle hidle

/-- A work that is added has no delay. -/
theorem hdfAddDelayedWork_zero (h : Nat) :
  s.hdfAddDelayedWork h 0 = s.hdfAddWork h
  := rfl

/-- A work is added. -/
theorem Sound.add_iff (hs : s.Sound) (h : Nat) :
  ¬s.Misused h 0 ∧ (s.hdfAddWork h).2.Sound ↔ s.Disciplined (.add h)
  := by
  rw [← hdfAddDelayedWork_zero, hs.addDelayed_iff]
  constructor
  · exact fun hdisciplined w hw hidle => (hdisciplined w hw hidle).1
  · exact fun hdisciplined w hw hidle => ⟨hdisciplined w hw hidle, fun hne => absurd rfl hne⟩

/-- The timer of a work expires. -/
theorem Sound.expire (hs : s.Sound) (w : Nat) :
  (s.next (.expire w)).Sound
  := by
  dsimp only [next]
  split
  · next harmed =>
    refine hs.put ?_ (hs.pending w ?_) ?_ ?_ fun v _ => rfl
    · rw [harmed]
      nofun
    · rw [harmed]
      nofun
    · by_contra hdead
      exact (hs.alive (eq_false_of_ne_true hdead)).2 w harmed
    · rw [harmed]
      rfl
  · exact hs

/-! ### Cancelling -/

/-- The status of a work changes between idle and being cancelled. -/
theorem Sound.setStatus {status : Status} (hs : s.Sound) (hlive : s.table.objects w ≠ none)
    (hold : s.status w ≠ .queued) (hwaits : (s.status w).waits = 0)
    (hnew : status ≠ .queued ∧ status ≠ .armed) :
  (s.setStatus w status).Sound
  := by
  refine ⟨hs.table, fun v hv => ?_, hs.taken, fun v hv => ?_, fun hdead => ?_, fun v => ?_,
    hs.nodup, hs.calls, fun v => ?_, hs.order⟩
  · obtain rfl | hne := eq_or_ne v w
    · exact hlive
    · exact hs.pending v fun heq => hv ((status_of_ne status hne).trans heq)
  · obtain rfl | hne := eq_or_ne v w
    · exact absurd ((status_self status).symm.trans hv) hnew.2
    · exact hs.timers v ((status_of_ne status hne).symm.trans hv)
  · refine ⟨(hs.alive hdead).1, fun v hv => ?_⟩
    obtain rfl | hne := eq_or_ne v w
    · exact hnew.2 ((status_self status).symm.trans hv)
    · exact (hs.alive hdead).2 v ((status_of_ne status hne).symm.trans hv)
  · show v ∈ s.queue ↔ (s.setStatus w status).status v = .queued
    rw [hs.queue v]
    obtain rfl | hne := eq_or_ne v w
    · rw [status_self]
      exact iff_of_false hold hnew.1
    · rw [status_of_ne status hne]
  · show s.accepted.count v = (s.called.map Prod.fst).count v + s.cancelled.count v
      + s.taken.count v + ((s.setStatus w status).status v).waits
    rw [hs.count v]
    obtain rfl | hne := eq_or_ne v w
    · rw [status_self, hwaits]
      cases status with
      | idle => rfl
      | cancelling removed => rfl
      | armed => exact absurd rfl hnew.2
      | queued => exact absurd rfl hnew.1
    · rw [status_of_ne status hne]

/-- A work that waits is taken back. -/
theorem Sound.takeBack (hs : s.Sound) (hwaits : (s.status w).waits = 1) :
  Sound { s.setStatus w (.cancelling true) with
    queue := s.queue.erase w
    cancelled := s.cancelled ++ [w] }
  := by
  have hlive : s.table.objects w ≠ none := by
    refine hs.pending w fun hidle => ?_
    rw [hidle] at hwaits
    cases hwaits
  refine ⟨hs.table, fun v hv => ?_, hs.taken, fun v hv => ?_, fun hdead => ?_, fun v => ?_,
    hs.nodup.erase w, hs.calls, fun v => ?_, ?_⟩
  · obtain rfl | hne := eq_or_ne v w
    · exact hlive
    · exact hs.pending v fun heq => hv ((status_of_ne _ hne).trans heq)
  · obtain rfl | hne := eq_or_ne v w
    · exact nomatch (status_self (.cancelling true)).symm.trans hv
    · exact hs.timers v ((status_of_ne (.cancelling true) hne).symm.trans hv)
  · refine ⟨?_, fun v hv => ?_⟩
    · show s.queue.erase w = []
      rw [(hs.alive hdead).1]
      rfl
    · obtain rfl | hne := eq_or_ne v w
      · exact nomatch (status_self (.cancelling true)).symm.trans hv
      · exact (hs.alive hdead).2 v ((status_of_ne (.cancelling true) hne).symm.trans hv)
  · show v ∈ s.queue.erase w ↔ (s.setStatus w (.cancelling true)).status v = .queued
    rw [hs.nodup.mem_erase_iff, hs.queue v]
    obtain rfl | hne := eq_or_ne v w
    · rw [status_self]
      exact iff_of_false (fun h => h.1 rfl) nofun
    · rw [status_of_ne _ hne, and_iff_right hne]
  · show s.accepted.count v = (s.called.map Prod.fst).count v + (s.cancelled ++ [w]).count v
      + s.taken.count v + ((s.setStatus w (.cancelling true)).status v).waits
    rw [hs.count v, List.count_append]
    obtain rfl | hne := eq_or_ne v w
    · rw [status_self, hwaits, List.count_singleton_self]
      show _ = _ + 0
      omega
    · rw [status_of_ne _ hne,
        List.count_eq_zero_of_not_mem fun hmem => hne (List.mem_singleton.mp hmem), Nat.add_zero]
  · exact (List.Sublist.append_left List.erase_sublist _).trans hs.order

/-- A work is cancelled, up to the waiting. -/
theorem Sound.cancelWork (hs : s.Sound) (delayed : Bool) (h : Nat) :
  (s.cancelWork delayed h).Sound
  := by
  unfold Works.cancelWork
  split
  · exact hs
  · next w hw =>
    have hlive := hs.table.held h w hw
    split
    · next hstatus =>
      refine hs.setStatus hlive ?_ ?_ ⟨nofun, nofun⟩
      · rw [hstatus]
        nofun
      · rw [hstatus]
        rfl
    · next hstatus =>
      split
      · have hnew : w ∉ s.queue := fun hmem => nomatch hstatus.symm.trans ((hs.queue w).mp hmem)
        have hback := hs.takeBack (w := w) (by rw [hstatus]; rfl)
        rw [List.erase_of_not_mem hnew] at hback
        exact hback
      · exact hs
    · next hstatus => exact hs.takeBack (by rw [hstatus]; rfl)
    · exact hs

/-- A call that cancels a work returns. -/
theorem Sound.cancelReturns (hs : s.Sound) (w : Nat) :
  (s.next (.cancelled w)).Sound
  := by
  dsimp only [next]
  split
  · next removed hstatus =>
    split
    · exact hs
    · refine hs.setStatus (hs.pending w ?_) ?_ ?_ ⟨nofun, nofun⟩
      · rw [hstatus]
        nofun
      · rw [hstatus]
        nofun
      · rw [hstatus]
        rfl
  · exact hs

/-! ### The thread of the queue -/

/-- A work is taken from the queue. -/
theorem Sound.take (hs : s.Sound) :
  (s.next .take).Sound
  := by
  dsimp only [next]
  split
  · next w queue hqueue hcurrent =>
    have hmem : w ∈ s.queue := by
      rw [hqueue]
      exact List.mem_cons_self
    have hstatus := (hs.queue w).mp hmem
    have hnodup := hs.nodup
    rw [hqueue, List.nodup_cons] at hnodup
    have htaken : s.taken = [] := by
      unfold Works.taken
      rw [hcurrent]
    refine ⟨hs.table, fun v hv => ?_, fun v hv => ?_, fun v hv => ?_, fun hdead => ?_, fun v => ?_,
      hnodup.2, hs.calls, fun v => ?_, ?_⟩
    · obtain rfl | hne := eq_or_ne v w
      · exact absurd (status_self .idle) hv
      · exact hs.pending v fun heq => hv ((status_of_ne .idle hne).trans heq)
    · obtain rfl := List.mem_singleton.mp hv
      refine hs.pending v ?_
      rw [hstatus]
      nofun
    · obtain rfl | hne := eq_or_ne v w
      · exact nomatch (status_self .idle).symm.trans hv
      · exact hs.timers v ((status_of_ne .idle hne).symm.trans hv)
    · exact nomatch hqueue.symm.trans (hs.alive hdead).1
    · show v ∈ queue ↔ (s.setStatus w .idle).status v = .queued
      obtain rfl | hne := eq_or_ne v w
      · rw [status_self]
        exact iff_of_false hnodup.1 nofun
      · rw [status_of_ne .idle hne, ← hs.queue v, hqueue, List.mem_cons, or_iff_right hne]
    · show s.accepted.count v = (s.called.map Prod.fst).count v + s.cancelled.count v
        + [w].count v + ((s.setStatus w .idle).status v).waits
      rw [hs.count v, htaken]
      obtain rfl | hne := eq_or_ne v w
      · rw [status_self, hstatus, List.count_singleton_self]
        rfl
      · rw [status_of_ne .idle hne,
          List.count_eq_zero_of_not_mem fun hmem => hne (List.mem_singleton.mp hmem)]
        rfl
    · have horder := hs.order
      rw [htaken, hqueue, List.append_nil] at horder
      show (s.called.map Prod.fst ++ [w] ++ queue).Sublist s.puts
      rw [List.append_assoc]
      exact horder
  · exact hs

/-- The function of a work is called. -/
theorem Sound.enter (hs : s.Sound) :
  (s.next .enter).Sound
  := by
  dsimp only [next]
  split
  · next w hcurrent =>
    split
    · next wrapper hwrapper =>
      have htaken : s.taken = [w] := by
        unfold Works.taken
        rw [hcurrent]
      refine ⟨hs.table, hs.pending, nofun, hs.timers, hs.alive, hs.queue, hs.nodup,
        fun entry hentry => ?_, fun v => ?_, ?_⟩
      · obtain hold | hnew := List.mem_append.mp hentry
        · exact hs.calls entry hold
        · rw [List.mem_singleton.mp hnew]
          exact ⟨wrapper, hs.table.fixed w wrapper hwrapper, rfl⟩
      · show s.accepted.count v = ((s.called ++ [(w, wrapper.call)]).map Prod.fst).count v
          + s.cancelled.count v + 0 + (s.status v).waits
        rw [hs.count v, htaken, List.map_append, List.count_append]
        show _ + _ + [w].count v + _ = _ + [w].count v + _ + 0 + _
        omega
      · have horder := hs.order
        rw [htaken] at horder
        show ((s.called ++ [(w, wrapper.call)]).map Prod.fst ++ [] ++ s.queue).Sublist s.puts
        rw [List.map_append, List.append_nil]
        exact horder
    · exact hs
  · exact hs

/-- The function of a work returns. -/
theorem Sound.leave (hs : s.Sound) :
  (s.next .leave).Sound
  := by
  dsimp only [next]
  split
  · next w hcurrent =>
    have htaken : s.taken = [] := by
      unfold Works.taken
      rw [hcurrent]
    refine ⟨hs.table, hs.pending, nofun, hs.timers, hs.alive, hs.queue, hs.nodup, hs.calls,
      fun v => ?_, ?_⟩
    · have hcount := hs.count v
      rw [htaken] at hcount
      exact hcount
    · have horder := hs.order
      rw [htaken] at horder
      exact horder
  · exact hs

/-- The queue is destroyed. -/
theorem Sound.destroyQueue_iff (hs : s.Sound) :
  ¬s.alive = false ∧ (s.next .destroyQueue).Sound ↔ s.Disciplined .destroyQueue
  := by
  dsimp only [next, Disciplined]
  rw [Bool.not_eq_false]
  refine and_congr_right fun _ => ?_
  split
  · next hdone =>
    constructor
    · exact fun hsound _ _ => (hsound.alive rfl).2
    · exact fun hdisciplined => ⟨hs.table, hs.pending, hs.taken, hs.timers,
        fun _ => ⟨hdone.1, hdisciplined hdone.1 hdone.2⟩, hs.queue, hs.nodup, hs.calls, hs.count,
        hs.order⟩
  · next hbusy => exact iff_of_true hs fun hqueue hcurrent => absurd ⟨hqueue, hcurrent⟩ hbusy

/-! ### Runs -/

theorem Sound.step_iff (hs : s.Sound) (a : Act) :
  ¬s.Faults a ∧ (s.next a).Sound ↔ s.Disciplined a
  := by
  rw [hs.faults_iff]
  cases a with
  | init h func para memory =>
      rw [and_iff_right not_false]
      exact hs.init_iff false h func para memory
  | initDelayed h func para memory =>
      rw [and_iff_right not_false]
      exact hs.init_iff true h func para memory
  | destroy h =>
      rw [and_iff_right not_false]
      exact hs.destroy_iff h
  | add h => exact hs.add_iff h
  | addDelayed h ms => exact hs.addDelayed_iff h ms
  | destroyQueue => exact hs.destroyQueue_iff
  | busy h => exact iff_of_true ⟨id, hs⟩ trivial
  | cancel h => exact iff_of_true ⟨id, hs.cancelWork false h⟩ trivial
  | cancelDelayed h => exact iff_of_true ⟨id, hs.cancelWork true h⟩ trivial
  | cancelled w => exact iff_of_true ⟨id, hs.cancelReturns w⟩ trivial
  | expire w => exact iff_of_true ⟨id, hs.expire w⟩ trivial
  | take => exact iff_of_true ⟨id, hs.take⟩ trivial
  | enter => exact iff_of_true ⟨id, hs.enter⟩ trivial
  | leave => exact iff_of_true ⟨id, hs.leave⟩ trivial

end Works

/-- A work that is not busy may be destroyed. -/
theorem disciplined_of_not_busy {s : Works} {h : Nat} (hbusy : s.hdfWorkBusy h = 0) :
  s.Disciplined (.destroy h)
  := by
  intro w hw
  unfold Works.hdfWorkBusy at hbusy
  simp only [hw] at hbusy
  have hidle : s.status w = .idle := by
    by_contra hne
    rw [if_pos hne] at hbusy
    omega
  refine ⟨hidle, fun htaken => ?_⟩
  have hcurrent : s.current.map Prod.fst ≠ some w := by
    intro heq
    rw [if_pos heq] at hbusy
    omega
  unfold Works.taken at htaken
  split at htaken
  · next v heq =>
    rw [heq, List.mem_singleton.mp htaken] at hcurrent
    exact hcurrent rfl
  · cases htaken

/-- In every run nothing is used after it is freed, each work that was accepted waits, is taken, was
called once with the parameter of its handle or was cancelled, and those that are called are called
in the order in which they were put on the queue, exactly as long as the calls keep the
discipline. -/
theorem works_sound_iff (acts : List Act) :
  Along Works.next (fun s a => ¬s.Faults a ∧ (s.next a).Sound) .start acts
    ↔ Along Works.next Works.Disciplined .start acts
  := by
  have hkeep : ∀ (s : Works) a, s.Sound → s.Disciplined a → (s.next a).Sound :=
    fun s a hs ha => ((hs.step_iff a).mpr ha).2
  exact along_iff (fun s a hs => hs.step_iff a) hkeep Works.sound_start

/-- A work that is added again while it runs is called again; one is cancelled and destroyed. -/
example :
  ([.init 0 (some 5) 7 true, .initDelayed 1 (some 6) 8 true, .add 0, .add 0, .take, .enter,
      .add 0, .addDelayed 1 20, .leave, .take, .cancelDelayed 1, .enter, .leave, .cancelled 1,
      .destroy 1, .destroyQueue].foldl Works.next .start).called
    = [(0, ⟨5, 7⟩), (0, ⟨5, 7⟩)]
  := by decide

end Osal.Work
