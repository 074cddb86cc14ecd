import KhdfLinux.Hdf.Base
import KhdfLinux.Lib.Run
import KhdfLinux.Lib.Table
import Mathlib.Data.BitVec
import Mathlib.Logic.Function.Basic

/-!
# Threads of the OSAL

A thread is a handle to a wrapper with a function and its parameter.  `OsalThreadStart` makes a task
of the kernel that reads the wrapper when it first runs, wakes it, and goes on to use the task and
the wrapper.  The model has the calls, those of a start in steps between which the task and other
calls can come.  `threads_sound_iff`: nothing is used after it is freed, no wrapper is lost and each
task calls the function with the parameter of its thread, exactly as long as a handle is destroyed
only when no task or start has still to use its wrapper, is created only when it is empty, and a
task whose priority is to be set does not end before it is.
-/

namespace Osal.Thread

/-! ### Threads and tasks -/

/-- `OSAL_INVALID_CPU_ID`. -/
def osalInvalidCpuId : BitVec 32 := BitVec.allOnes 32

/-- `param->priority`. -/
inductive Priority where
  | highest
  | high
  | default
  | other
  deriving DecidableEq, Repr

/-- The priority of `SCHED_FIFO`, or none for `SCHED_NORMAL`. -/
def Priority.sched : Priority → Option Nat
  | .highest => some 99
  | .high => some 90
  | .default => some 50
  | .other => none

/-- A function and its parameter. -/
structure Call where
  threadEntry : Nat
  entryPara : Nat
  deriving DecidableEq, Repr

/-- `struct thread_wrapper`. -/
structure Wrapper where
  call : Call
  task : Option Nat
  cpuId : BitVec 32
  deriving DecidableEq, Repr

/-- Where a task is. -/
inductive Phase where
  | created
  /-- Woken, and not in `osal_thread_entry` yet. -/
  | ready
  | running
  | exited
  deriving DecidableEq, Repr

/-- Where the `OsalThreadStart` of a task is. -/
inductive Start where
  /-- `kthread_create` has returned. -/
  | created
  /-- `wake_up_process` has returned. -/
  | woken
  /-- In `kthread_stop`. -/
  | stopping
  /-- The task is to be stored. -/
  | scheduled
  | returned (ret : Int)
  deriving DecidableEq, Repr

/-- A task, with the number of its wrapper and the priority it is to have, where it and its start
are, the processor it is bound to, the priority it has, and what it has called. -/
structure Task where
  wrapper : Nat
  fifo : Option Nat
  phase : Phase
  start : Start
  cpu : Option (BitVec 32)
  sched : Option Nat
  called : Option Call
  deriving DecidableEq, Repr

/-- The task or its start has still to use the wrapper. -/
def Task.Needs (task : Task) : Prop :=
  match task.start with
  | .created | .woken | .scheduled => True
  | .stopping => False
  | .returned _ => task.phase = .ready

/-- A start that is going on, and not in `kthread_stop`. -/
theorem Task.needs_of_start {task : Task}
    (hstart : task.start = .created ∨ task.start = .woken ∨ task.start = .scheduled) :
  task.Needs
  := by
  unfold Task.Needs
  obtain heq | heq | heq := hstart
  · rw [heq]
    trivial
  · rw [heq]
    trivial
  · rw [heq]
    trivial

/-- A task that gets to `osal_thread_entry`. -/
theorem Task.needs_of_ready {task : Task} (hphase : task.phase = .ready)
    (hstart : task.start ≠ .stopping) :
  task.Needs
  := by
  unfold Task.Needs
  split
  · trivial
  · trivial
  · trivial
  · next heq => exact hstart heq
  · exact hphase

/-- What is needed when the task is elsewhere was needed before. -/
theorem Task.Needs.of_phase {task : Task} {phase : Phase} (h : Task.Needs { task with phase })
    (hphase : phase ≠ .ready) :
  task.Needs
  := by
  unfold Task.Needs at h ⊢
  split
  · trivial
  · trivial
  · trivial
  · next hstart =>
    simp only [hstart] at h
  · next hstart =>
    simp only [hstart] at h
    exact absurd h hphase

/-- The start has still to set the priority of the task. -/
def Task.Unset (task : Task) : Prop := task.start = .woken ∧ task.fifo ≠ none

/-- `realThread` of the handles, the wrappers that are not freed, the calls of all wrappers there
were, and the tasks. -/
structure Threads where
  handles : Nat → Option Nat
  wrappers : Nat → Option Wrapper
  made : List Call
  tasks : List Task

/-- What happens: a call on a handle, a part of a start, or a step of a task. -/
inductive Act where
  | create (h : Nat) (threadEntry : Option Nat) (entryPara : Nat) (memory : Bool)
  | bind (h : Nat) (cpuId : BitVec 32)
  /-- Up to `kthread_create`. -/
  | start (h : Nat) (param : Option Priority) (created : Bool)
  /-- Up to `wake_up_process`. -/
  | wake (i : Nat)
  /-- `sched_setscheduler`, where there is a priority to set. -/
  | schedule (i : Nat) (accepted : Bool)
  /-- `kthread_stop` returns. -/
  | stopped (i : Nat)
  /-- The task is stored. -/
  | store (i : Nat)
  /-- The task begins. -/
  | enter (i : Nat)
  /-- The function of the task returns. -/
  | exit (i : Nat)
  | destroy (h : Nat)
  deriving DecidableEq, Repr

namespace Threads

/-- No thread. -/
def init : Threads := ⟨fun _ => none, fun _ => none, [], []⟩

variable (s : Threads)

/-- A new wrapper for the call is put into the handle. -/
def alloc (h : Nat) (call : Call) : Threads :=
  { s with
    handles := Function.update s.handles h (some s.made.length)
    wrappers := Function.update s.wrappers s.made.length (some ⟨call, none, osalInvalidCpuId⟩)
    made := s.made ++ [call] }

/-- The wrapper is freed, and the handle cleared. -/
def free (h w : Nat) : Threads :=
  { s with
    handles := Function.update s.handles h none
    wrappers := Function.update s.wrappers w none }

/-- `OsalThreadCreate`. -/
def osalThreadCreate (h : Nat) (threadEntry : Option Nat) (entryPara : Nat) (memory : Bool) :
    Int × Threads :=
  match threadEntry with
  | none => (Hdf.errInvalidParam, s)
  | some threadEntry =>
      if memory then (Hdf.success, s.alloc h ⟨threadEntry, entryPara⟩)
      else (Hdf.errMallocFail, { s with handles := Function.update s.handles h none })

/-- A wrapper is written. -/
def write (w : Nat) (f : Wrapper → Wrapper) : Threads :=
  { s with wrappers := Function.update s.wrappers w ((s.wrappers w).map f) }

/-- `OsalThreadBind`. -/
def osalThreadBind (h : Nat) (cpuId : BitVec 32) : Int × Threads :=
  match s.handles h with
  | none => (Hdf.errInvalidParam, s)
  | some w => (Hdf.success, s.write w fun wrapper => { wrapper with cpuId })

/-- `OsalThreadStart` up to `kthread_create`, with what it returns where it does. -/
def osalThreadStart (h : Nat) (param : Option Priority) (created : Bool) : Option Int × Threads :=
  match s.handles h, param with
  | some w, some priority =>
      if created then
        (none, { s with
          tasks := s.tasks ++ [⟨w, priority.sched, .created, .created, none, none, none⟩] })
      else (some Hdf.failure, s)
  | _, _ => (some Hdf.errInvalidParam, s)

/-- `OsalThreadDestroy`. -/
def osalThreadDestroy (h : Nat) : Int × Threads :=
  match s.handles h with
  | none => (Hdf.errInvalidParam, s)
  | some w => (Hdf.success, s.free h w)

/-- A task goes on. -/
def onTask (i : Nat) (f : Task → Task) : Threads := { s with tasks := s.tasks.modify i f }

/-- The processor for a task. -/
def cpuFor (w : Nat) : Option (BitVec 32) :=
  (s.wrappers w).bind fun wrapper =>
    if wrapper.cpuId ≠ osalInvalidCpuId then some wrapper.cpuId else none

/-- The state after what happens; what is not possible changes nothing. -/
def next : Act → Threads
  | .create h threadEntry entryPara memory =>
      (s.osalThreadCreate h threadEntry entryPara memory).2
  | .bind h cpuId => (s.osalThreadBind h cpuId).2
  | .start h param created => (s.osalThreadStart h param created).2
  | .wake i => s.onTask i fun task =>
      if task.start = .created then
        { task with phase := .ready, start := .woken, cpu := s.cpuFor task.wrapper }
      else task
  | .schedule i accepted => s.onTask i fun task =>
      if task.start = .woken then
        match task.fifo with
        | none => { task with start := .scheduled }
        | some priority =>
            if accepted then { task with start := .scheduled, sched := some priority }
            else { task with start := .stopping }
      else task
  | .stopped i => s.onTask i fun task =>
      if task.start = .stopping ∧ task.phase = .exited then
        { task with start := .returned Hdf.failure }
      else task
  | .store i =>
      match s.tasks[i]? with
      | none => s
      | some task =>
          if task.start = .scheduled then
            (s.write task.wrapper fun wrapper => { wrapper with task := some i }).onTask i
              fun task => { task with start := .returned Hdf.success }
          else s
  | .enter i => s.onTask i fun task =>
      if task.phase = .ready then
        -- a task that is to stop does not get to `osal_thread_entry`
        if task.start = .stopping then { task with phase := .exited }
        else { task with
          phase := .running
          called := (s.wrappers task.wrapper).map Wrapper.call }
      else task
  | .exit i => s.onTask i fun task =>
      if task.phase = .running then { task with phase := .exited } else task
  | .destroy h => (s.osalThreadDestroy h).2

/-! ### Soundness -/

/-- What happens uses what is freed. -/
def Faults : Act → Prop
  | .bind h _ | .destroy h => ∃ w, s.handles h = some w ∧ s.wrappers w = none
  | .wake i => ∃ task ∈ s.tasks[i]?, task.start = .created ∧ s.wrappers task.wrapper = none
  | .schedule i _ => ∃ task ∈ s.tasks[i]?, task.Unset ∧ task.phase = .exited
  | .store i => ∃ task ∈ s.tasks[i]?, task.start = .scheduled ∧ s.wrappers task.wrapper = none
  | .enter i => ∃ task ∈ s.tasks[i]?, task.phase = .ready ∧ task.start ≠ .stopping
      ∧ s.wrappers task.wrapper = none
  | _ => False

end Threads

/-- What a task and its start have still to use is there, and what it has called is the call of its
thread. -/
structure Task.Sound (wrappers : Nat → Option Wrapper) (made : List Call) (task : Task) : Prop where
  needs : task.Needs → wrappers task.wrapper ≠ none
  unset : task.Unset → task.phase ≠ .exited
  called : ∀ call, task.called = some call → made[task.wrapper]? = some call

/-- A task stays sound while no wrapper goes that it needs. -/
theorem Task.Sound.mono {task : Task} {wrappers wrappers' : Nat → Option Wrapper}
    {made made' : List Call} (h : task.Sound wrappers made)
    (hlive : task.Needs → wrappers task.wrapper ≠ none → wrappers' task.wrapper ≠ none)
    (hmade : ∀ call, made[task.wrapper]? = some call → made'[task.wrapper]? = some call) :
  task.Sound wrappers' made'
  where
  needs hneeds := hlive hneeds (h.needs hneeds)
  unset := h.unset
  called call hcalled := hmade call (h.called call hcalled)

namespace Threads

variable (s : Threads)

/-- The wrappers that are not freed are those in the handles, each in one of them and with its call,
and the tasks are sound. -/
structure Sound : Prop where
  held : ∀ h w, s.handles h = some w → s.wrappers w ≠ none
  only : ∀ h h' w, s.handles h = some w → s.handles h' = some w → h = h'
  kept : ∀ w, s.wrappers w ≠ none → ∃ h, s.handles h = some w
  call : ∀ w wrapper, s.wrappers w = some wrapper → s.made[w]? = some wrapper.call
  tasks : ∀ task ∈ s.tasks, task.Sound s.wrappers s.made

/-- A thread is created in an empty handle, and destroyed when no task or start has still to use
its wrapper; and a task whose priority is to be set does not end. -/
def Disciplined : Act → Prop
  | .create h threadEntry _ _ => threadEntry ≠ none → s.handles h = none
  | .destroy h => ∀ w, s.handles h = some w → ∀ task ∈ s.tasks, task.wrapper = w → ¬task.Needs
  | .exit i => ∀ task ∈ s.tasks[i]?, task.phase = .running → ¬task.Unset
  | _ => True

variable {s : Threads} {task : Task} {a : Act}

theorem sound_init :
  init.Sound
  where
  held _ _ h := nomatch h
  only _ _ _ h := nomatch h
  kept _ h := absurd rfl h
  call _ _ h := nomatch h
  tasks _ h := nomatch h

/-- What is sound is not used after it is freed. -/
theorem Sound.not_faults (h : s.Sound) (a : Act) :
  ¬s.Faults a
  := by
  have hmem {i : Nat} {task : Task} (htask : task ∈ s.tasks[i]?) :
      task.Sound s.wrappers s.made := h.tasks task (List.mem_of_getElem? htask)
  cases a with
  | bind handle cpuId =>
      rintro ⟨w, hw, hnone⟩
      exact h.held handle w hw hnone
  | destroy handle =>
      rintro ⟨w, hw, hnone⟩
      exact h.held handle w hw hnone
  | wake i =>
      rintro ⟨task, htask, hstart, hnone⟩
      exact (hmem htask).needs (Task.needs_of_start (.inl hstart)) hnone
  | schedule i accepted =>
      rintro ⟨task, htask, hunset, hexited⟩
      exact (hmem htask).unset hunset hexited
  | store i =>
      rintro ⟨task, htask, hstart, hnone⟩
      exact (hmem htask).needs (Task.needs_of_start (.inr (.inr hstart))) hnone
  | enter i =>
      rintro ⟨task, htask, hphase, hstart, hnone⟩
      exact (hmem htask).needs (Task.needs_of_ready hphase hstart) hnone
  | create | start | stopped | exit => exact id

/-! ### Tasks -/

/-- A task goes on, and is sound as before. -/
theorem Sound.onTask {i : Nat} {f : Task → Task} (h : s.Sound)
    (hf : ∀ task ∈ s.tasks[i]?, task.Sound s.wrappers s.made →
      (f task).Sound s.wrappers s.made) :
  (s.onTask i f).Sound
  where
  held := h.held
  only := h.only
  kept := h.kept
  call := h.call
  tasks := by
    intro task htask
    obtain ⟨j, hj⟩ := List.mem_iff_getElem?.mp htask
    change (s.tasks.modify i f)[j]? = some task at hj
    rw [List.getElem?_modify] at hj
    obtain ⟨old, hold, heq⟩ := Option.map_eq_some_iff.mp hj
    have hsound := h.tasks old (List.mem_of_getElem? hold)
    split at heq
    · next hij =>
      subst hij
      rw [← heq]
      exact hf old hold hsound
    · rw [← heq]
      exact hsound

/-- Wrappers are written, and keep their calls. -/
theorem Sound.write {w : Nat} {f : Wrapper → Wrapper} (h : s.Sound)
    (hf : ∀ wrapper, (f wrapper).call = wrapper.call) :
  (s.write w f).Sound
  := by
  have hsame (v : Nat) : ((s.write w f).wrappers v).map Wrapper.call
      = (s.wrappers v).map Wrapper.call := by
    unfold Threads.write
    by_cases hv : v = w
    · subst hv
      dsimp only
      rw [Function.update_self, Option.map_map]
      exact congrArg (fun g => Option.map g (s.wrappers v)) (funext hf)
    · dsimp only
      rw [Function.update_of_ne hv]
  have hnone (v : Nat) : (s.write w f).wrappers v = none ↔ s.wrappers v = none := by
    rw [← Option.map_eq_none_iff (f := Wrapper.call), hsame, Option.map_eq_none_iff]
  refine ⟨fun handle v hv => (hnone v).not.mpr (h.held handle v hv), h.only,
    fun v hv => h.kept v ((hnone v).not.mp hv), fun v wrapper hv => ?_, fun task htask => ?_⟩
  · have hcall := hsame v
    rw [hv] at hcall
    obtain ⟨old, hold, heq⟩ := Option.map_eq_some_iff.mp hcall.symm
    rw [← heq]
    exact h.call v old hold
  · exact (h.tasks task htask).mono (fun _ => (hnone _).not.mpr) fun _ => id

/-! ### The calls -/

/-- The handles and the wrappers. -/
def table (s : Threads) : Table Wrapper Call := ⟨s.handles, s.wrappers, s.made⟩

theorem Sound.table (h : s.Sound) :
  s.table.Sound Wrapper.call
  := ⟨h.held, h.only, h.kept, h.call⟩

theorem Sound.of_table (htable : s.table.Sound Wrapper.call)
    (htasks : ∀ task ∈ s.tasks, task.Sound s.wrappers s.made) :
  s.Sound
  := ⟨htable.held, htable.only, htable.kept, htable.fixed, htasks⟩

theorem Sound.free_iff {handle w : Nat} (h : s.Sound) (hw : s.handles handle = some w) :
  (s.free handle w).Sound ↔ ∀ task ∈ s.tasks, task.wrapper = w → ¬task.Needs
  := by
  constructor
  · intro hsound task htask hwrapper hneeds
    refine (hsound.tasks task htask).needs hneeds ?_
    rw [hwrapper]
    exact Table.free_objects_self (t := s.table) (h := handle)
  · intro hfree
    refine .of_table (h.table.free hw) fun task htask => ?_
    refine (h.tasks task htask).mono (fun hneeds hold => ?_) fun _ => id
    have hlive := Table.free_objects_of_ne (t := s.table) (h := handle)
      fun hwrapper : task.wrapper = w => hfree task htask hwrapper hneeds
    exact fun hgone => hold (hlive.symm.trans hgone)

theorem Sound.alloc {handle : Nat} (h : s.Sound) (hnone : s.handles handle = none) (call : Call) :
  (s.alloc handle call).Sound
  := by
  let wrapper : Wrapper := ⟨call, none, osalInvalidCpuId⟩
  have htable : (s.table.alloc Wrapper.call handle wrapper).Sound Wrapper.call :=
    h.table.alloc hnone
  refine .of_table htable fun task htask => (h.tasks task htask).mono (fun _ hlive => ?_) ?_
  · have hsame : (s.table.alloc Wrapper.call handle wrapper).objects task.wrapper
        = s.wrappers task.wrapper := h.table.alloc_objects hlive
    exact fun hgone => hlive (hsame.symm.trans hgone)
  · intro c hmade
    show (s.table.alloc Wrapper.call handle wrapper).made[task.wrapper]? = some c
    exact Table.alloc_made hmade

/-- A thread is created. -/
theorem Sound.create_iff (h : s.Sound) (handle : Nat) (threadEntry : Option Nat) (entryPara : Nat)
    (memory : Bool) :
  (s.next (.create handle threadEntry entryPara memory)).Sound
    ↔ s.Disciplined (.create handle threadEntry entryPara memory)
  := by
  dsimp only [next, osalThreadCreate, Disciplined]
  cases threadEntry with
  | none => exact iff_of_true h fun hne => absurd rfl hne
  | some threadEntry =>
      rw [forall_prop_of_true (Option.some_ne_none threadEntry)]
      cases memory with
      | true =>
          have hcreate := h.table.create_iff handle
            (some ⟨⟨threadEntry, entryPara⟩, none, osalInvalidCpuId⟩)
          exact ⟨fun hsound => hcreate.mp hsound.table, fun hnone => h.alloc hnone _⟩
      | false =>
          have hcreate := h.table.create_iff handle none
          constructor
          · exact fun hsound => hcreate.mp hsound.table
          · exact fun hnone => .of_table (hcreate.mpr hnone) h.tasks

/-- A handle is destroyed. -/
theorem Sound.destroy_iff (h : s.Sound) (handle : Nat) :
  (s.next (.destroy handle)).Sound ↔ s.Disciplined (.destroy handle)
  := by
  dsimp only [next, osalThreadDestroy, Disciplined]
  cases hw : s.handles handle with
  | none => exact ⟨fun _ => nofun, fun _ => h⟩
  | some w =>
      dsimp only
      rw [h.free_iff hw]
      constructor
      · rintro hfree v hv
        obtain rfl := Option.some.inj hv
        exact hfree
      · exact fun hfree => hfree w rfl

/-- The function of a task returns. -/
theorem Sound.exit_iff (h : s.Sound) (i : Nat) :
  (s.next (.exit i)).Sound ↔ s.Disciplined (.exit i)
  := by
  constructor
  · intro hsound task htask hphase hunset
    have hmem : { task with phase := .exited } ∈ (s.next (.exit i)).tasks := by
      refine List.mem_of_getElem? (i := i) ?_
      show (s.tasks.modify i _)[i]? = _
      rw [List.getElem?_modify_eq, htask]
      simp only [Option.map_eq_map, Option.map_some, hphase, if_true]
    exact (hsound.tasks _ hmem).unset hunset rfl
  · intro hdisciplined
    refine h.onTask fun task htask hsound => ?_
    split
    · next hphase =>
      refine ⟨fun hneeds => hsound.needs (hneeds.of_phase nofun), fun hunset => ?_, hsound.called⟩
      exact absurd hunset (hdisciplined task htask hphase)
    · exact hsound

/-! ### The steps of a start and of a task -/

theorem Sound.bind (h : s.Sound) (handle : Nat) (cpuId : BitVec 32) :
  (s.next (.bind handle cpuId)).Sound
  := by
  dsimp only [next, osalThreadBind]
  split
  · exact h
  · exact h.write fun _ => rfl

theorem Sound.start (h : s.Sound) (handle : Nat) (param : Option Priority) (created : Bool) :
  (s.next (.start handle param created)).Sound
  := by
  dsimp only [next, osalThreadStart]
  split
  · next w priority hw =>
    split
    · refine ⟨h.held, h.only, h.kept, h.call, fun task htask => ?_⟩
      obtain hold | hnew := List.mem_append.mp htask
      · exact h.tasks task hold
      · rw [List.mem_singleton.mp hnew]
        exact ⟨fun _ => h.held handle w hw, fun hunset => (nomatch hunset.1), nofun⟩
    · exact h
  · exact h

theorem Sound.wake (h : s.Sound) (i : Nat) :
  (s.next (.wake i)).Sound
  := by
  refine h.onTask fun task _ hsound => ?_
  split
  · next hstart =>
    have hneeds := hsound.needs (Task.needs_of_start (.inl hstart))
    exact ⟨fun _ => hneeds, nofun, hsound.called⟩
  · exact hsound

theorem Sound.schedule (h : s.Sound) (i : Nat) (accepted : Bool) :
  (s.next (.schedule i accepted)).Sound
  := by
  refine h.onTask fun task _ hsound => ?_
  split
  · next hstart =>
    have hneeds := hsound.needs (Task.needs_of_start (.inr (.inl hstart)))
    split
    · exact ⟨fun _ => hneeds, fun hunset => (nomatch hunset.1), hsound.called⟩
    · split
      · exact ⟨fun _ => hneeds, fun hunset => (nomatch hunset.1), hsound.called⟩
      · exact ⟨nofun, fun hunset => (nomatch hunset.1), hsound.called⟩
  · exact hsound

theorem Sound.stopped (h : s.Sound) (i : Nat) :
  (s.next (.stopped i)).Sound
  := by
  refine h.onTask fun task _ hsound => ?_
  split
  · next hstopped =>
    refine ⟨fun hneeds => ?_, fun hunset => (nomatch hunset.1), hsound.called⟩
    exact absurd (hstopped.2.symm.trans hneeds) nofun
  · exact hsound

theorem Sound.store (h : s.Sound) (i : Nat) :
  (s.next (.store i)).Sound
  := by
  dsimp only [next]
  split
  · exact h
  · next task htask =>
    split
    · next hstart =>
      have hwrite := h.write (w := task.wrapper)
        (f := fun wrapper => { wrapper with task := some i }) fun _ => rfl
      refine hwrite.onTask fun task' htask' hsound => ?_
      obtain rfl : task = task' := Option.some.inj (htask.symm.trans htask')
      refine ⟨fun _ => hsound.needs (Task.needs_of_start (.inr (.inr hstart))),
        fun hunset => (nomatch hunset.1), hsound.called⟩
    · exact h

theorem Sound.enter (h : s.Sound) (i : Nat) :
  (s.next (.enter i)).Sound
  := by
  refine h.onTask fun task _ hsound => ?_
  split
  · next hphase =>
    split
    · next hstart =>
      refine ⟨fun hneeds => hsound.needs (hneeds.of_phase nofun), fun hunset => ?_, hsound.called⟩
      exact absurd (hstart.symm.trans hunset.1) nofun
    · next hstart =>
      refine ⟨fun hneeds => hsound.needs (hneeds.of_phase nofun), fun _ => nofun,
        fun call hcall => ?_⟩
      obtain ⟨wrapper, hwrapper, rfl⟩ := Option.map_eq_some_iff.mp hcall
      exact h.call _ wrapper hwrapper
  · exact hsound

theorem Sound.call_iff (h : s.Sound) (a : Act) :
  (¬s.Faults a ∧ (s.next a).Sound) ↔ s.Disciplined a
  := by
  rw [and_iff_right (h.not_faults a)]
  cases a with
  | create handle threadEntry entryPara memory => exact h.create_iff handle _ entryPara memory
  | destroy handle => exact h.destroy_iff handle
  | exit i => exact h.exit_iff i
  | bind handle cpuId => exact iff_of_true (h.bind handle cpuId) trivial
  | start handle param created => exact iff_of_true (h.start handle param created) trivial
  | wake i => exact iff_of_true (h.wake i) trivial
  | schedule i accepted => exact iff_of_true (h.schedule i accepted) trivial
  | stopped i => exact iff_of_true (h.stopped i) trivial
  | store i => exact iff_of_true (h.store i) trivial
  | enter i => exact iff_of_true (h.enter i) trivial

end Threads

/-- A handle that is destroyed too early dooms a start or a task: it comes to use what is freed when
it only goes on. -/
theorem destroy_dooms {s : Threads} {handle w : Nat} {task : Task}
    (hw : s.handles handle = some w) (htask : task ∈ s.tasks) (hwrapper : task.wrapper = w)
    (hneeds : task.Needs) :
  ∃ i, (s.next (.destroy handle)).Faults (.wake i) ∨ (s.next (.destroy handle)).Faults (.enter i)
    ∨ (s.next (.destroy handle)).Faults (.store i)
    ∨ ((s.next (.destroy handle)).next (.schedule i true)).Faults (.store i)
  := by
  obtain ⟨i, hi⟩ := List.mem_iff_getElem?.mp htask
  have hfreed : s.next (.destroy handle) = s.free handle w := by
    dsimp only [Threads.next, Threads.osalThreadDestroy]
    rw [hw]
  have hgone : (s.free handle w).wrappers task.wrapper = none := by
    rw [hwrapper]
    exact Function.update_self ..
  refine ⟨i, ?_⟩
  rw [hfreed]
  unfold Task.Needs at hneeds
  cases hstart : task.start with
  | created => exact .inl ⟨task, hi, hstart, hgone⟩
  | scheduled => exact .inr (.inr (.inl ⟨task, hi, hstart, hgone⟩))
  | stopping =>
      rw [hstart] at hneeds
      exact hneeds.elim
  | returned ret =>
      simp only [hstart] at hneeds
      exact .inr (.inl ⟨task, hi, hneeds, by rw [hstart]; nofun, hgone⟩)
  | woken =>
      refine .inr (.inr (.inr ?_))
      have hget (t : Task) (ht : (if task.start = .woken then
            match task.fifo with
            | none => { task with start := .scheduled }
            | some priority => { task with start := .scheduled, sched := some priority }
          else task) = t) : t ∈ ((s.free handle w).next (.schedule i true)).tasks[i]? := by
        show (s.tasks.modify i _)[i]? = some t
        rw [List.getElem?_modify_eq, hi, ← ht]
        rfl
      rw [if_pos hstart] at hget
      refine ⟨_, hget _ rfl, ?_, ?_⟩
      · split
        · rfl
        · rfl
      · split
        · exact hgone
        · exact hgone

/-- A thread is started, runs and is destroyed by itself. -/
example :
  ([.create 0 (some 5) 7 true, .bind 0 2, .start 0 (some .high) true, .wake 0, .schedule 0 true,
      .store 0, .enter 0, .destroy 0, .exit 0].foldl Threads.next .init).tasks
    = [⟨0, some 90, .exited, .returned Hdf.success, some 2, some 90, some ⟨5, 7⟩⟩]
  := by decide

end Osal.Thread
