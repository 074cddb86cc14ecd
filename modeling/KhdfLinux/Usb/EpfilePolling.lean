import KhdfLinux.Usb.Completions

/-!
# Polling an endpoint file

`ffs_epfile_poll` waits on `wait_que`, which `epfile_task_proc` wakes.  `epfile_poll_wakes`: a poll
reports events exactly if a read gets bytes, it finds some right after each wake-up, and as long as
it is not woken nothing is there to find, whatever else happens to the file.
-/

namespace Ffs

/-- `wait_que` is woken. -/
def FileAct.Wakes : FileAct → Prop
  | .taskProc _ => True
  | _ => False

namespace FuncFile

/-- `ffs_epfile_poll`: whether it reports `POLLIN`. -/
def ffsEpfilePoll (s : FuncFile) : Bool := !s.reqEventFifo.items.isEmpty

/-- The file has no events, and what was delivered and completed is the same. -/
structure Silent (s t : FuncFile) : Prop where
  items : t.reqEventFifo.items = []
  completed : t.completed = s.completed
  delivered : t.delivered = s.delivered

variable {s t : FuncFile} {a : FileAct}

theorem ffsEpfilePoll_iff :
  s.ffsEpfilePoll ↔ s.reqEventFifo.items ≠ []
  := by
  unfold ffsEpfilePoll
  rw [Bool.not_eq_true', ← Bool.not_eq_true, List.isEmpty_iff]

theorem SameEvents.silent (h : SameEvents s t) (hitems : s.reqEventFifo.items = []) :
  s.Silent t
  where
  items := by rw [h.reqEventFifo, hitems]
  completed := h.completed
  delivered := h.delivered

theorem kind_iorw {io : IoData} {env : IorwEnv} {maxp : Option Nat}
    (h : s.iorw io env maxp = some t) :
  t.kind = s.kind
  := by
  obtain ⟨rfl, -⟩ | ⟨r, -, -, ⟨-, rfl⟩ | ⟨-, rfl⟩⟩ := iorw_cases h
  · rfl
  · unfold queueSync
    split
    · split_ifs
      · rfl
      · rfl
    · split_ifs
      · rfl
      · rfl
  · unfold queueAsync
    dsimp only
    split_ifs
    · rfl
    · rfl

/-- A file stays what it is. -/
theorem kind_step (h : s.step a = some t) :
  t.kind = s.kind
  := by
  cases a with
  | mmap vma mem =>
      cases mem with
      | none =>
          obtain rfl := Option.some.inj h
          rfl
      | some mem =>
          simp only [step] at h
          split_ifs at h
          obtain rfl := Option.some.inj h
          rfl
  | releaseBuf mem =>
      simp only [step] at h
      split at h
      · obtain rfl := Option.some.inj h
        rfl
      · obtain rfl := Option.some.inj h
        rfl
  | transfer io env maxp => exact kind_iorw h
  | completeSync =>
      obtain ⟨-, -, rfl⟩ := Option.map_eq_some_iff.mp h
      rfl
  | wakeSync =>
      simp only [step] at h
      split_ifs at h
      obtain rfl := Option.some.inj h
      rfl
  | giveBack i status actual =>
      obtain ⟨request, -, rfl⟩ := Option.map_eq_some_iff.mp h
      unfold giveBack
      split
      · rfl
      · rfl
  | taskProc i =>
      obtain ⟨done, -, rfl⟩ := Option.map_eq_some_iff.mp h
      rfl
  | find cmd io =>
      obtain rfl := Option.some.inj h
      unfold find
      split
      · rfl
      · dsimp only
        split_ifs
        · rfl
        · rfl
  | useHeld i =>
      obtain ⟨req, -, rfl⟩ := Option.map_eq_some_iff.mp h
      rfl
  | readEvents count copied =>
      simp only [step, readEvents] at h
      split_ifs at h
      · obtain rfl := Option.some.inj h
        rfl
      · obtain rfl := Option.some.inj h
        rfl

/-- A read of a file without events. -/
theorem readEvents_silent {count copied : Nat} (hitems : s.reqEventFifo.items = [])
    (h : s.readEvents count copied = some t) :
  s.Silent t
  := by
  unfold readEvents at h
  dsimp only at h
  split_ifs at h with hcopied hall
  · obtain rfl := Option.some.inj h
    refine ⟨?_, rfl, ?_⟩
    · show s.reqEventFifo.items.drop copied = []
      rw [hitems, List.drop_nil]
    · show s.delivered ++ s.reqEventFifo.items.take copied = s.delivered
      rw [hitems, List.take_nil, List.append_nil]
  · obtain rfl := Option.some.inj h
    refine ⟨?_, rfl, rfl⟩
    show s.reqEventFifo.items.drop copied = []
    rw [hitems, List.drop_nil]

/-- A step that does not wake the polls of an endpoint file brings no events. -/
theorem step_silent (hkind : s.kind ≠ .ep0) (hitems : s.reqEventFifo.items = [])
    (hwakes : ¬a.Wakes) (h : s.step a = some t) :
  s.Silent t
  := by
  cases a with
  | mmap vma mem =>
      cases mem with
      | none =>
          obtain rfl := Option.some.inj h
          exact ⟨hitems, rfl, rfl⟩
      | some mem =>
          simp only [step] at h
          split_ifs at h
          obtain rfl := Option.some.inj h
          exact ⟨hitems, rfl, rfl⟩
  | releaseBuf mem =>
      simp only [step] at h
      split at h
      · obtain rfl := Option.some.inj h
        exact ⟨hitems, rfl, rfl⟩
      · obtain rfl := Option.some.inj h
        exact ⟨hitems, rfl, rfl⟩
  | transfer io env maxp => exact (sameEvents_iorw h).silent hitems
  | completeSync =>
      obtain ⟨-, -, rfl⟩ := Option.map_eq_some_iff.mp h
      exact ⟨hitems, rfl, rfl⟩
  | wakeSync =>
      simp only [step] at h
      split_ifs at h
      obtain rfl := Option.some.inj h
      exact ⟨hitems, rfl, rfl⟩
  | giveBack i status actual =>
      -- the tasklet is only scheduled
      obtain ⟨request, -, rfl⟩ := Option.map_eq_some_iff.mp h
      unfold giveBack
      split
      · exact ⟨hitems, rfl, rfl⟩
      · next hep0 => exact absurd hep0 hkind
  | taskProc i => exact absurd trivial hwakes
  | find cmd io =>
      obtain rfl := Option.some.inj h
      exact (sameEvents_find s cmd io).silent hitems
  | useHeld i =>
      obtain ⟨req, -, rfl⟩ := Option.map_eq_some_iff.mp h
      exact ⟨hitems, rfl, rfl⟩
  | readEvents count copied =>
      simp only [step] at h
      split_ifs at h
      exact readEvents_silent hitems h

/-- Steps that do not wake the polls of an endpoint file bring no events. -/
theorem run_silent {as : List FileAct} (hrun : Run (fun s a t => s.step a = some t) s as t)
    (hkind : s.kind ≠ .ep0) (hitems : s.reqEventFifo.items = []) (hwakes : ∀ a ∈ as, ¬a.Wakes) :
  s.Silent t
  := by
  induction hrun with
  | nil s => exact ⟨hitems, rfl, rfl⟩
  | cons head tail ih =>
      obtain ⟨hhead, htail⟩ := List.forall_mem_cons.mp hwakes
      have hfirst := step_silent hkind hitems hhead head
      have hrest := ih ((kind_step head).symm ▸ hkind) hfirst.items htail
      exact ⟨hrest.items, hrest.completed.trans hfirst.completed,
        hrest.delivered.trans hfirst.delivered⟩

/-- After a wake-up there are events, also when the fifo was full. -/
theorem poll_taskProc (s : FuncFile) (done : GivenBack) :
  (s.taskProc done).ffsEpfilePoll
  := by
  rw [ffsEpfilePoll_iff]
  show s.reqEventFifo.items ++ done.event.bytes.take s.reqEventFifo.avail ≠ []
  intro hnil
  obtain ⟨hitems, htake⟩ := List.append_eq_nil_iff.mp hnil
  have hlength := congrArg List.length htake
  rw [List.length_take, done.event.length_bytes, Kfifo.avail, hitems] at hlength
  exact absurd hlength (by decide)

/-- A poll reports events exactly if a read of any size gets bytes. -/
theorem poll_iff_read (hkind : s.kind ≠ .ep0) {count : Nat} (hcount : count ≠ 0) :
  s.ffsEpfilePoll ↔ ∃ copied t, s.step (.readEvents count copied) = some t
    ∧ t.delivered ≠ s.delivered
  := by
  have hstep (copied : Nat) : s.step (.readEvents count copied) = s.readEvents count copied :=
    if_neg fun h => hkind h.1
  rw [ffsEpfilePoll_iff]
  constructor
  · intro hitems
    have hpos : 0 < s.reqEventFifo.items.length := List.length_pos_iff.mpr hitems
    let copied := min count s.reqEventFifo.items.length
    refine ⟨copied, { s with
      reqEventFifo := s.reqEventFifo.drop copied
      delivered := s.delivered ++ s.reqEventFifo.items.take copied }, ?_, ?_⟩
    · rw [hstep]
      unfold readEvents
      dsimp only
      rw [if_pos (Nat.le_refl _), if_pos rfl]
    · intro heq
      have hlength := congrArg List.length heq
      rw [List.length_append, List.length_take] at hlength
      omega
  · rintro ⟨copied, t, hread, hdelivered⟩ hitems
    rw [hstep] at hread
    exact hdelivered (readEvents_silent hitems hread).delivered

end FuncFile

end Ffs
