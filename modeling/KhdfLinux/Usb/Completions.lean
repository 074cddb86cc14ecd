import KhdfLinux.Usb.FileBuffers

/-!
# The events of completed requests

A completed asynchronous request puts an event of 16 bytes into `reqEventFifo`, which holds
64 of them, and reads take any number of bytes out.  `completions_delivered`: what user space
gets is the events in the order of completion, exactly as long as each event finds room and
no copy to user space fails half way.
-/

namespace Ffs

namespace FuncFile

/-- The events of the completed requests, one after the other. -/
def events (s : FuncFile) : Bytes := s.completed.flatMap UsbFnReqEvent.bytes

/-- Of the events, user space has got the first bytes, and the fifo holds the others. -/
def EventsKept (s : FuncFile) : Prop := s.reqEventFifo.Carries s.events s.delivered

/-- The condition on a step: the event of a completed request finds room in the fifo, and a
copy to user space that fails has copied nothing. -/
def EventsFit (s : FuncFile) : FileAct → Prop
  | .giveBack _ _ _ => s.kind = .ep0 → usbFnReqEventSize ≤ s.reqEventFifo.avail
  | .taskProc _ => usbFnReqEventSize ≤ s.reqEventFifo.avail
  | .readEvents count copied => copied = min count s.reqEventFifo.items.length ∨ copied = 0
  | _ => True

/-- The events, the fifo and what was delivered are the same. -/
structure SameEvents (s t : FuncFile) : Prop where
  reqEventFifo : t.reqEventFifo = s.reqEventFifo
  completed : t.completed = s.completed
  delivered : t.delivered = s.delivered

variable {s t : FuncFile}

theorem SameEvents.kept_iff (h : SameEvents s t) :
  t.EventsKept ↔ s.EventsKept
  := by
  rw [EventsKept, events, h.reqEventFifo, h.completed, h.delivered]
  rfl

theorem sameEvents_iorw {io : IoData} {env : IorwEnv} {maxp : Option Nat}
    (h : s.iorw io env maxp = some t) :
  SameEvents s t
  := by
  obtain ⟨rfl, -⟩ | ⟨r, -, -, ⟨-, rfl⟩ | ⟨-, rfl⟩⟩ := iorw_cases h
  · exact ⟨rfl, rfl, rfl⟩
  · unfold queueSync
    cases s.kind <;> (dsimp only; split_ifs <;> exact ⟨rfl, rfl, rfl⟩)
  · unfold queueAsync
    dsimp only
    split_ifs <;> exact ⟨rfl, rfl, rfl⟩

theorem sameEvents_find (s : FuncFile) (cmd : FindCmd) (io : IoData) :
  SameEvents s (s.find cmd io)
  := by
  unfold find
  cases s.findAddr io with
  | none => exact ⟨rfl, rfl, rfl⟩
  | some addr =>
      dsimp only
      split_ifs <;> exact ⟨rfl, rfl, rfl⟩

theorem events_taskProc (s : FuncFile) (done : GivenBack) :
  (s.taskProc done).events = s.events ++ done.event.bytes
  := by
  simp [events, taskProc]

/-- To complete a request keeps the events exactly if there is room for its own. -/
theorem eventsKept_taskProc_iff (hs : s.EventsKept) (done : GivenBack) :
  (s.taskProc done).EventsKept ↔ usbFnReqEventSize ≤ s.reqEventFifo.avail
  := by
  have hput := Kfifo.Carries.put_iff hs done.event.bytes
  rw [done.event.length_bytes] at hput
  rw [EventsKept, events_taskProc]
  apply hput

/-- To read keeps the events exactly if nothing is lost in a copy that fails. -/
theorem eventsKept_readEvents_iff {count copied : Nat} (hs : s.EventsKept)
    (h : s.readEvents count copied = some t) :
  t.EventsKept ↔ copied = min count s.reqEventFifo.items.length ∨ copied = 0
  := by
  unfold readEvents at h
  dsimp only at h
  split_ifs at h with hcopied hall
  · obtain rfl := Option.some.inj h
    apply iff_of_true (hs.take copied) (.inl hall)
  · obtain rfl := Option.some.inj h
    have hle := Nat.le_trans hcopied (Nat.min_le_right _ _)
    exact (hs.drop_iff hle).trans (or_iff_right hall).symm

/-- A step from a state with its events kept keeps them exactly if it meets the condition. -/
theorem step_iff_eventsFit {a : FileAct} (hs : s.EventsKept) (h : s.step a = some t) :
  t.EventsKept ↔ s.EventsFit a
  := by
  cases a with
  | mmap vma mem =>
      cases mem with
      | none =>
          obtain rfl := Option.some.inj h
          apply iff_of_true hs trivial
      | some mem =>
          simp only [step] at h
          split_ifs at h
          obtain rfl := Option.some.inj h
          apply iff_of_true hs trivial
  | releaseBuf mem =>
      simp only [step] at h
      cases hfind : genericFindMemoryArea s.memoryList mem.buf mem.size with
      | none =>
          simp only [hfind] at h
          obtain rfl := Option.some.inj h
          apply iff_of_true hs trivial
      | some ffsm =>
          simp only [hfind] at h
          obtain rfl := Option.some.inj h
          apply iff_of_true hs trivial
  | transfer io env maxp => exact iff_of_true ((sameEvents_iorw h).kept_iff.mpr hs) trivial
  | completeSync =>
      obtain ⟨-, -, rfl⟩ := Option.map_eq_some_iff.mp h
      apply iff_of_true hs trivial
  | wakeSync =>
      simp only [step] at h
      split_ifs at h
      obtain rfl := Option.some.inj h
      apply iff_of_true hs trivial
  | giveBack i status actual =>
      obtain ⟨request, -, rfl⟩ := Option.map_eq_some_iff.mp h
      simp only [EventsFit, giveBack]
      cases s.kind with
      | epfile in_ isoc =>
          apply iff_of_true hs
          intro hep0
          contradiction
      | ep0 =>
          rw [forall_prop_of_true rfl]
          apply eventsKept_taskProc_iff (s := { s with queued := s.queued.eraseIdx i }) hs _
  | taskProc i =>
      obtain ⟨done, -, rfl⟩ := Option.map_eq_some_iff.mp h
      apply eventsKept_taskProc_iff (s := { s with done := s.done.eraseIdx i }) hs done
  | find cmd io =>
      obtain rfl := Option.some.inj h
      apply iff_of_true ((sameEvents_find s cmd io).kept_iff.mpr hs) trivial
  | useHeld i =>
      obtain ⟨req, -, rfl⟩ := Option.map_eq_some_iff.mp h
      apply iff_of_true hs trivial
  | readEvents count copied =>
      simp only [step] at h
      split_ifs at h
      apply eventsKept_readEvents_iff hs h

/-- If every event finds room in the fifo and no copy to user space fails half way, what user
space has got are the first bytes of the events of the completed requests, and none of the
others is lost; and a further step keeps that exactly if it meets the condition too. -/
theorem completions_delivered {kind : FileKind} {as : List FileAct}
    (h : Run (fun s a t => s.EventsFit a ∧ s.step a = some t) (funcFileNew kind) as s) :
  s.delivered <+: s.events ∧ s.delivered ++ s.reqEventFifo.items = s.events
    ∧ ∀ a t, s.step a = some t →
      (t.delivered ++ t.reqEventFifo.items = t.events ↔ s.EventsFit a)
  := by
  have hs : s.EventsKept := by
    refine h.keeps EventsKept ?_ rfl
    intro s a t hs ⟨hfit, hstep⟩
    exact (step_iff_eventsFit hs hstep).mpr hfit
  exact ⟨hs.received_prefix, hs, fun a t hstep => step_iff_eventsFit hs hstep⟩

/-! ### Rounds of a request -/

/-- A read into the page is queued and completed with the status. -/
def roundActs (status : UInt32) : List FileAct :=
  [.transfer pageRead (readyEnv 0) none, .giveBack 0 status 100, .taskProc 0]

/-- The event of the read. -/
def roundEvent (status : UInt32) : UsbFnReqEvent := { buf := 65636, actual := 100, status }

/-- A file with the page mapped and no request pending. -/
def idleFile (next : Nat) (freed : List Nat)
    (reqEventFifo : Kfifo UInt8 (maxRequest * usbFnReqEventSize))
    (completed : List UsbFnReqEvent) (delivered : Bytes) : FuncFile where
  kind := .epfile false false
  memoryList := [pageVma.area 1048576]
  sync := none
  busy := false
  list := []
  queued := []
  done := []
  freed := freed
  next := next
  held := []
  reqEventFifo := reqEventFifo
  touched := false
  completed := completed
  delivered := delivered

/-- The request of the read. -/
def roundRequest (id : Nat) : AsyncRequest where
  buf := 65636
  len := 100
  req := { buf := 1048676, length := 100 }
  area := pageVma.area 1048576
  id := id

section Rounds

variable {next : Nat} {freed : List Nat}
  {reqEventFifo : Kfifo UInt8 (maxRequest * usbFnReqEventSize)} {completed : List UsbFnReqEvent}
  {delivered : Bytes}

theorem step_pageRead :
  (idleFile next freed reqEventFifo completed delivered).step
      (.transfer pageRead (readyEnv 0) none)
    = some { idleFile (next + 1) freed reqEventFifo completed delivered with
        list := [roundRequest next]
        queued := [roundRequest next] }
  := by
  let epfile : Epfile := { memoryList := [pageVma.area 1048576], in_ := false, isoc := false }
  let call : IorwCall := .epfile epfile pageRead (readyEnv 0) none
  have hreq : call.request = some { buf := 1048676, length := 100 } := by decide
  have harea : call.area = some (pageVma.area 1048576) := by decide
  have hcall : (idleFile next freed reqEventFifo completed delivered).iorwCall pageRead
    (readyEnv 0) none = call := rfl
  simp only [step, iorw, hcall, hreq, harea]
  rfl

/-- A round puts its event into the fifo, and leaves no request behind. -/
theorem run_round (status : UInt32) :
  Run (fun s a t => s.step a = some t) (idleFile next freed reqEventFifo completed delivered)
    (roundActs status)
    (idleFile (next + 1) (next :: freed) (reqEventFifo.put (roundEvent status).bytes)
      (completed ++ [roundEvent status]) delivered)
  := by
  refine .cons step_pageRead (.cons rfl (.cons ?_ (.nil _)))
  simp [step, idleFile, giveBack, taskProc, GivenBack.event, roundRequest, roundEvent]

/-- As long as their events fit, rounds put them into the fifo one after the other. -/
theorem run_rounds (statuses : List UInt32)
    (hfits : statuses.length * usbFnReqEventSize ≤ reqEventFifo.avail) :
  ∃ freed' fifo', Run (fun s a t => s.step a = some t)
      (idleFile next freed reqEventFifo completed delivered) (statuses.flatMap roundActs)
      (idleFile (next + statuses.length) freed' fifo' (completed ++ statuses.map roundEvent)
        delivered)
    ∧ fifo'.items
      = reqEventFifo.items ++ (statuses.map roundEvent).flatMap UsbFnReqEvent.bytes
  := by
  induction statuses generalizing next freed reqEventFifo completed with
  | nil => exact ⟨freed, reqEventFifo, by simpa using Run.nil _, by simp⟩
  | cons status statuses ih =>
      have hlen := (roundEvent status).length_bytes
      rw [List.length_cons, Nat.succ_mul] at hfits
      have hitems : (reqEventFifo.put (roundEvent status).bytes).items
          = reqEventFifo.items ++ (roundEvent status).bytes := Kfifo.items_put (by omega)
      have havail := reqEventFifo.avail_put (roundEvent status).bytes
      obtain ⟨freed', fifo', hrun, hfifo⟩ := @ih (next + 1) (next :: freed)
        (reqEventFifo.put (roundEvent status).bytes) (completed ++ [roundEvent status]) (by omega)
      rw [List.append_assoc, Nat.add_assoc, Nat.add_comm 1] at hrun
      refine ⟨freed', fifo', (run_round status).append hrun, ?_⟩
      rw [hfifo, hitems, List.append_assoc]
      rfl

/-- A read of `n` bytes that are there. -/
theorem step_readEvents {n : Nat} (hn : n ≤ reqEventFifo.items.length) :
  (idleFile next freed reqEventFifo completed delivered).step (.readEvents n n)
    = some (idleFile next freed (reqEventFifo.drop n) completed
        (delivered ++ reqEventFifo.items.take n))
  := by
  have hmin : min n reqEventFifo.items.length = n := Nat.min_eq_left hn
  simp [step, readEvents, idleFile, hmin]

end Rounds

/-- A read into the page is queued and completed, and user space reads half of its event. -/
theorem completions_delivered_half :
  ∃ s, Run (fun s a t => s.EventsFit a ∧ s.step a = some t) (funcFileNew (.epfile false false))
      ([.mmap pageVma (some 1048576)] ++ roundActs 0 ++ [.readEvents 8 8]) s
    ∧ s.delivered <+: s.events
  := by
  have hrun : ∃ s, Run (fun s a t => s.EventsFit a ∧ s.step a = some t)
      (funcFileNew (.epfile false false))
      ([.mmap pageVma (some 1048576)] ++ roundActs 0 ++ [.readEvents 8 8]) s := by
    have hfits : usbFnReqEventSize ≤ (Kfifo.empty : Kfifo UInt8 1024).avail := by decide
    exact ⟨_, .cons ⟨trivial, rfl⟩ (.cons ⟨trivial, @step_pageRead 0 _ _ _ _⟩
      (.cons ⟨nofun, rfl⟩ (.cons ⟨hfits, rfl⟩ (.cons ⟨.inl rfl, rfl⟩ (.nil _)))))⟩
  obtain ⟨s, hrun⟩ := hrun
  exact ⟨s, hrun, (completions_delivered hrun).1⟩

/-! ### Too many completions -/

/-- 64 reads are completed with status 0 and one with status 1 before user space reads their
events, and then one with status 2, whose event user space reads. -/
def overrunActs : List FileAct :=
  [.mmap pageVma (some 1048576)] ++ (List.replicate maxRequest 0).flatMap roundActs
    ++ roundActs 1 ++ [.readEvents 1024 1024] ++ roundActs 2 ++ [.readEvents 16 16]

/-- The run delivers the first 64 events and the last one. -/
theorem run_overrun :
  ∃ s head, Run (fun s a t => s.step a = some t) (funcFileNew (.epfile false false)) overrunActs s
    ∧ head.length = 1024 ∧ s.delivered = head ++ (roundEvent 2).bytes
    ∧ s.events = head ++ ((roundEvent 1).bytes ++ (roundEvent 2).bytes)
  := by
  obtain ⟨freed, fifo, hrun, hitems⟩ := @run_rounds 0 [] .empty [] []
    (List.replicate maxRequest 0) (by decide)
  let head := ((List.replicate maxRequest 0).map roundEvent).flatMap UsbFnReqEvent.bytes
  have hhead : head.length = 1024 := by
    simp [head, maxRequest, usbFnReqEventSize]
  have havail : fifo.avail = 0 := by
    simp only [Kfifo.avail, hitems, Kfifo.items_empty, List.nil_append]
    rw [hhead]
    rfl
  let full := fifo.put (roundEvent 1).bytes
  have hfull : full.items = head := (Kfifo.items_put_full havail _).trans hitems
  have hempty : (full.drop 1024).items = [] := by
    rw [Kfifo.items_drop, hfull]
    apply List.drop_eq_nil_of_le (Nat.le_of_eq hhead)
  let last := (full.drop 1024).put (roundEvent 2).bytes
  have hlast : last.items = (roundEvent 2).bytes := by
    rw [Kfifo.items_put, hempty, List.nil_append]
    simp only [Kfifo.avail, hempty]
    decide
  have hstart : Run (fun s a t => s.step a = some t) (funcFileNew (.epfile false false))
      [.mmap pageVma (some 1048576)] (idleFile 0 [] .empty [] []) := .cons rfl (.nil _)
  let completed := (List.replicate maxRequest 0).map roundEvent ++ [roundEvent 1]
  have hread : Run (fun s a t => s.step a = some t) (idleFile 65 (64 :: freed) full completed [])
      [.readEvents 1024 1024]
      (idleFile 65 (64 :: freed) (full.drop 1024) completed (full.items.take 1024)) :=
    .cons (step_readEvents (by rw [hfull]; exact Nat.le_of_eq hhead.symm)) (.nil _)
  have hreadLast : Run (fun s a t => s.step a = some t)
      (idleFile 66 (65 :: 64 :: freed) last (completed ++ [roundEvent 2]) (full.items.take 1024))
      [.readEvents 16 16]
      (idleFile 66 (65 :: 64 :: freed) (last.drop 16) (completed ++ [roundEvent 2])
        (full.items.take 1024 ++ last.items.take 16)) :=
    .cons (step_readEvents (by rw [hlast]; decide)) (.nil _)
  refine ⟨_, head, ((((hstart.append hrun).append (run_round 1)).append hread).append
    (run_round 2)).append hreadLast, hhead, ?_, ?_⟩
  · simp only [idleFile]
    rw [hfull, hlast, List.take_of_length_le (Nat.le_of_eq hhead)]
    rfl
  · simp only [events, idleFile, completed, head, List.flatMap_append, List.flatMap_singleton,
      List.append_assoc]

/-- The event of the 65th request is lost: what user space reads after the first 64 is the
event of the 66th. -/
theorem overrun_loses_event :
  ∃ s, Run (fun s a t => s.step a = some t) (funcFileNew (.epfile false false)) overrunActs s
    ∧ ¬s.delivered <+: s.events
  := by
  obtain ⟨s, head, hrun, -, hdelivered, hevents⟩ := run_overrun
  refine ⟨s, hrun, fun hprefix => ?_⟩
  rw [hdelivered, hevents, List.prefix_append_right_inj] at hprefix
  revert hprefix
  decide

end FuncFile
end Ffs
