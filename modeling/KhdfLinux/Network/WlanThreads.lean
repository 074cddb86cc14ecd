import KhdfLinux.Lib.Critical
import KhdfLinux.Network.WlanQueue

/-!
# The queue of the wlan platform, under threads

`PushQueue` and `PopQueue` access by access, called by any threads, the accesses of the threads
interleaved in any way that the mutex of the queue allows.  `queue_linearizable`: the calls return
what they return when each is made at once, while it has the mutex, on a fifo that drops what does
not fit, and no access is outside the array.
-/

namespace Wlan

variable {α τ : Type}

/-! ### The accesses -/

/-- The next access of a call with the mutex, with the local variables that are used later. -/
inductive QueuePoint (α : Type) where
  | pushTests (context : Option α)
  | pushReads (context : Option α)
  | pushStores (context : Option α) (tailIndex : Nat)
  | pushMoves (tailIndex : Nat)
  | pushLoads
  | pushCounts (elementCount : Nat)
  | popTests
  | popReads
  | popTakes (headIndex : Nat)
  | popMoves (result : Option α) (headIndex : Nat)
  | popLoads (result : Option α)
  | popCounts (result : Option α) (elementCount : Nat)

/-- `PushQueue` and `PopQueue` between the locking and the unlocking. -/
def QueuePoint.step (impl : HdfWlanQueueImpl α) :
    QueuePoint α → Option (HdfWlanQueueImpl α × (QueuePoint α ⊕ QueueResult α))
  | .pushTests context =>
      -- what `ret` is here for a full queue is lost: the unlocking assigns it again
      if impl.maxElements ≤ impl.elementCount then some (impl, .inr (.status Hdf.success))
      else some (impl, .inl (.pushReads context))
  | .pushReads context => some (impl, .inl (.pushStores context impl.tailIndex))
  | .pushStores context tailIndex =>
      if tailIndex < impl.elements.length then
        some ({ impl with elements := impl.elements.set tailIndex context },
          .inl (.pushMoves (u16 (tailIndex + 1))))
      else none
  | .pushMoves tailIndex =>
      some ({ impl with tailIndex := if impl.maxElements ≤ tailIndex then 0 else tailIndex },
        .inl .pushLoads)
  | .pushLoads => some (impl, .inl (.pushCounts impl.elementCount))
  | .pushCounts elementCount =>
      some ({ impl with elementCount := u16 (elementCount + 1) }, .inr (.status Hdf.success))
  | .popTests =>
      if 0 < impl.elementCount then some (impl, .inl .popReads)
      else some (impl, .inr (.element none))
  | .popReads => some (impl, .inl (.popTakes impl.headIndex))
  | .popTakes headIndex =>
      match impl.elements[headIndex]? with
      | none => none
      | some result => some (impl, .inl (.popMoves result (u16 (headIndex + 1))))
  | .popMoves result headIndex =>
      some ({ impl with headIndex := if impl.maxElements ≤ headIndex then 0 else headIndex },
        .inl (.popLoads result))
  | .popLoads result => some (impl, .inl (.popCounts result impl.elementCount))
  | .popCounts result elementCount =>
      some ({ impl with elementCount := u16 ((elementCount : Int) - 1) }, .inr (.element result))

/-- The calls of a queue.  The mutex is there as long as the queue is, so that it is always
locked. -/
def queueCritical : Critical (HdfWlanQueueImpl α) (QueueCall α) (QueuePoint α) (QueueResult α) where
  enter
    | .push context => .pushTests context
    | .pop => .popTests
  step point impl := point.step impl

/-- A call of a fifo of `cap` elements that drops what does not fit: what it leaves, and what it
returns. -/
def lossyCall (cap : Nat) : QueueCall α → List (Option α) → List (Option α) × QueueResult α
  | .push context, items =>
      (if items.length < cap then items ++ [context] else items, .status Hdf.success)
  | .pop, items => (items.tail, .element items.head?.join)

/-- The queue is what is left of the fifo with the elements `items`; one without room has no
indices that are in order. -/
structure HdfWlanQueueImpl.Keeps (cap : Nat) (impl : HdfWlanQueueImpl α)
    (items : List (Option α)) : Prop where
  max_eq : impl.maxElements = cap
  holds : impl.Holds items ∨ cap = 0 ∧ impl.elementCount = 0 ∧ items = []

/-! ### A call with no other thread -/

section Alone

variable {impl next : HdfWlanQueueImpl α} {items : List (Option α)} {cap : Nat}

/-- The accesses of a push do what `PushQueue` does. -/
theorem finishes_push {context : Option α} {ret : Int}
    (h : (pushQueue lockOk context).run impl = .ok ret next) :
  queueCritical.Finishes (.pushTests context) impl next (.status ret)
  := by
  unfold pushQueue at h
  rw [if_neg (by decide), EStateM.run_bind, EStateM.run_get] at h
  dsimp only at h
  split_ifs at h with hroom
  · obtain hlt | hge := Nat.lt_or_ge impl.tailIndex impl.elements.length
    · rw [EStateM.run_bind, Cells.run_write hlt] at h
      cases h
      exact .more (if_neg (Nat.not_le.mpr hroom)) <| .more rfl <| .more (if_pos hlt) <|
        .more rfl <| .more rfl <| .last rfl
    · rw [EStateM.run_bind, Cells.write, if_neg (Nat.not_lt.mpr hge)] at h
      cases h
  · cases h
    exact .last (if_pos (Nat.not_lt.mp hroom))

/-- The accesses of a pop do what `PopQueue` does. -/
theorem finishes_pop {result : Option α} (h : (popQueue lockOk).run impl = .ok result next) :
  queueCritical.Finishes .popTests impl next (.element result)
  := by
  unfold popQueue at h
  rw [if_neg (by decide), EStateM.run_bind, EStateM.run_get] at h
  dsimp only at h
  by_cases hcount : 0 < impl.elementCount
  · rw [if_pos hcount] at h
    cases hread : impl.elements[impl.headIndex]? with
    | none =>
        rw [hread] at h
        cases h
    | some taken =>
        rw [hread] at h
        cases h
        have htake : QueuePoint.step impl (.popTakes impl.headIndex)
            = some (impl, .inl (.popMoves result (u16 (impl.headIndex + 1)))) := by
          simp only [QueuePoint.step, hread]
        exact .more (if_pos hcount) <| .more rfl <| .more htake <| .more rfl <| .more rfl <|
          .last rfl
  · rw [if_neg hcount] at h
    cases h
    exact .last (if_neg hcount)

/-- A call with no other thread does what it does on the fifo. -/
theorem HdfWlanQueueImpl.Keeps.call (h : impl.Keeps cap items) (call : QueueCall α) :
  ∃ next, queueCritical.Finishes (queueCritical.enter call) impl next (lossyCall cap call items).2
    ∧ next.Keeps cap (lossyCall cap call items).1
  := by
  obtain ⟨hmax, hholds | ⟨hcap, hcount, rfl⟩⟩ := h
  · cases call with
    | push context =>
        obtain ⟨next, hrun, hnextMax, hnext⟩ := hholds.push context
        rw [hmax] at hnextMax hnext
        exact ⟨next, finishes_push hrun, hnextMax, .inl hnext⟩
    | pop =>
        obtain ⟨next, hrun, hnextMax, hnext⟩ := hholds.pop
        exact ⟨next, finishes_pop hrun, hnextMax.trans hmax, .inl hnext⟩
  · refine ⟨impl, ?_, hmax, .inr ⟨hcap, hcount, ?_⟩⟩
    · cases call with
      | push context => exact .last (if_pos (by omega))
      | pop => exact .last (if_neg (by omega))
    · cases call with
      | push context => exact if_neg (by simp [hcap])
      | pop => rfl

/-- A new queue is the empty fifo. -/
theorem keeps_createQueue {maxQueueSize : Nat} {calloc : Bool} {mutexInit : Int}
    (h : createQueue calloc mutexInit maxQueueSize = some impl) :
  impl.Keeps maxQueueSize []
  := by
  obtain hzero | hpos := Nat.eq_zero_or_pos maxQueueSize
  · obtain ⟨-, rfl⟩ := createQueue_eq_some h
    exact ⟨rfl, .inr ⟨hzero, rfl, rfl⟩⟩
  · refine ⟨?_, .inl (holds_createQueue h hpos)⟩
    obtain ⟨-, rfl⟩ := createQueue_eq_some h
    rfl

end Alone

/-! ### All threads -/

section Threads

variable [DecidableEq τ]

/-- In every run of threads on a new queue the calls return what they return on a fifo of its size
that drops what does not fit, each made at once when it has the mutex; the queue is that fifo
whenever the mutex is free, and no access is outside the array. -/
theorem queue_linearizable {impl : HdfWlanQueueImpl α} {maxQueueSize : Nat} {calloc : Bool}
    {mutexInit : Int} (hcreate : createQueue calloc mutexInit maxQueueSize = some impl)
    {acts : List (Critical.Act τ (QueueCall α) (QueueResult α))}
    {s : Critical.State (HdfWlanQueueImpl α) τ (QueueCall α) (QueuePoint α) (QueueResult α)}
    (hrun : Run queueCritical.Step (.start impl) acts s) :
  (∃ x, Run (Atomic.Step (lossyCall maxQueueSize)) (.start []) (acts.flatMap Critical.Act.atomic) x
      ∧ (s.holder = none → s.shared.Keeps maxQueueSize x.shared))
    ∧ ∀ t point, s.place t = .inside point → queueCritical.step point s.shared ≠ none
  := by
  have hcall : ∀ call (impl : HdfWlanQueueImpl α) items, impl.Keeps maxQueueSize items →
      ∃ next, queueCritical.Finishes (queueCritical.enter call) impl next
        (lossyCall maxQueueSize call items).2
        ∧ next.Keeps maxQueueSize (lossyCall maxQueueSize call items).1 :=
    fun call _ _ h => h.call call
  obtain ⟨x, hx, hlinked⟩ :=
    Critical.linearizable hcall hrun (Critical.linked_start (keeps_createQueue hcreate))
  exact ⟨⟨x, hx, hlinked.free⟩, fun t point hplace => hlinked.step_ne_none hplace⟩

/-- A pop is made before a push has the mutex, and takes what is pushed. -/
theorem queue_linearizable_two :
  ∃ (impl : HdfWlanQueueImpl Nat) (s : Critical.State _ Bool _ _ _)
    (x : Atomic (List (Option Nat)) Bool _ _),
    Run queueCritical.Step (.start impl)
      [.invoke true (.push (some 5)), .invoke false .pop, .acquire true, .work true, .work true,
        .work true, .work true, .work true, .work true, .release true, .acquire false,
        .work false, .work false, .work false, .work false, .work false, .work false,
        .release false, .answer false (.element (some 5)), .answer true (.status 0)] s
    ∧ Run (Atomic.Step (lossyCall 1)) (.start [])
      [.invoke true (.push (some 5)), .invoke false .pop, .commit true, .commit false,
        .answer false (.element (some 5)), .answer true (.status 0)] x
  := by
  have hcreate : createQueue true Hdf.success 1
      = some (⟨0, 1, 0, 0, List.replicate 1 none⟩ : HdfWlanQueueImpl Nat) := rfl
  have hrun : ∃ s : Critical.State _ Bool _ _ _, Run queueCritical.Step
      (.start ⟨0, 1, 0, 0, List.replicate 1 none⟩)
      [.invoke true (.push (some 5)), .invoke false .pop, .acquire true, .work true, .work true,
        .work true, .work true, .work true, .work true, .release true, .acquire false,
        .work false, .work false, .work false, .work false, .work false, .work false,
        .release false, .answer false (.element (some 5)), .answer true (.status 0)] s :=
    ⟨_, .cons (.invoke rfl) <| .cons (.invoke rfl) <| .cons (.acquire rfl rfl) <|
      .cons (.work rfl rfl) <| .cons (.work rfl rfl) <| .cons (.work rfl rfl) <|
      .cons (.work rfl rfl) <| .cons (.work rfl rfl) <| .cons (.work rfl rfl) <|
      .cons (.release rfl) <| .cons (.acquire rfl rfl) <|
      .cons (.work rfl rfl) <| .cons (.work rfl rfl) <| .cons (.work rfl rfl) <|
      .cons (.work rfl rfl) <| .cons (.work rfl rfl) <| .cons (.work rfl rfl) <|
      .cons (.release rfl) <| .cons (.answer rfl) <| .cons (.answer rfl) <| .nil _⟩
  obtain ⟨s, hrun⟩ := hrun
  obtain ⟨x, hx, -⟩ := (queue_linearizable hcreate hrun).1
  exact ⟨_, s, x, hrun, hx⟩

end Threads

end Wlan
