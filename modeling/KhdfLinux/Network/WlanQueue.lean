import KhdfLinux.Lib.Cells
import KhdfLinux.Lib.Machine
import KhdfLinux.Lib.Ring
import KhdfLinux.Hdf.Base

/-!
# The queue of the wlan platform

A queue of pointers of a fixed size, kept in a ring buffer with a count.  `queue_fifo_iff`: the
calls of a queue give what a bounded fifo gives as long as nothing is pushed onto a full queue, and
no null pointer is popped; the code a push returns is that of the unlocking, also when the queue is
full.
-/

namespace Wlan

open Exec

/-! ### The queue -/

/-- `HdfWlanQueueImpl`, with the pointers to `α`; a null pointer is `none`. -/
structure HdfWlanQueueImpl (α : Type) where
  elementCount : Nat
  maxElements : Nat
  tailIndex : Nat
  headIndex : Nat
  elements : List (Option α)

/-- The codes of the locking and of the unlocking of the mutex. -/
structure MutexCodes where
  lock : Int
  unlock : Int

variable {α : Type}

/-- `MAX_QUEUE_SIZE`. -/
def maxQueueSizeLimit : Nat := 30000

/-- `CreateQueue`, with the outcome of the allocation and the code of the initialisation of the
mutex. -/
def createQueue (calloc : Bool) (mutexInit : Int) (maxQueueSize : Nat) :
    Option (HdfWlanQueueImpl α) :=
  if maxQueueSizeLimit < maxQueueSize then none
  else if ¬calloc then none
  else if mutexInit ≠ Hdf.success then none
  else some ⟨0, maxQueueSize, 0, 0, List.replicate maxQueueSize none⟩

/-- `PopQueue`. -/
def popQueue (codes : MutexCodes) : Exec (HdfWlanQueueImpl α) (Option α) := do
  if codes.lock ≠ Hdf.success then
    pure none
  else
    let impl ← get
    if 0 < impl.elementCount then
      match impl.elements[impl.headIndex]? with
      | none => stop (.fault .outOfBounds)
      | some result =>
          let headIndex := u16 (impl.headIndex + 1)
          set { impl with
            headIndex := if impl.maxElements ≤ headIndex then 0 else headIndex
            elementCount := u16 ((impl.elementCount : Int) - 1) }
          pure result
    else
      pure none

/-- `PushQueue`. -/
def pushQueue (codes : MutexCodes) (context : Option α) : Exec (HdfWlanQueueImpl α) Int := do
  if codes.lock ≠ Hdf.success then
    pure Hdf.failure
  else
    let impl ← get
    if impl.elementCount < impl.maxElements then
      Cells.write impl.elements impl.tailIndex context fun elements impl => { impl with elements }
      let tailIndex := u16 (impl.tailIndex + 1)
      modify fun impl =>
        { impl with
          tailIndex := if impl.maxElements ≤ tailIndex then 0 else tailIndex
          elementCount := u16 (impl.elementCount + 1) }
    -- for a full queue `ret` is `HDF_FAILURE` here; the code of the unlocking replaces it
    pure codes.unlock

/-! ### Calls -/

/-- A call of a queue. -/
inductive QueueCall (α : Type) where
  | push (context : Option α)
  | pop

/-- What a call returns. -/
inductive QueueResult (α : Type) where
  | status (ret : Int)
  | element (result : Option α)

/-- The mutex is locked and unlocked. -/
def lockOk : MutexCodes := ⟨Hdf.success, Hdf.success⟩

/-- A call of a queue whose mutex is locked and unlocked. -/
def QueueCall.run : QueueCall α → Exec (HdfWlanQueueImpl α) (QueueResult α)
  | push context => .status <$> pushQueue lockOk context
  | pop => .element <$> popQueue lockOk

/-- A fifo of `cap` elements: what a call returns, and the elements it leaves. -/
def fifoCall (cap : Nat) (items : List (Option α)) :
    QueueCall α → QueueResult α × List (Option α)
  | .push context =>
      if items.length < cap then (.status Hdf.success, items ++ [context])
      else (.status Hdf.failure, items)
  | .pop =>
      match items with
      | [] => (.element none, [])
      | result :: items => (.element result, items)

/-- The indices are below the size, and the count is their distance, or the size. -/
structure HdfWlanQueueImpl.Indexed (impl : HdfWlanQueueImpl α) : Prop where
  head_lt : impl.headIndex < impl.maxElements
  tail_lt : impl.tailIndex < impl.maxElements
  count : impl.elementCount
      = (impl.tailIndex + (impl.maxElements - impl.headIndex)) % impl.maxElements
    ∨ impl.elementCount = impl.maxElements ∧ impl.tailIndex = impl.headIndex

/-- The calls give what they give on the fifo with the elements `items`, null is popped from an
empty queue only, and the indices are in order before and after each call. -/
def ActsAsFifo (impl : HdfWlanQueueImpl α) (items : List (Option α)) : List (QueueCall α) → Prop
  | [] => impl.Indexed
  | call :: calls =>
      impl.Indexed
        ∧ ∃ result next, call.run.run impl = .ok result next
          ∧ result = (fifoCall impl.maxElements items call).1
          ∧ (result = .element none → items = [])
          ∧ ActsAsFifo next (fifoCall impl.maxElements items call).2 calls

/-- Nothing is pushed when the fifo with the elements `items` is full, and no null pointer is
popped. -/
def FitsFifo (cap : Nat) (items : List (Option α)) : List (QueueCall α) → Prop
  | [] => True
  | .push context :: calls => items.length < cap ∧ FitsFifo cap (items ++ [context]) calls
  | .pop :: calls =>
      match items with
      | [] => FitsFifo cap [] calls
      | result :: items => result ≠ none ∧ FitsFifo cap items calls

/-! ### What the queue holds -/

/-- The queue holds the elements `items`. -/
structure HdfWlanQueueImpl.Holds (impl : HdfWlanQueueImpl α) (items : List (Option α)) : Prop where
  ring : Ring.Holds impl.elements impl.headIndex impl.tailIndex items
  length : impl.elements.length = impl.maxElements
  count : impl.elementCount = items.length
  max_le : impl.maxElements ≤ maxQueueSizeLimit

section Holds

variable {impl : HdfWlanQueueImpl α} {items : List (Option α)} {calls : List (QueueCall α)}
  {maxQueueSize : Nat} {calloc : Bool} {mutexInit : Int}

theorem createQueue_eq_some (h : createQueue calloc mutexInit maxQueueSize = some impl) :
  maxQueueSize ≤ maxQueueSizeLimit
    ∧ impl = ⟨0, maxQueueSize, 0, 0, List.replicate maxQueueSize none⟩
  := by
  unfold createQueue at h
  split_ifs at h with hmax
  exact ⟨Nat.not_lt.mp hmax, (Option.some.inj h).symm⟩

/-- A new queue is empty. -/
theorem holds_createQueue (h : createQueue calloc mutexInit maxQueueSize = some impl)
    (hmax : 0 < maxQueueSize) :
  impl.Holds []
  := by
  obtain ⟨hle, rfl⟩ := createQueue_eq_some h
  constructor
  · apply Ring.Holds.empty
    rw [List.length_replicate]
    apply hmax
  · apply List.length_replicate
  · rfl
  · apply hle

/-- What holds of the indices of a queue. -/
theorem HdfWlanQueueImpl.Holds.indexed (h : impl.Holds items) :
  impl.Indexed
  := by
  have hhead := h.ring.head_lt
  have htail := h.ring.tail_eq
  rw [h.length] at hhead htail
  refine ⟨hhead, h.length ▸ h.ring.tail_lt, ?_⟩
  have hdistance := Ring.distance_skip (k := items.length) hhead
  rw [← htail] at hdistance
  obtain hlt | heq := Nat.lt_or_eq_of_le (h.length ▸ h.ring.length_le)
  · left
    rw [h.count, hdistance, Nat.mod_eq_of_lt hlt]
  · right
    refine ⟨h.count.trans heq, ?_⟩
    rw [htail, heq]
    unfold Ring.skip
    split <;> omega

/-- A push stores the pointer if the queue is not full, and returns success anyway. -/
theorem HdfWlanQueueImpl.Holds.push (h : impl.Holds items) (context : Option α) :
  ∃ next, (pushQueue lockOk context).run impl = .ok Hdf.success next
    ∧ next.maxElements = impl.maxElements
    ∧ next.Holds (if items.length < impl.maxElements then items ++ [context] else items)
  := by
  by_cases hroom : items.length < impl.maxElements
  · have htail := h.ring.tail_lt
    have hlength := h.length
    have hmax := h.max_le
    have hcount : impl.elementCount < impl.maxElements := h.count ▸ hroom
    simp only [maxQueueSizeLimit] at hmax
    have hindex : u16 ((impl.tailIndex : Int) + 1) = impl.tailIndex + 1 :=
      u16_of_lt (n := impl.tailIndex + 1) (by omega)
    have hcount' : u16 ((impl.elementCount : Int) + 1) = impl.elementCount + 1 :=
      u16_of_lt (n := impl.elementCount + 1) (by omega)
    refine ⟨⟨impl.elementCount + 1, impl.maxElements, Ring.next impl.maxElements impl.tailIndex,
      impl.headIndex, impl.elements.set impl.tailIndex context⟩, ?_, rfl, ?_⟩
    · unfold pushQueue
      rw [if_neg (by decide), EStateM.run_bind, EStateM.run_get]
      dsimp only
      rw [if_pos hcount, EStateM.run_bind, Cells.run_write htail]
      dsimp only
      rw [hindex, EStateM.run_bind, EStateM.run_modify]
      dsimp only
      rw [hcount']
      rfl
    · rw [if_pos hroom]
      have hring := h.ring.push (h.length ▸ hroom) context
      rw [h.length] at hring
      constructor
      · apply hring
      · apply List.length_set.trans h.length
      · rw [List.length_append, List.length_singleton, h.count]
      · apply h.max_le
  · refine ⟨impl, ?_, rfl, ?_⟩
    · unfold pushQueue
      rw [if_neg (by decide), EStateM.run_bind, EStateM.run_get]
      dsimp only
      rw [if_neg (by rw [h.count]; exact hroom)]
      rfl
    · rw [if_neg hroom]
      apply h

/-- A pop takes the first pointer, if there is one. -/
theorem HdfWlanQueueImpl.Holds.pop (h : impl.Holds items) :
  ∃ next, (popQueue lockOk).run impl = .ok items.head?.join next
    ∧ next.maxElements = impl.maxElements ∧ next.Holds items.tail
  := by
  cases items with
  | nil =>
      refine ⟨impl, ?_, rfl, h⟩
      unfold popQueue
      rw [if_neg (by decide), EStateM.run_bind, EStateM.run_get]
      dsimp only
      rw [if_neg (by rw [h.count]; exact Nat.lt_irrefl 0)]
      rfl
  | cons result items =>
      have hhead := h.ring.head_lt
      have hlength := h.length
      have hmax := h.max_le
      have hlt : items.length < impl.elements.length := h.ring.length_le
      have hcount : impl.elementCount = items.length + 1 := h.count
      simp only [maxQueueSizeLimit] at hmax
      have hindex : u16 ((impl.headIndex : Int) + 1) = impl.headIndex + 1 :=
        u16_of_lt (n := impl.headIndex + 1) (by omega)
      have hcount' : u16 ((impl.elementCount : Int) - 1) = items.length := by
        rw [hcount, Int.natCast_add, Int.natCast_one, Int.add_sub_cancel]
        exact u16_of_lt (by omega)
      refine ⟨⟨items.length, impl.maxElements, impl.tailIndex,
        Ring.next impl.maxElements impl.headIndex, impl.elements⟩, ?_, rfl, ?_⟩
      · unfold popQueue
        rw [if_neg (by decide), EStateM.run_bind, EStateM.run_get]
        dsimp only
        rw [if_pos (by omega), h.ring.first]
        dsimp only
        rw [hindex, hcount']
        rfl
      · have hring := h.ring.pop
        rw [h.length] at hring
        constructor
        · apply hring
        · apply h.length
        · rfl
        · apply h.max_le

/-! ### Runs -/

/-- The first call of a run. -/
theorem actsAsFifo_cons {call : QueueCall α} {result : QueueResult α} {next : HdfWlanQueueImpl α}
    (h : call.run.run impl = .ok result next) :
  ActsAsFifo impl items (call :: calls)
    ↔ impl.Indexed ∧ result = (fifoCall impl.maxElements items call).1
      ∧ (result = .element none → items = [])
      ∧ ActsAsFifo next (fifoCall impl.maxElements items call).2 calls
  := by
  rw [ActsAsFifo, h]
  constructor
  · rintro ⟨hindexed, _, _, heq, hrest⟩
    obtain ⟨rfl, rfl⟩ := EStateM.Result.ok.inj heq
    exact ⟨hindexed, hrest⟩
  · rintro ⟨hindexed, hrest⟩
    exact ⟨hindexed, _, _, rfl, hrest⟩

/-- A queue acts as a fifo exactly as long as the calls fit. -/
theorem HdfWlanQueueImpl.Holds.actsAsFifo_iff (h : impl.Holds items) :
  ActsAsFifo impl items calls ↔ FitsFifo impl.maxElements items calls
  := by
  induction calls generalizing impl items with
  | nil => exact iff_of_true h.indexed trivial
  | cons call calls ih =>
      cases call with
      | push context =>
          obtain ⟨next, hrun, hmax, hnext⟩ := h.push context
          have hcall : (QueueCall.push context).run.run impl
              = .ok (.status Hdf.success) next := by
            unfold QueueCall.run
            rw [run_map, hrun]
          rw [actsAsFifo_cons hcall, FitsFifo, fifoCall]
          by_cases hroom : items.length < impl.maxElements
          · rw [if_pos hroom] at hnext
            rw [if_pos hroom, ih hnext, hmax]
            constructor
            · rintro ⟨-, -, -, hrest⟩
              exact ⟨hroom, hrest⟩
            · rintro ⟨-, hrest⟩
              exact ⟨h.indexed, rfl, fun heq => (by cases heq), hrest⟩
          · rw [if_neg hroom]
            refine iff_of_false ?_ fun hfits => hroom hfits.1
            rintro ⟨-, hstatus, -⟩
            exact absurd (QueueResult.status.inj hstatus) (by decide)
      | pop =>
          obtain ⟨next, hrun, hmax, hnext⟩ := h.pop
          have hcall : (QueueCall.pop : QueueCall α).run.run impl
              = .ok (.element items.head?.join) next := by
            unfold QueueCall.run
            rw [run_map, hrun]
          rw [actsAsFifo_cons hcall]
          cases items with
          | nil =>
              rw [List.tail_nil] at hnext
              rw [FitsFifo, fifoCall, ih hnext, hmax]
              exact ⟨fun hacts => hacts.2.2.2, fun hrest => ⟨h.indexed, rfl, fun _ => rfl, hrest⟩⟩
          | cons result items =>
              rw [List.tail_cons] at hnext
              rw [FitsFifo, fifoCall, ih hnext, hmax]
              constructor
              · rintro ⟨-, -, hnull, hrest⟩
                refine ⟨?_, hrest⟩
                rintro rfl
                cases hnull rfl
              · rintro ⟨hne, hrest⟩
                exact ⟨h.indexed, rfl, fun heq => absurd (QueueResult.element.inj heq) hne, hrest⟩

/-- A queue without room has no indices that are in order. -/
theorem not_actsAsFifo_of_zero (h : impl.maxElements = 0) :
  ¬ActsAsFifo impl items calls
  := by
  intro hacts
  have hindexed : impl.Indexed := by
    cases calls with
    | nil => exact hacts
    | cons call calls => exact hacts.1
  exact absurd hindexed.head_lt (by omega)

/-- A new queue acts as a fifo of its size exactly if it has room, nothing is pushed onto a full
queue, and no null pointer is popped. -/
theorem queue_fifo_iff (h : createQueue calloc mutexInit maxQueueSize = some impl) :
  ActsAsFifo impl [] calls ↔ 0 < maxQueueSize ∧ FitsFifo maxQueueSize [] calls
  := by
  have hmax : impl.maxElements = maxQueueSize := by
    obtain ⟨-, rfl⟩ := createQueue_eq_some h
    rfl
  obtain hzero | hpos := Nat.eq_zero_or_pos maxQueueSize
  · refine iff_of_false (not_actsAsFifo_of_zero (hmax.trans hzero)) fun hfits => ?_
    omega
  · rw [(holds_createQueue h hpos).actsAsFifo_iff, hmax]
    exact (and_iff_right hpos).symm

/-- Two pointers are pushed onto a queue of two, and popped. -/
theorem queue_fifo_iff_two :
  ∃ impl : HdfWlanQueueImpl Nat, createQueue true Hdf.success 2 = some impl
    ∧ ActsAsFifo impl [] [.push (some 5), .push (some 6), .pop, .pop, .pop]
  := by
  have hcreate : createQueue true Hdf.success 2
      = some (⟨0, 2, 0, 0, List.replicate 2 none⟩ : HdfWlanQueueImpl Nat) := rfl
  exact ⟨_, hcreate, (queue_fifo_iff hcreate).mpr (by simp [FitsFifo])⟩

/-- A push onto a full queue returns success. -/
theorem queue_not_fifo :
  ∃ impl : HdfWlanQueueImpl Nat, createQueue true Hdf.success 1 = some impl
    ∧ ¬ActsAsFifo impl [] [.push (some 5), .push (some 6)]
    ∧ ∃ t, ([QueueCall.push (some 5), .push (some 6), .pop, .pop].mapM QueueCall.run).run impl
      = .ok [.status Hdf.success, .status Hdf.success, .element (some 5), .element none] t
  := by
  refine ⟨_, rfl, ?_, _, rfl⟩
  rintro ⟨-, _, _, hfirst, -, -, -, _, _, hsecond, hstatus, -⟩
  cases hfirst
  cases hsecond
  exact absurd (QueueResult.status.inj hstatus) (by decide)

end Holds

end Wlan
