import Mathlib.Logic.Function.Basic
import Mathlib.Data.List.Nodup

/-!
# Semaphores

A counting semaphore with a queue of the threads that wait for it.  A release hands the semaphore
over to the first of them; a thread that is interrupted leaves the queue.
-/

/-- A semaphore, with the threads `ι` that wait for it. -/
structure Semaphore (ι : Type) where
  count : Nat
  waitList : List ι

namespace Semaphore

variable {ι : Type} (s : Semaphore ι) (i : ι)

/-- Take the semaphore, or wait for it. -/
def down : Bool × Semaphore ι :=
  if 0 < s.count then (true, { s with count := s.count - 1 })
  else (false, { s with waitList := s.waitList ++ [i] })

/-- A thread that waits is interrupted. -/
def interrupt [DecidableEq ι] : Semaphore ι := { s with waitList := s.waitList.erase i }

/-- Release the semaphore: the thread that it is handed over to. -/
def up : Option ι × Semaphore ι :=
  match s.waitList with
  | [] => (none, { s with count := s.count + 1 })
  | j :: waitList => (some j, { s with waitList })

/-- Threads wait only while the semaphore is taken, each once. -/
structure Queued : Prop where
  taken : s.waitList ≠ [] → s.count = 0
  nodup : s.waitList.Nodup

variable {s i}

theorem Queued.down (h : s.Queued) (hi : i ∉ s.waitList) :
  (s.down i).2.Queued
  := by
  unfold Semaphore.down
  split
  · next hcount =>
      refine ⟨fun hne => ?_, h.nodup⟩
      rw [h.taken hne] at hcount
      cases hcount
  · next hcount =>
      refine ⟨fun _ => Nat.eq_zero_of_not_pos hcount, ?_⟩
      apply List.nodup_append.mpr
      refine ⟨h.nodup, List.nodup_singleton i, ?_⟩
      intro j hj i' hi' heq
      rw [heq, List.mem_singleton.mp hi'] at hj
      apply hi hj

theorem Queued.up (h : s.Queued) :
  s.up.2.Queued
  := by
  unfold Semaphore.up
  split
  · next hnil => exact ⟨fun hne => absurd hnil hne, h.nodup⟩
  · next j waitList hcons =>
      have hnodup := h.nodup
      rw [hcons] at hnodup
      refine ⟨fun _ => h.taken ?_, (List.nodup_cons.mp hnodup).2⟩
      rw [hcons]
      apply List.cons_ne_nil _ _

end Semaphore
