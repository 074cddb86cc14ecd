import Mathlib.Data.List.TakeDrop

/-!
# Bounded fifos

A fifo that holds at most `size` elements.  What is put in and does not fit is dropped, and
what is taken out comes from the front.  If everything put in has fitted, what was taken out
and what is still there is what was put in.
-/

/-- A fifo of at most `size` elements. -/
structure Kfifo (α : Type) (size : Nat) where
  items : List α
  length_le : items.length ≤ size

namespace Kfifo

variable {α : Type} {size : Nat}

/-- The fifo with nothing in it. -/
def empty : Kfifo α size := ⟨[], Nat.zero_le size⟩

/-- The number of elements that still fit. -/
def avail (fifo : Kfifo α size) : Nat := size - fifo.items.length

/-- `kfifo_in`: as many of the elements as fit. -/
def put (fifo : Kfifo α size) (xs : List α) : Kfifo α size where
  items := fifo.items ++ xs.take fifo.avail
  length_le := by
    have h := fifo.length_le
    simp only [avail, List.length_append, List.length_take]
    omega

/-- The fifo without its first `n` elements. -/
def drop (fifo : Kfifo α size) (n : Nat) : Kfifo α size where
  items := fifo.items.drop n
  length_le := by
    have h := fifo.length_le
    simp only [List.length_drop]
    omega

@[simp] theorem items_empty : (empty : Kfifo α size).items = []
  := rfl

@[simp] theorem items_drop (fifo : Kfifo α size) (n : Nat) :
  (fifo.drop n).items = fifo.items.drop n
  := rfl

/-- What fits is put in whole. -/
theorem items_put {fifo : Kfifo α size} {xs : List α} (h : xs.length ≤ fifo.avail) :
  (fifo.put xs).items = fifo.items ++ xs
  := congrArg (fifo.items ++ ·) (List.take_of_length_le h)

/-- A full fifo drops what is put in. -/
theorem items_put_full {fifo : Kfifo α size} (h : fifo.avail = 0) (xs : List α) :
  (fifo.put xs).items = fifo.items
  := by
  simp [put, h]

/-- What is put in takes room. -/
theorem avail_put (fifo : Kfifo α size) (xs : List α) :
  (fifo.put xs).avail = fifo.avail - xs.length
  := by
  simp only [avail, put, List.length_append, List.length_take]
  omega

/-- Of the elements put in so far, `sent`, the first ones have been taken out, `received`,
and the fifo holds the others. -/
def Carries (fifo : Kfifo α size) (sent received : List α) : Prop :=
  received ++ fifo.items = sent

namespace Carries

variable {fifo : Kfifo α size} {sent received : List α}

theorem received_prefix (h : fifo.Carries sent received) :
  received <+: sent
  := ⟨fifo.items, h⟩

/-- Elements put in keep their place behind the others exactly if all of them fit. -/
theorem put_iff (h : fifo.Carries sent received) (xs : List α) :
  (fifo.put xs).Carries (sent ++ xs) received ↔ xs.length ≤ fifo.avail
  := by
  unfold Carries at h ⊢
  rw [← h, List.append_assoc, List.append_cancel_left_eq, put, List.append_cancel_left_eq,
    List.take_eq_self_iff]

/-- What is taken out follows what was taken out before. -/
theorem take (h : fifo.Carries sent received) (n : Nat) :
  (fifo.drop n).Carries sent (received ++ fifo.items.take n)
  := by
  unfold Carries at h ⊢
  rw [items_drop, List.append_assoc, List.take_append_drop, h]

/-- To drop elements without taking them out loses them. -/
theorem drop_iff (h : fifo.Carries sent received) {n : Nat} (hn : n ≤ fifo.items.length) :
  (fifo.drop n).Carries sent received ↔ n = 0
  := by
  unfold Carries at h ⊢
  rw [← h, List.append_cancel_left_eq, items_drop]
  constructor
  · intro heq
    have hlen := congrArg List.length heq
    rw [List.length_drop] at hlen
    omega
  · rintro rfl
    rfl

end Carries

end Kfifo
