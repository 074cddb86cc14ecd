import Mathlib.Tactic.Common

/-!
# Ring buffers

A list kept in an array, from a head index on and around the end of the array.  `Ring.Holds`
says which list an array with a head and a tail index holds; to write at the tail adds an
element at the end of the list, to move the head on takes the first one away.
-/

namespace Ring

variable {α : Type}

/-- The index after `i`, in an array of `cap` cells. -/
def next (cap i : Nat) : Nat := if cap ≤ i + 1 then 0 else i + 1

/-- The index `k` cells after `i`. -/
def skip (cap i k : Nat) : Nat := if i + k < cap then i + k else i + k - cap

section Indices

variable {cap i k j : Nat}

theorem next_lt (h : 0 < cap) :
  next cap i < cap
  := by
  unfold next
  split
  · apply h
  · omega

theorem skip_lt (hi : i < cap) (hk : k ≤ cap) :
  skip cap i k < cap
  := by
  unfold skip
  split
  · assumption
  · omega

theorem skip_zero (hi : i < cap) :
  skip cap i 0 = i
  := if_pos hi

theorem next_skip (hi : i < cap) (hk : k < cap) :
  next cap (skip cap i k) = skip cap i (k + 1)
  := by
  unfold next skip
  split_ifs <;> omega

theorem skip_next (hi : i < cap) (hk : k < cap) :
  skip cap (next cap i) k = skip cap i (k + 1)
  := by
  unfold next skip
  split_ifs <;> omega

theorem skip_ne (hk : k < cap) (hj : j < cap) (hne : k ≠ j) :
  skip cap i k ≠ skip cap i j
  := by
  unfold skip
  split_ifs <;> omega

/-- The distance between two indices is the number of cells skipped, unless all are. -/
theorem distance_skip (hi : i < cap) :
  (skip cap i k + (cap - i)) % cap = k % cap
  := by
  unfold skip
  split
  · rw [show i + k + (cap - i) = k + cap by omega, Nat.add_mod_right]
  · rw [show i + k - cap + (cap - i) = k by omega]

end Indices

/-- The array holds the list `xs` between the head and the tail. -/
structure Holds (cells : List α) (head tail : Nat) (xs : List α) : Prop where
  head_lt : head < cells.length
  length_le : xs.length ≤ cells.length
  tail_eq : tail = skip cells.length head xs.length
  cell : ∀ (k : Nat) (x : α), xs[k]? = some x → cells[skip cells.length head k]? = some x

namespace Holds

variable {cells xs : List α} {head tail : Nat} {x : α}

theorem tail_lt (h : Holds cells head tail xs) :
  tail < cells.length
  := by
  rw [h.tail_eq]
  apply skip_lt h.head_lt h.length_le

/-- An array with nothing in it. -/
theorem empty (h : 0 < cells.length) :
  Holds cells 0 0 []
  := by
  constructor
  · apply h
  · apply Nat.zero_le _
  · exact (skip_zero h).symm
  · intro k x hx
    cases hx

/-- One element more. -/
theorem push (h : Holds cells head tail xs) (hroom : xs.length < cells.length) (x : α) :
  Holds (cells.set tail x) head (next cells.length tail) (xs ++ [x])
  := by
  constructor
  · rw [List.length_set]
    apply h.head_lt
  · rw [List.length_set, List.length_append, List.length_singleton]
    apply hroom
  · rw [List.length_set, List.length_append, List.length_singleton, h.tail_eq]
    apply next_skip h.head_lt hroom
  · intro k y hy
    rw [List.length_set]
    obtain hk | hk := Nat.lt_or_ge k xs.length
    · rw [List.getElem?_append_left hk] at hy
      have hne : tail ≠ skip cells.length head k := by
        rw [h.tail_eq]
        apply skip_ne hroom (Nat.lt_trans hk hroom) (Nat.ne_of_gt hk)
      rw [List.getElem?_set_ne hne]
      apply h.cell k y hy
    · have hlast : k = xs.length := by
        have hlt := (List.getElem?_eq_some_iff.mp hy).1
        rw [List.length_append, List.length_singleton] at hlt
        omega
      subst hlast
      rw [List.getElem?_concat_length] at hy
      rw [← h.tail_eq, List.getElem?_set_self h.tail_lt]
      apply hy

/-- The first element is at the head. -/
theorem first (h : Holds cells head tail (x :: xs)) :
  cells[head]? = some x
  := by
  have hcell := h.cell 0 x rfl
  rwa [skip_zero h.head_lt] at hcell

/-- One element less. -/
theorem pop (h : Holds cells head tail (x :: xs)) :
  Holds cells (next cells.length head) tail xs
  := by
  have hlen : xs.length < cells.length := h.length_le
  constructor
  · apply next_lt (Nat.zero_lt_of_lt h.head_lt)
  · apply Nat.le_of_lt hlen
  · rw [skip_next h.head_lt hlen]
    apply h.tail_eq
  · intro k y hy
    have hk : k < cells.length := Nat.lt_trans (List.getElem?_eq_some_iff.mp hy).1 hlen
    rw [skip_next h.head_lt hk]
    apply h.cell (k + 1) y hy

end Holds

end Ring
