import Mathlib.Data.Prod.Basic
import Mathlib.Logic.Function.Basic
import Mathlib.Tactic.SplitIfs

/-!
# Blocks of a table

A function on rows of places, with the values at consecutive places of one row replaced.  A block is
built up at its end, or from its start, place by place, and a block over the same places hides it.
-/

namespace Function

variable {ι α : Type} [DecidableEq ι]

/-- `f` with the values `g` at the `n` places of the row from `start` on. -/
def fill (f : ι × Nat → α) (row : ι) (start n : Nat) (g : Nat → α) : ι × Nat → α := fun x =>
  if x.1 = row ∧ start ≤ x.2 ∧ x.2 < start + n then g x.2 else f x

variable {f : ι × Nat → α} {row : ι} {start n : Nat} {g g' : Nat → α}

theorem fill_apply_of_mem {i : Nat} (hi : start ≤ i ∧ i < start + n) :
  fill f row start n g (row, i) = g i
  := if_pos ⟨rfl, hi⟩

theorem fill_apply_of_not_mem {i : Nat} (hi : i < start ∨ start + n ≤ i) :
  fill f row start n g (row, i) = f (row, i)
  := if_neg fun h => by
    have hin : start ≤ i ∧ i < start + n := h.2
    omega

theorem fill_apply_of_ne {x : ι × Nat} (hx : x.1 ≠ row) :
  fill f row start n g x = f x
  := if_neg fun h => hx h.1

variable (f row start n g g')

theorem fill_zero :
  fill f row start 0 g = f
  := by
  funext x
  apply if_neg
  rintro ⟨-, h⟩
  omega

/-- The place after the block. -/
theorem update_fill :
  update (fill f row start n g) (row, start + n) (g (start + n)) = fill f row start (n + 1) g
  := by
  funext ⟨i, j⟩
  rw [update_apply]
  by_cases hi : i = row
  · subst hi
    by_cases hj : j = start + n
    · subst hj
      rw [if_pos rfl, fill_apply_of_mem]
      omega
    · rw [if_neg fun h => hj (Prod.ext_iff.mp h).2]
      by_cases hin : start ≤ j ∧ j < start + n
      · rw [fill_apply_of_mem hin, fill_apply_of_mem]
        omega
      · rw [fill_apply_of_not_mem, fill_apply_of_not_mem]
        · omega
        · omega
  · rw [if_neg fun h => hi (Prod.ext_iff.mp h).1, fill_apply_of_ne hi,
      fill_apply_of_ne hi]

/-- The place before the block. -/
theorem fill_update :
  fill (update f (row, start) (g start)) row (start + 1) n g = fill f row start (n + 1) g
  := by
  funext ⟨i, j⟩
  by_cases hi : i = row
  · subst hi
    by_cases hin : start + 1 ≤ j ∧ j < start + 1 + n
    · rw [fill_apply_of_mem hin, fill_apply_of_mem]
      omega
    · rw [fill_apply_of_not_mem]
      · rw [update_apply]
        by_cases hj : j = start
        · subst hj
          rw [if_pos rfl, fill_apply_of_mem]
          omega
        · rw [if_neg fun h => hj (Prod.ext_iff.mp h).2, fill_apply_of_not_mem]
          omega
      · omega
  · rw [fill_apply_of_ne hi, fill_apply_of_ne hi, update_apply,
      if_neg fun h => hi (Prod.ext_iff.mp h).1]

/-- A block hides the one that was there. -/
theorem fill_fill :
  fill (fill f row start n g) row start n g' = fill f row start n g'
  := by
  funext x
  unfold fill
  split_ifs
  · rfl
  · rfl

/-- A block of the values that were there changes nothing. -/
theorem fill_eq_self (h : ∀ i, start ≤ i → i < start + n → f (row, i) = g i) :
  fill f row start n g = f
  := by
  funext ⟨i, j⟩
  by_cases hi : i = row
  · subst hi
    by_cases hin : start ≤ j ∧ j < start + n
    · rw [fill_apply_of_mem hin, h j hin.1 hin.2]
    · apply fill_apply_of_not_mem
      omega
  · apply fill_apply_of_ne hi

end Function
