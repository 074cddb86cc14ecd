import KhdfLinux.Lib.Exec

/-!
# Cells

Arrays that are written one cell after the other: a write outside the array is a fault,
and consecutive writes lay a list over a part of the array.
-/

namespace Cells

open Exec

variable {σ α : Type}

/-- Write `v` into cell `i`; `set` puts the array back into the state. -/
def write (cells : List α) (i : Nat) (v : α) (set : List α → σ → σ) : Exec σ Unit :=
  if i < cells.length then modify (set (cells.set i v)) else stop (.fault .outOfBounds)

theorem run_write {cells : List α} {i : Nat} {v : α} {set : List α → σ → σ} {s : σ}
    (h : i < cells.length) :
  (write cells i v set).run s = .ok () (set (cells.set i v) s)
  := by
  rw [write, if_pos h]
  rfl

/-- The list `ys` over the cells from cell `i` on. -/
def overlay (cells : List α) (i : Nat) : List α → List α
  | [] => cells
  | y :: ys => overlay (cells.set i y) (i + 1) ys

@[simp]
theorem length_overlay (cells : List α) (i : Nat) (ys : List α) :
  (overlay cells i ys).length = cells.length
  := by
  induction ys generalizing cells i with
  | nil => rfl
  | cons y ys ih =>
      rw [overlay, ih]
      simp

/-- One list after the other. -/
theorem overlay_append (cells : List α) (i : Nat) (xs ys : List α) :
  overlay cells i (xs ++ ys) = overlay (overlay cells i xs) (i + xs.length) ys
  := by
  induction xs generalizing cells i with
  | nil => rfl
  | cons x xs ih =>
      rw [List.cons_append, overlay, ih, overlay, List.length_cons,
        show i + 1 + xs.length = i + (xs.length + 1) by omega]

theorem getElem?_overlay_of_lt {cells : List α} {i j : Nat} (ys : List α) (h : j < i) :
  (overlay cells i ys)[j]? = cells[j]?
  := by
  induction ys generalizing cells i with
  | nil => rfl
  | cons y ys ih =>
      rw [overlay, ih (by omega), List.getElem?_set_ne (by omega)]

theorem getElem?_overlay
    {cells : List α} {i : Nat} {ys : List α} (h : i + ys.length ≤ cells.length) {j : Nat}
    (hj : j < ys.length) :
  (overlay cells i ys)[i + j]? = ys[j]?
  := by
  induction ys generalizing cells i j with
  | nil => simp at hj
  | cons y ys ih =>
      rw [List.length_cons] at h hj
      cases j with
      | zero =>
          change (overlay (cells.set i y) (i + 1) ys)[i]? = some y
          rw [getElem?_overlay_of_lt ys (by omega), List.getElem?_set_self (by omega)]
      | succ j =>
          rw [overlay, show i + (j + 1) = i + 1 + j by omega,
            ih (by rw [List.length_set]; omega) (by omega),
            List.getElem?_cons_succ]

/-- A list over all of the array. -/
theorem overlay_eq_self {cells ys : List α} (h : ys.length = cells.length) :
  overlay cells 0 ys = ys
  := by
  apply List.ext_getElem?
  intro j
  by_cases hj : j < ys.length
  · have hget := getElem?_overlay (by omega : 0 + ys.length ≤ cells.length) hj
    rwa [Nat.zero_add] at hget
  · rw [List.getElem?_eq_none (by simp; omega), List.getElem?_eq_none (by omega)]

end Cells
