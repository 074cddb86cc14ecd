import Mathlib.Data.List.Basic
import Mathlib.Data.List.Dedup

/-!
# Numbering in the order of appearance

Keys come one after another, and each key that has no number yet gets the next one of a sequence.
`numberOf ids keys a` is the number the key `a` has after the keys given.
-/

namespace Numbering

variable {α β : Type} [DecidableEq α] {ids : Nat → β} {keys more : List α} {a b : α}

/-- The keys, each where it appears first. -/
def firsts (keys : List α) : List α := keys.eraseDups

/-- The number of a key after the keys given, if it is one of them. -/
def numberOf (ids : Nat → β) (keys : List α) (a : α) : Option β :=
  if a ∈ keys then some (ids ((firsts keys).idxOf a)) else none

theorem mem_firsts :
  a ∈ firsts keys ↔ a ∈ keys
  := List.mem_eraseDups

theorem firsts_concat_of_mem (h : a ∈ keys) :
  firsts (keys ++ [a]) = firsts keys
  := by
  unfold firsts
  rw [List.eraseDups_append]
  simp [h, List.removeAll]

theorem firsts_concat_of_notMem (h : a ∉ keys) :
  firsts (keys ++ [a]) = firsts keys ++ [a]
  := by
  unfold firsts
  rw [List.eraseDups_append]
  simp [h, List.removeAll, List.eraseDups_cons]

/-- A key keeps its number. -/
theorem numberOf_append (h : a ∈ keys) :
  numberOf ids (keys ++ more) a = numberOf ids keys a
  := by
  unfold numberOf
  rw [if_pos h, if_pos (List.mem_append_left _ h), firsts, List.eraseDups_append]
  rw [List.idxOf_append_of_mem (List.mem_eraseDups.mpr h), firsts]

/-- A new key gets the next number. -/
theorem numberOf_concat_self (h : a ∉ keys) :
  numberOf ids (keys ++ [a]) a = some (ids (firsts keys).length)
  := by
  unfold numberOf
  rw [if_pos (by simp), firsts_concat_of_notMem h,
    List.idxOf_append_of_notMem (mt mem_firsts.mp h), List.idxOf_cons_self, Nat.add_zero]

theorem numberOf_concat_of_ne (h : b ≠ a) :
  numberOf ids (keys ++ [a]) b = numberOf ids keys b
  := by
  by_cases hb : b ∈ keys
  · exact numberOf_append hb
  · rw [numberOf, numberOf, if_neg hb, if_neg (by simp [hb, h])]

/-- Different keys have different numbers, if the numbers of the sequence differ. -/
theorem numberOf_inj
    (hids : ∀ i j, i < (firsts keys).length → j < (firsts keys).length → ids i = ids j → i = j)
    (ha : a ∈ keys) (h : numberOf ids keys a = numberOf ids keys b) :
  a = b
  := by
  unfold numberOf at h
  rw [if_pos ha] at h
  split_ifs at h with hb
  have hi := List.idxOf_lt_length_of_mem (mem_firsts.mpr ha)
  have hj := List.idxOf_lt_length_of_mem (mem_firsts.mpr hb)
  exact List.idxOf_inj (mem_firsts.mpr ha) |>.mp (hids _ _ hi hj (Option.some.inj h))

end Numbering
