import Mathlib.Tactic.Common

/-!
# Arrays filled from the front

An array of `c` slots of which the first `n` are in use, and the operations that keep it
so: to write behind the slots in use, to keep the elements a test accepts and move them
together, in place, and to drop elements at the front.  An access outside the array has
no result.  On the list of the elements in use they are an append, a filter and a drop.
-/

namespace Slots

variable {α : Type} {c : Nat}

/-- The elements in the first `n` slots. -/
def used (a : Vector α c) (n : Nat) : List α := a.toList.take n

/-- Write `v` into slot `i`. -/
def put (a : Vector α c) (i : Nat) (v : α) : Option (Vector α c) :=
  if h : i < c then some (a.set i v h) else none

/-- Move the elements of the `n` slots from slot `i` on that `keep` accepts to the slots
from `out` on, and return the first slot after them. -/
def compact (keep : α → Bool) :
    (n i out : Nat) → Vector α c → Option (Vector α c × Nat)
  | 0, _, out, a => some (a, out)
  | n + 1, i, out, a => do
      let v ← a[i]?
      if keep v then
        let b ← put a out v
        compact keep n (i + 1) (out + 1) b
      else
        compact keep n (i + 1) out a

/-- Move the elements of the `n` slots from slot `k` on to the front. -/
def moveDown (a : Vector α c) (k n : Nat) : Option (Vector α c) :=
  if k + n ≤ c then
    some (Vector.ofFn fun i => if i.val < n then (a[i.val + k]?).getD a[i] else a[i])
  else
    none

theorem used_put {a b : Vector α c} {n : Nat} {v : α} (h : put a n v = some b) :
  used b (n + 1) = used a n ++ [v]
  := by
  unfold put at h
  split_ifs at h with hn
  obtain rfl := Option.some.inj h
  have hn' : n < a.toList.length := by simpa using hn
  unfold used
  rw [Vector.toList_set, List.take_add_one, List.take_set_of_le (Nat.le_refl n),
    List.getElem?_set_self hn']
  rfl

theorem put_isSome (a : Vector α c) {n : Nat} (v : α) (h : n < c) :
  ∃ b, put a n v = some b
  := ⟨_, dif_pos h⟩

/-- What `compact` leaves alone and what it collects: the slots before `out` are kept, and
the elements of the `n` slots from `i` on that `keep` accepts follow. -/
theorem compact_spec
    (keep : α → Bool) {n i out : Nat} (a : Vector α c) (hout : out ≤ i) (hi : i + n ≤ c) :
  ∃ b, compact keep n i out a
      = some (b, out + (((a.toList.drop i).take n).filter keep).length)
    ∧ used b (out + (((a.toList.drop i).take n).filter keep).length)
      = used a out ++ ((a.toList.drop i).take n).filter keep
  := by
  induction n generalizing i out a with
  | zero => exact ⟨a, by simp [compact]⟩
  | succ n ih =>
      have hia : i < a.toList.length := by
        simp
        omega
      have hget : a[i]? = some a.toList[i] := by
        rw [← Vector.getElem?_toList, List.getElem?_eq_getElem hia]
      rw [List.drop_eq_getElem_cons hia, List.take_succ_cons]
      simp only [compact, hget, Option.bind_eq_bind, Option.bind_some]
      by_cases hv : keep a.toList[i] = true
      · obtain ⟨b, hb⟩ := put_isSome a a.toList[i] (show out < c by omega)
        have hdrop : b.toList.drop (i + 1) = a.toList.drop (i + 1) := by
          unfold put at hb
          split_ifs at hb with hc
          obtain rfl := Option.some.inj hb
          rw [Vector.toList_set, List.drop_set_of_lt (by omega)]
        obtain ⟨d, hd, hused⟩ := ih b (Nat.succ_le_succ hout) (by omega)
        rw [hdrop] at hd hused
        rw [if_pos hv, List.filter_cons_of_pos hv, hb, Option.bind_some, List.length_cons,
          ← Nat.add_assoc, Nat.add_right_comm]
        refine ⟨d, hd, ?_⟩
        rw [hused, used_put hb]
        simp
      · obtain ⟨d, hd, hused⟩ := ih a (Nat.le_succ_of_le hout) (by omega)
        rw [if_neg hv, List.filter_cons_of_neg hv]
        exact ⟨d, hd, hused⟩

/-- To compact the slots in use is to filter the elements in use. -/
theorem compact_used (keep : α → Bool) {n : Nat} (a : Vector α c) (hn : n ≤ c) :
  ∃ b, compact keep n 0 0 a = some (b, ((used a n).filter keep).length)
    ∧ used b ((used a n).filter keep).length = (used a n).filter keep
  := by
  obtain ⟨b, hb, hused⟩ := compact_spec keep a (Nat.le_refl 0) (by omega : 0 + n ≤ c)
  simp only [List.drop_zero, Nat.zero_add] at hb hused
  exact ⟨b, hb, by simpa [used] using hused⟩

/-- To move elements down is to drop the elements before them. -/
theorem used_moveDown (a : Vector α c) {k n : Nat} (h : k + n ≤ c) :
  ∃ b, moveDown a k n = some b ∧ used b n = (used a (k + n)).drop k
  := by
  refine ⟨_, if_pos h, ?_⟩
  apply List.ext_getElem
  · simp [used]
    omega
  · intro i h₁ h₂
    have hi : i < n := by
      simp [used] at h₁
      omega
    simp [used, hi, Nat.add_comm k i, show i + k < c by omega]

end Slots
