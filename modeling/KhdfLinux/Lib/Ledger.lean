import Mathlib.Data.List.Count
import Mathlib.Data.List.Nodup

/-!
# Ledgers

Objects that are allocated and freed, by the numbers of their allocations.  `l.Holds live` says
that the objects in `live` are those that were not freed, and that no other was freed twice.
-/

/-- How many objects were allocated, and the calls that freed one. -/
structure Ledger where
  allocated : Nat
  freed : List Nat
  deriving DecidableEq, Repr

namespace Ledger

/-- Nothing is allocated. -/
def empty : Ledger := ⟨0, []⟩

variable (l : Ledger)

/-- Allocate the object of the next number. -/
def alloc : Ledger := { l with allocated := l.allocated + 1 }

/-- Free an object. -/
def free (i : Nat) : Ledger := { l with freed := i :: l.freed }

/-- Each object was freed exactly once. -/
def Exact : Prop := ∀ i, i < l.allocated → l.freed.count i = 1

/-- An object that was allocated and not freed. -/
def Live (i : Nat) : Prop := i < l.allocated ∧ i ∉ l.freed

/-- The objects in `live` were not freed, and all others once. -/
structure Holds (live : List Nat) : Prop where
  nodup : live.Nodup
  kept : ∀ i ∈ live, i < l.allocated ∧ i ∉ l.freed
  once : ∀ i, i < l.allocated → i ∈ live ∨ l.freed.count i = 1
  bound : ∀ i ∈ l.freed, i < l.allocated

variable {l} {live : List Nat} {i : Nat}

/-- Nothing is live. -/
theorem holds_empty :
  empty.Holds []
  where
  nodup := List.nodup_nil
  kept _ hi := nomatch hi
  once _ hi := nomatch hi
  bound _ hi := nomatch hi

/-- The object that is allocated is new. -/
theorem Holds.alloc (h : l.Holds live) :
  l.alloc.Holds (live ++ [l.allocated])
  where
  nodup := by
    apply h.nodup.append (List.nodup_singleton _)
    intro i hi hi'
    rw [List.mem_singleton.mp hi'] at hi
    apply Nat.lt_irrefl _ (h.kept _ hi).1
  kept i hi := by
    obtain hi | hi := List.mem_append.mp hi
    · exact ⟨Nat.lt_succ_of_lt (h.kept i hi).1, (h.kept i hi).2⟩
    · rw [List.mem_singleton.mp hi]
      exact ⟨Nat.lt_succ_self _, fun hmem => Nat.lt_irrefl _ (h.bound _ hmem)⟩
  once i hi := by
    obtain hi | rfl := Nat.lt_succ_iff_lt_or_eq.mp hi
    · exact (h.once i hi).imp_left fun hlive => List.mem_append_left _ hlive
    · exact .inl (List.mem_append_right _ (List.mem_singleton_self _))
  bound i hi := Nat.lt_succ_of_lt (h.bound i hi)

/-- An object that is live is freed. -/
theorem Holds.free (h : l.Holds live) (hi : i ∈ live) :
  (l.free i).Holds (live.erase i)
  where
  nodup := h.nodup.erase i
  kept j hj := by
    obtain ⟨hne, hj⟩ := h.nodup.mem_erase_iff.mp hj
    refine ⟨(h.kept j hj).1, fun hmem => ?_⟩
    obtain rfl | hmem := List.mem_cons.mp hmem
    · apply hne rfl
    · exact (h.kept j hj).2 hmem
  once j hj := by
    by_cases hji : j = i
    · subst hji
      right
      show (j :: l.freed).count j = 1
      rw [List.count_cons_self, List.count_eq_zero_of_not_mem (h.kept j hi).2]
    · obtain hlive | honce := h.once j hj
      · exact .inl (h.nodup.mem_erase_iff.mpr ⟨hji, hlive⟩)
      · right
        show (i :: l.freed).count j = 1
        rw [List.count_cons_of_ne (Ne.symm hji), honce]
  bound j hj := by
    obtain rfl | hj := List.mem_cons.mp hj
    · exact (h.kept j hi).1
    · apply h.bound j hj

/-- An object that is freed right after it was allocated. -/
theorem Holds.alloc_free (h : l.Holds live) :
  (l.alloc.free l.allocated).Holds live
  := by
  have hnot : l.allocated ∉ live := fun hmem => Nat.lt_irrefl _ (h.kept _ hmem).1
  have hfree := h.alloc.free (List.mem_append_right live (List.mem_singleton_self _))
  rw [List.erase_append_right _ hnot, List.erase_cons_head, List.append_nil] at hfree
  apply hfree

/-- Each object was freed once exactly if none is live. -/
theorem Holds.exact_iff (h : l.Holds live) :
  l.Exact ↔ live = []
  := by
  constructor
  · intro hexact
    apply List.eq_nil_iff_forall_not_mem.mpr
    intro i hi
    have hcount := hexact i (h.kept i hi).1
    rw [List.count_eq_zero_of_not_mem (h.kept i hi).2] at hcount
    cases hcount
  · rintro rfl i hi
    exact (h.once i hi).resolve_left List.not_mem_nil

/-- No object was freed twice. -/
theorem Holds.freed_nodup (h : l.Holds live) :
  l.freed.Nodup
  := by
  apply List.nodup_iff_count_le_one.mpr
  intro i
  by_cases hmem : i ∈ l.freed
  · obtain hlive | honce := h.once i (h.bound i hmem)
    · exact absurd hmem (h.kept i hlive).2
    · apply Nat.le_of_eq honce
  · rw [List.count_eq_zero_of_not_mem hmem]
    apply Nat.zero_le

/-- The objects in `live` are those that are live. -/
theorem Holds.live_iff (h : l.Holds live) :
  l.Live i ↔ i ∈ live
  := by
  constructor
  · rintro ⟨hlt, hnot⟩
    apply (h.once i hlt).resolve_right
    intro hcount
    rw [List.count_eq_zero_of_not_mem hnot] at hcount
    cases hcount
  · exact fun hmem => h.kept i hmem

end Ledger
