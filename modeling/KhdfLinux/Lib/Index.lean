import Mathlib.Data.Finset.Card
import Mathlib.Logic.Function.Basic

/-!
# Indices

A table indexes entries by a key: it has a value at a key exactly if there is an entry with that key
and that value.  An entry is inserted under a key that is free, and removed from under its own key.
-/

namespace Index

variable {ε κ ν μ : Type}

/-- The table has the values of the entries at their keys. -/
def Indexes (R : ε → Prop) (key : ε → κ) (val : ε → ν) (f : κ → Option ν) : Prop :=
  ∀ k v, f k = some v ↔ ∃ e, R e ∧ key e = k ∧ val e = v

variable {R R' : ε → Prop} {key : ε → κ} {val : ε → ν} {f : κ → Option ν} {e : ε} {k : κ}

/-- A table of other entries that are the same ones. -/
theorem Indexes.congr (h : Indexes R key val f) (hR : ∀ e, R' e ↔ R e) :
  Indexes R' key val f
  := by
  intro k v
  simp only [hR]
  exact h k v

theorem indexes_empty (hR : ∀ e, ¬R e) :
  Indexes R key val (fun _ => none)
  := fun _ _ => ⟨nofun, fun ⟨e, he, _⟩ => absurd he (hR e)⟩

theorem Indexes.of_mem (h : Indexes R key val f) (he : R e) :
  f (key e) = some (val e)
  := (h _ _).mpr ⟨e, he, rfl, rfl⟩

theorem Indexes.eq_none_iff (h : Indexes R key val f) :
  f k = none ↔ ∀ e, R e → key e ≠ k
  := by
  constructor
  · rintro hnone e he rfl
    rw [h.of_mem he] at hnone
    cases hnone
  · intro hno
    cases hk : f k with
    | none => rfl
    | some v =>
        obtain ⟨e, he, hkey, -⟩ := (h k v).mp hk
        exact absurd hkey (hno e he)

/-- Entries with the same key have the same value. -/
theorem Indexes.val_eq (h : Indexes R key val f) {e' : ε} (he : R e) (he' : R e')
    (hkey : key e = key e') :
  val e = val e'
  := by
  have hsome := h.of_mem he
  rw [hkey, h.of_mem he'] at hsome
  exact (Option.some.inj hsome).symm

variable [DecidableEq κ]

/-- An entry is inserted. -/
theorem Indexes.insert (h : Indexes R key val f) (hfree : f (key e) = none) :
  Indexes (fun b => b = e ∨ R b) key val (Function.update f (key e) (some (val e)))
  := by
  intro k v
  by_cases hk : k = key e
  · subst hk
    rw [Function.update_self]
    constructor
    · intro hv
      exact ⟨e, .inl rfl, rfl, Option.some.inj hv⟩
    · rintro ⟨b, rfl | hb, hkey, hval⟩
      · rw [hval]
      · exact absurd hkey (h.eq_none_iff.mp hfree b hb)
  · rw [Function.update_of_ne hk, h k v]
    refine exists_congr fun b => ⟨fun ⟨hb, hrest⟩ => ⟨.inr hb, hrest⟩, ?_⟩
    rintro ⟨rfl | hb, hkey, hval⟩
    · exact absurd hkey.symm hk
    · exact ⟨hb, hkey, hval⟩

/-- An entry is removed, the only one under its key. -/
theorem Indexes.remove (h : Indexes R key val f) (honly : ∀ b, R b → key b = key e → b = e) :
  Indexes (fun b => R b ∧ b ≠ e) key val (Function.update f (key e) none)
  := by
  intro k v
  by_cases hk : k = key e
  · subst hk
    rw [Function.update_self]
    exact ⟨nofun, fun ⟨b, ⟨hb, hne⟩, hkey, _⟩ => absurd (honly b hb hkey) hne⟩
  · rw [Function.update_of_ne hk, h k v]
    refine exists_congr fun b => ⟨?_, fun ⟨⟨hb, _⟩, hrest⟩ => ⟨hb, hrest⟩⟩
    rintro ⟨hb, rfl, hval⟩
    refine ⟨⟨hb, ?_⟩, rfl, hval⟩
    rintro rfl
    exact hk rfl

/-- The keys of a table that are in use, after one more is. -/
theorem mem_insert_iff {keys : Finset κ} (hkeys : ∀ k, k ∈ keys ↔ (f k).isSome) (key : κ) (v : ν)
    (k : κ) :
  k ∈ Insert.insert key keys ↔ (Function.update f key (some v) k).isSome
  := by
  rw [Finset.mem_insert, hkeys]
  by_cases hk : k = key
  · subst hk
    simp
  · simp [hk]

/-- The keys of a table that are in use, after one is not any more. -/
theorem mem_erase_iff {keys : Finset κ} (hkeys : ∀ k, k ∈ keys ↔ (f k).isSome) (key k : κ) :
  k ∈ keys.erase key ↔ (Function.update f key none k).isSome
  := by
  rw [Finset.mem_erase, hkeys]
  by_cases hk : k = key
  · subst hk
    simp
  · simp [hk]

end Index
