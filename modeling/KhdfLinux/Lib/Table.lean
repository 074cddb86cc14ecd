import Mathlib.Logic.Function.Basic
import Mathlib.Tactic.Common

/-!
# Tables of objects

Handles to objects on the heap.  An object gets a new number, is put into a handle, and goes when it
is freed through its handle, which is cleared.  `Table.Sound`: the objects that are not freed are
those in the handles, each in one of them; what is fixed of an object is what it was made with.
-/

/-- The handles, the objects that are not freed, and what is fixed of all that were made. -/
structure Table (ω κ : Type) where
  handles : Nat → Option Nat
  objects : Nat → Option ω
  made : List κ

namespace Table

variable {ω κ : Type}

/-- No object. -/
def empty : Table ω κ := ⟨fun _ => none, fun _ => none, []⟩

section Updates

variable {f : Nat → Option Nat} {g h v w : Nat}

theorem update_none (hg : Function.update f h none g = some v) :
  g ≠ h ∧ f g = some v
  := by
  by_cases heq : g = h
  · rw [heq, Function.update_self] at hg
    cases hg
  · rw [Function.update_of_ne heq] at hg
    exact ⟨heq, hg⟩

theorem update_some (hg : Function.update f h (some w) g = some v) :
  (g = h ∧ v = w) ∨ (g ≠ h ∧ f g = some v)
  := by
  by_cases heq : g = h
  · rw [heq, Function.update_self] at hg
    exact .inl ⟨heq, (Option.some.inj hg).symm⟩
  · rw [Function.update_of_ne heq] at hg
    exact .inr ⟨heq, hg⟩

end Updates

variable (t : Table ω κ) (part : ω → κ)

/-- A new object in the handle. -/
def alloc (h : Nat) (object : ω) : Table ω κ where
  handles := Function.update t.handles h (some t.made.length)
  objects := Function.update t.objects t.made.length (some object)
  made := t.made ++ [part object]

/-- The object in the handle is freed. -/
def free (h w : Nat) : Table ω κ :=
  { t with
    handles := Function.update t.handles h none
    objects := Function.update t.objects w none }

/-- The objects that are not freed are those in the handles, each in one of them. -/
structure Sound : Prop where
  held : ∀ h w, t.handles h = some w → t.objects w ≠ none
  only : ∀ h h' w, t.handles h = some w → t.handles h' = some w → h = h'
  kept : ∀ w, t.objects w ≠ none → ∃ h, t.handles h = some w
  fixed : ∀ w object, t.objects w = some object → t.made[w]? = some (part object)

variable {t part} {h w v : Nat} {object : ω}

theorem sound_empty :
  (empty : Table ω κ).Sound part
  where
  held _ _ h := nomatch h
  only _ _ _ h := nomatch h
  kept _ h := absurd rfl h
  fixed _ _ h := nomatch h

/-! ### Freeing -/

theorem free_objects_self :
  (t.free h w).objects w = none
  := Function.update_self ..

theorem free_objects_of_ne (hne : v ≠ w) :
  (t.free h w).objects v = t.objects v
  := Function.update_of_ne hne ..

theorem Sound.free (hsound : t.Sound part) (hw : t.handles h = some w) :
  (t.free h w).Sound part
  := by
  have honly {g g' v : Nat} (hg : Function.update t.handles h none g = some v)
      (hg' : Function.update t.handles h none g' = some v) : g = g' :=
    hsound.only g g' v (update_none hg).2 (update_none hg').2
  refine ⟨fun g v hg => ?_, fun _ _ _ => honly, fun v hv => ?_, fun v object hv => ?_⟩
  · obtain ⟨hne, hgv⟩ := update_none hg
    have hv : v ≠ w := by
      rintro rfl
      exact hne (hsound.only g h v hgv hw)
    rw [free_objects_of_ne hv]
    exact hsound.held g v hgv
  · have hne : v ≠ w := by
      rintro rfl
      exact hv free_objects_self
    rw [free_objects_of_ne hne] at hv
    obtain ⟨g, hg⟩ := hsound.kept v hv
    refine ⟨g, (Function.update_of_ne ?_ ..).trans hg⟩
    rintro rfl
    exact hne (Option.some.inj (hg.symm.trans hw))
  · have hne : v ≠ w := by
      rintro rfl
      rw [free_objects_self] at hv
      cases hv
    rw [free_objects_of_ne hne] at hv
    exact hsound.fixed v object hv

/-! ### Allocating -/

/-- A number that is new is of no object. -/
theorem Sound.fresh (hsound : t.Sound part) :
  t.objects t.made.length = none
  := by
  cases hw : t.objects t.made.length with
  | none => rfl
  | some object =>
      obtain ⟨hlt, -⟩ := List.getElem?_eq_some_iff.mp (hsound.fixed _ object hw)
      exact absurd hlt (Nat.lt_irrefl _)

theorem alloc_objects_self :
  (t.alloc part h object).objects t.made.length = some object
  := Function.update_self ..

/-- An object that is there stays. -/
theorem Sound.alloc_objects (hsound : t.Sound part) (hv : t.objects v ≠ none) :
  (t.alloc part h object).objects v = t.objects v
  := by
  apply Function.update_of_ne
  rintro rfl
  exact hv hsound.fresh

theorem alloc_made {k : κ} (hv : t.made[v]? = some k) :
  (t.alloc part h object).made[v]? = some k
  := by
  show (t.made ++ [part object])[v]? = some k
  rw [List.getElem?_append_left (List.getElem?_eq_some_iff.mp hv).1]
  exact hv

theorem Sound.alloc (hsound : t.Sound part) (hnone : t.handles h = none) :
  (t.alloc part h object).Sound part
  := by
  have hne {g : Nat} (hg : t.handles g = some t.made.length) : False :=
    hsound.held g _ hg hsound.fresh
  refine ⟨fun g v hg => ?_, fun g g' v hg hg' => ?_, fun v hv => ?_, fun v o hv => ?_⟩
  · obtain ⟨-, rfl⟩ | ⟨-, hgv⟩ := update_some hg
    · rw [alloc_objects_self]
      nofun
    · rw [hsound.alloc_objects (hsound.held g v hgv)]
      exact hsound.held g v hgv
  · obtain ⟨rfl, rfl⟩ | ⟨-, hgv⟩ := update_some hg
    · obtain ⟨rfl, -⟩ | ⟨-, hgv'⟩ := update_some hg'
      · rfl
      · exact (hne hgv').elim
    · obtain ⟨rfl, rfl⟩ | ⟨-, hgv'⟩ := update_some hg'
      · exact (hne hgv).elim
      · exact hsound.only g g' v hgv hgv'
  · by_cases heq : v = t.made.length
    · exact ⟨h, by rw [heq]; exact Function.update_self ..⟩
    · have hlive : t.objects v ≠ none := by
        rwa [← Function.update_of_ne heq (some object) t.objects]
      obtain ⟨g, hg⟩ := hsound.kept v hlive
      refine ⟨g, (Function.update_of_ne ?_ ..).trans hg⟩
      rintro rfl
      rw [hnone] at hg
      cases hg
  · by_cases heq : v = t.made.length
    · subst heq
      rw [alloc_objects_self] at hv
      obtain rfl := Option.some.inj hv
      exact List.getElem?_concat_length ..
    · change Function.update t.objects t.made.length _ v = some o at hv
      rw [Function.update_of_ne heq] at hv
      exact alloc_made (hsound.fixed v o hv)

/-- A handle that is overwritten loses its object. -/
theorem Sound.overwritten {t' : Table ω κ} (hsound : t.Sound part) (hw : t.handles h = some w)
    (hhandles : ∀ g ≠ h, t'.handles g = t.handles g) (hhandle : t'.handles h ≠ some w)
    (hobject : t'.objects w ≠ none) :
  ¬t'.Sound part
  := by
  intro hsound'
  obtain ⟨g, hg⟩ := hsound'.kept w hobject
  by_cases heq : g = h
  · rw [heq] at hg
    exact hhandle hg
  · rw [hhandles g heq] at hg
    exact heq (hsound.only g h w hg hw)

/-- A handle is to be empty before it is used for a new object, or cleared where there is none. -/
theorem Sound.create_iff (hsound : t.Sound part) (h : Nat) (object : Option ω) :
  (match object with
    | some object => t.alloc part h object
    | none => { t with handles := Function.update t.handles h none }).Sound part
    ↔ t.handles h = none
  := by
  cases hw : t.handles h with
  | none =>
      refine iff_of_true ?_ rfl
      cases object with
      | some object => exact hsound.alloc hw
      | none =>
          dsimp only
          rw [← hw, Function.update_eq_self]
          exact hsound
  | some w =>
      refine iff_of_false ?_ nofun
      have hlive := hsound.held h w hw
      cases object with
      | some object =>
          refine hsound.overwritten hw (fun g hg => Function.update_of_ne hg ..) ?_ ?_
          · show Function.update t.handles h _ h ≠ some w
            rw [Function.update_self]
            intro heq
            rw [← Option.some.inj heq] at hlive
            exact hlive hsound.fresh
          · rw [hsound.alloc_objects hlive]
            exact hlive
      | none =>
          refine hsound.overwritten hw (fun g hg => Function.update_of_ne hg ..) ?_ hlive
          show Function.update t.handles h none h ≠ some w
          rw [Function.update_self]
          nofun

end Table
