import Mathlib.Data.List.Infix

/-!
# Replacement of markers

The text with each marker in it, found from left to right, replaced by another text.
-/

namespace List

variable {α : Type} [DecidableEq α]

/-- The first of the markers that a text starts with. -/
def markerAt (markers : List (List α)) (s : List α) : Option (List α) :=
  markers.find? (·.isPrefixOf s)

/-- The text with the markers in it replaced by `r`, from left to right. -/
def replaceAll (markers : List (List α)) (r : List α) : List α → List α
  | [] => []
  | c :: s =>
      match markerAt markers (c :: s) with
      | some m => r ++ replaceAll markers r (s.drop (m.length - 1))
      | none => c :: replaceAll markers r s
  termination_by s => s.length

variable {markers : List (List α)} {r s m : List α} {c : α}

theorem isPrefix_of_markerAt (h : markerAt markers s = some m) :
  m ∈ markers ∧ m <+: s
  := by
  unfold markerAt at h
  have hstarts := find?_some h
  constructor
  · apply mem_of_find?_eq_some h
  · apply isPrefixOf_iff_prefix.mp hstarts

theorem markerAt_eq_none :
  markerAt markers s = none ↔ ∀ m ∈ markers, ¬m <+: s
  := by
  unfold markerAt
  rw [find?_eq_none]
  apply forall₂_congr
  intro m _
  rw [ isPrefixOf_iff_prefix]

theorem markerAt_cons_of_prefix (h : m <+: s) :
  markerAt (m :: markers) s = some m
  := by
  unfold markerAt
  rw [find?_cons, isPrefixOf_iff_prefix.mpr h]

theorem markerAt_cons_of_not_prefix (h : ¬m <+: s) :
  markerAt (m :: markers) s = markerAt markers s
  := by
  have hfalse : m.isPrefixOf s = false := by
    rw [Bool.eq_false_iff, Ne, isPrefixOf_iff_prefix]
    apply h
  unfold markerAt
  rw [find?_cons, hfalse]

@[simp]
theorem replaceAll_nil :
  replaceAll markers r [] = []
  := by
  unfold replaceAll
  rfl

/-- A text that does not start with a marker keeps its first character. -/
theorem replaceAll_cons (h : markerAt markers (c :: s) = none) :
  replaceAll markers r (c :: s) = c :: replaceAll markers r s
  := by
  rw [replaceAll, h]

/-- A marker at the start of a text is replaced. -/
theorem replaceAll_marker (h : markerAt markers s = some m) (hm : m ≠ []) :
  replaceAll markers r s = r ++ replaceAll markers r (s.drop m.length)
  := by
  obtain ⟨k, hk⟩ := Nat.exists_eq_succ_of_ne_zero (length_pos_of_ne_nil hm).ne'
  cases s with
  | nil => exact absurd (prefix_nil.mp (isPrefix_of_markerAt h).2) hm
  | cons c s =>
      rw [replaceAll, h]
      simp only [hk, Nat.succ_eq_add_one, Nat.add_sub_cancel, drop_succ_cons]

/-- A text without markers in it is what it was. -/
theorem replaceAll_eq_self (h : ∀ m ∈ markers, ¬m <:+: s) :
  replaceAll markers r s = s
  := by
  induction s with
  | nil => apply replaceAll_nil
  | cons c s ih =>
      rw [replaceAll_cons (markerAt_eq_none.mpr fun m hm hs => h m hm hs.isInfix)]
      rw [ih fun m hm hs => h m hm (hs.trans (suffix_cons c s).isInfix)]

/-- What is in the text after the replacement was in it before, or is in what replaces a marker. -/
theorem mem_of_mem_replaceAll {x : α} (hmarkers : [] ∉ markers) (h : x ∈ replaceAll markers r s) :
  x ∈ s ∨ x ∈ r
  := by
  induction hn : s.length using Nat.strong_induction_on generalizing s with
  | h n ih =>
      cases s with
      | nil => simp at h
      | cons c s =>
          cases hat : markerAt markers (c :: s) with
          | none =>
              rw [replaceAll_cons hat] at h
              obtain rfl | hs := mem_cons.mp h
              · left
                apply mem_cons_self
              · obtain hs | hr := ih s.length (by simp [← hn]) hs rfl
                · left
                  apply mem_cons_of_mem c hs
                · right
                  apply hr
          | some m =>
              have hm : m ≠ [] := fun hm => hmarkers (hm ▸ (isPrefix_of_markerAt hat).1)
              have hpos := length_pos_of_ne_nil hm
              rw [replaceAll_marker hat hm] at h
              obtain hr | hs := mem_append.mp h
              · right
                apply hr
              · have hlt : ((c :: s).drop m.length).length < n := by
                  rw [length_drop, hn]
                  simp only [length_cons] at hn
                  omega
                obtain hs | hr := ih _ hlt hs rfl
                · left
                  apply mem_of_mem_drop hs
                · right
                  apply hr

end List
