import Mathlib.Tactic.Common

/-!
# Runs

The runs of a system given by a labelled step relation, and the invariant rule: what
every step keeps, every run keeps.
-/

/-- A run from `s` to `t`, with the labels of its steps in order. -/
inductive Run {σ α : Type} (step : σ → α → σ → Prop) : σ → List α → σ → Prop where
  | nil (s : σ) : Run step s [] s
  | cons {s t u : σ} {a : α} {as : List α} (head : step s a t) (tail : Run step t as u) :
      Run step s (a :: as) u

namespace Run

variable {σ α : Type} {step : σ → α → σ → Prop}

/-- The invariant rule. -/
theorem keeps
    (Inv : σ → Prop) (hstep : ∀ s a t, Inv s → step s a t → Inv t) {s t : σ} {as : List α}
    (h : Run step s as t) (hs : Inv s) :
  Inv t
  := by
  induction h with
  | nil s => apply hs
  | cons head tail ih => apply ih (hstep _ _ _ hs head)

/-- If a step from a state with the invariant keeps it, and is a step of another kind as
well, then so is every step of a run. -/
theorem keeps_and
    {Inv : σ → Prop} {step' : σ → α → σ → Prop}
    (hstep : ∀ s a t, Inv s → step s a t → Inv t ∧ step' s a t) {s t : σ} {as : List α}
    (h : Run step s as t) (hs : Inv s) :
  Inv t ∧ Run step' s as t
  := by
  induction h with
  | nil s => exact ⟨hs, .nil s⟩
  | cons head tail ih =>
      obtain ⟨ht, head'⟩ := hstep _ _ _ hs head
      obtain ⟨hu, tail'⟩ := ih ht
      exact ⟨hu, .cons head' tail'⟩

/-- A run that goes on. -/
theorem append {s t u : σ} {as bs : List α} (h : Run step s as t) (h' : Run step t bs u) :
  Run step s (as ++ bs) u
  := by
  induction h with
  | nil s => exact h'
  | cons head tail ih => exact .cons head (ih h')

/-- The length of a run whose steps lower a rank. -/
theorem length_le_rank
    (Inv : σ → Prop) (rank : σ → Nat)
    (hstep : ∀ s a t, Inv s → step s a t → Inv t ∧ rank t < rank s) {s t : σ} {as : List α}
    (h : Run step s as t) (hs : Inv s) :
  Inv t ∧ as.length ≤ rank s
  := by
  induction h with
  | nil s => exact ⟨hs, Nat.zero_le _⟩
  | cons head tail ih =>
      obtain ⟨ht, hlt⟩ := hstep _ _ _ hs head
      obtain ⟨hu, hlength⟩ := ih ht
      exact ⟨hu, Nat.lt_of_le_of_lt hlength hlt⟩

/-- The run of a step function. -/
theorem of_foldlM {f : σ → α → Option σ} {s t : σ} {as : List α} (h : as.foldlM f s = some t) :
  Run (fun s a t => f s a = some t) s as t
  := by
  induction as generalizing s with
  | nil =>
      cases h
      exact .nil _
  | cons a as ih =>
      obtain ⟨u, hu, hrest⟩ := Option.bind_eq_some_iff.mp h
      exact .cons hu (ih hrest)

/-- The steps of a run may be weakened. -/
theorem mono
    {step' : σ → α → σ → Prop} (hstep : ∀ s a t, step s a t → step' s a t) {s t : σ}
    {as : List α} (h : Run step s as t) :
  Run step' s as t
  := by
  induction h with
  | nil s => apply Run.nil
  | cons head tail ih => apply Run.cons (hstep _ _ _ head) ih

end Run

/-! ### Calls -/

section Along

variable {σ α : Type} {next : σ → α → σ} {P C : σ → α → Prop}

/-- `P` holds of each of the calls, and of the state it is made in. -/
def Along (next : σ → α → σ) (P : σ → α → Prop) : σ → List α → Prop
  | _, [] => True
  | s, a :: as => P s a ∧ Along next P (next s a) as

/-- What holds of an allowed call exactly under a condition that keeps the invariant holds of all
calls exactly if the condition does. -/
theorem along_allowed_iff
    {Inv : σ → Prop} {A : σ → α → Prop} (hiff : ∀ s a, Inv s → A s a → (P s a ↔ C s a))
    (hkeep : ∀ s a, Inv s → A s a → C s a → Inv (next s a)) {s : σ} {as : List α} (hs : Inv s)
    (hA : Along next A s as) :
  Along next P s as ↔ Along next C s as
  := by
  induction as generalizing s with
  | nil => rfl
  | cons a as ih =>
      obtain ⟨ha, hrest⟩ := hA
      unfold Along
      rw [hiff s a hs ha]
      apply and_congr_right fun hc => ih (hkeep s a hs ha hc) hrest

theorem along_true (s : σ) (as : List α) :
  Along next (fun _ _ => True) s as
  := by
  induction as generalizing s with
  | nil => trivial
  | cons a as ih => exact ⟨trivial, ih (next s a)⟩

/-- What holds of a call exactly under a condition that keeps the invariant holds of all calls
exactly if the condition does. -/
theorem along_iff
    {Inv : σ → Prop} (hiff : ∀ s a, Inv s → (P s a ↔ C s a))
    (hkeep : ∀ s a, Inv s → C s a → Inv (next s a)) {s : σ} {as : List α} (hs : Inv s) :
  Along next P s as ↔ Along next C s as
  := along_allowed_iff (fun s a h _ => hiff s a h) (fun s a h _ => hkeep s a h) hs
    (along_true s as)

end Along
