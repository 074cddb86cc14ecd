import Mathlib.Tactic.Common

/-!
# Executions

`Exec σ α` is the type of executions over states of type `σ`: an execution reaches its
end with a value, stops before it with a return code, or performs an operation that has no
meaning.  The state reached is kept in all three cases.  `x.Meets s Q E` says that the
execution `x` from `s` establishes `Q` at its end and `E` where it stops before it.
-/

/-- An operation that has no meaning: an access through a null pointer or outside an object,
the taking of a lock that is held, or the release of one that is not. -/
inductive Fault where
  | nullDeref
  | outOfBounds
  | deadlock
  | notHeld
  deriving DecidableEq, Repr

/-- How an execution stops before its end: by returning `code`, or by a fault. -/
inductive Stop where
  | ret (code : Int)
  | fault (f : Fault)
  deriving DecidableEq, Repr

/-- The executions over states of type `σ` that yield a value of type `α`. -/
abbrev Exec (σ α : Type) := EStateM Stop σ α

namespace Exec

variable {σ τ α β : Type}

/-- Stop in the current state. -/
def stop (e : Stop) : Exec σ α := fun s => .error e s

@[simp]
theorem run_stop (e : Stop) (s : σ) :
  EStateM.run (stop e : Exec σ α) s = .error e s
  := rfl

@[simp]
theorem run_map (f : α → β) (x : Exec σ α) (s : σ) :
  EStateM.run (f <$> x) s
    = match x.run s with
      | .ok a t => .ok (f a) t
      | .error e t => .error e t
  := by
  rw [map_eq_pure_bind, EStateM.run_bind]
  cases x.run s with
  | ok a t => rfl
  | error e t => rfl

/-- A sequence ends with `b` exactly when its first part ends with some `a` and its
second part, from there, ends with `b`. -/
theorem run_bind_ok {x : Exec σ α} {f : α → Exec σ β} {s s' : σ} {b : β} :
  (x >>= f).run s = .ok b s' ↔ ∃ a t, x.run s = .ok a t ∧ (f a).run t = .ok b s'
  := by
  rw [EStateM.run_bind]
  cases x.run s with
  | ok a t => simp
  | error e t => simp

/-- `x.Meets s Q E`: from `s`, the execution `x` establishes `Q` of its value and final
state, or stops where `E` holds of the reason and the state. -/
def Meets (x : Exec σ α) (s : σ) (Q : α → σ → Prop) (E : Stop → σ → Prop) : Prop :=
  match x.run s with
  | .ok a s' => Q a s'
  | .error e s' => E e s'

/-- How an execution stops before its end. -/
def stopOf : EStateM.Result Stop σ α → Option Stop
  | .ok _ _ => none
  | .error e _ => some e

theorem stopOf_eq_some {r : EStateM.Result Stop σ α} {e : Stop} :
  stopOf r = some e ↔ ∃ s, r = .error e s
  := by
  cases r <;> simp [stopOf]

theorem stopOf_eq_none {r : EStateM.Result Stop σ α} :
  stopOf r = none ↔ ∃ a s, r = .ok a s
  := by
  cases r <;> simp [stopOf]

theorem meets_pure {a : α} {s : σ} {Q : α → σ → Prop} {E : Stop → σ → Prop} (h : Q a s) :
  Meets (pure a) s Q E
  := h

theorem meets_stop {e : Stop} {s : σ} {Q : α → σ → Prop} {E : Stop → σ → Prop} (h : E e s) :
  Meets (stop e) s Q E
  := h

theorem meets_bind
    {x : Exec σ α} {f : α → Exec σ β} {s : σ} {Q : β → σ → Prop} {E : Stop → σ → Prop}
    (h : Meets x s (fun a s' => Meets (f a) s' Q E) E) :
  Meets (x >>= f) s Q E
  := by
  unfold Meets at h ⊢
  rw [EStateM.run_bind]
  cases hx : x.run s with
  | ok a t =>
      rw [hx] at h
      apply h
  | error e t =>
      rw [hx] at h
      apply h

/-- A guard: either it stops the execution, or the rest runs in its absence. -/
theorem meets_guard
    {c : Prop} [Decidable c] {e : Stop} {x : Exec σ α} {s : σ} {Q : α → σ → Prop}
    {E : Stop → σ → Prop} (hstop : c → E e s) (hrest : ¬c → Meets x s Q E) :
  Meets (if c then stop e else x) s Q E
  := by
  by_cases h : c
  · rw [if_pos h]
    apply meets_stop (hstop h)
  · rw [if_neg h]
    apply hrest h

/-- A step that does not stop. -/
theorem meets_step
    {x : Exec σ α} {f : α → Exec σ β} {s t : σ} {a : α} {Q : β → σ → Prop}
    {E : Stop → σ → Prop} (hx : x.run s = .ok a t) (h : Meets (f a) t Q E) :
  Meets (x >>= f) s Q E
  := by
  apply meets_bind
  unfold Meets
  rw [hx]
  apply h

/-- What an execution that reaches its end establishes. -/
theorem meets_iff_of_ok
    {x : Exec σ α} {s t : σ} {a : α} {Q : α → σ → Prop} {E : Stop → σ → Prop}
    (hx : x.run s = .ok a t) :
  Meets x s Q E ↔ Q a t
  := by
  unfold Meets
  rw [hx]

/-- What an execution that stops establishes. -/
theorem meets_iff_of_error
    {x : Exec σ α} {s t : σ} {e : Stop} {Q : α → σ → Prop} {E : Stop → σ → Prop}
    (hx : x.run s = .error e t) :
  Meets x s Q E ↔ E e t
  := by
  unfold Meets
  rw [hx]

theorem Meets.mono
    {x : Exec σ α} {s : σ} {Q Q' : α → σ → Prop} {E E' : Stop → σ → Prop}
    (h : Meets x s Q E) (hQ : ∀ a s', Q a s' → Q' a s') (hE : ∀ e s', E e s' → E' e s') :
  Meets x s Q' E'
  := by
  unfold Meets at h ⊢
  cases hx : x.run s with
  | ok a t =>
      rw [hx] at h
      apply hQ _ _ h
  | error e t =>
      rw [hx] at h
      apply hE _ _ h

theorem Meets.of_ok
    {x : Exec σ α} {s s' : σ} {a : α} {Q : α → σ → Prop} {E : Stop → σ → Prop}
    (h : Meets x s Q E) (hx : x.run s = .ok a s') :
  Q a s'
  := by
  unfold Meets at h
  rw [hx] at h
  apply h

theorem Meets.of_error
    {x : Exec σ α} {s s' : σ} {e : Stop} {Q : α → σ → Prop} {E : Stop → σ → Prop}
    (h : Meets x s Q E) (hx : x.run s = .error e s') :
  E e s'
  := by
  unfold Meets at h
  rw [hx] at h
  apply h

/-- An execution that does not stop reaches its end. -/
theorem Meets.ends
    {x : Exec σ α} {s : σ} {Q : α → σ → Prop} (h : Meets x s Q fun _ _ => False) :
  ∃ a s', x.run s = .ok a s' ∧ Q a s'
  := by
  unfold Meets at h
  cases hx : x.run s with
  | ok a s' =>
      rw [hx] at h
      exact ⟨a, s', rfl, h⟩
  | error e s' =>
      rw [hx] at h
      cases h

/-- Two things an execution establishes. -/
theorem Meets.and
    {x : Exec σ α} {s : σ} {Q Q' : α → σ → Prop} {E E' : Stop → σ → Prop}
    (h : Meets x s Q E) (h' : Meets x s Q' E') :
  Meets x s (fun a t => Q a t ∧ Q' a t) fun e t => E e t ∧ E' e t
  := by
  unfold Meets at h h' ⊢
  cases hx : x.run s with
  | ok a t =>
      rw [hx] at h h'
      exact ⟨h, h'⟩
  | error e t =>
      rw [hx] at h h'
      exact ⟨h, h'⟩

/-! ### What an execution leaves alone -/

/-- The execution leaves `f` of the state as it is, whether it reaches its end or stops. -/
def Keeps (f : σ → τ) (x : Exec σ α) : Prop :=
  ∀ s, Meets x s (fun _ t => f t = f s) fun _ t => f t = f s

section Keeps

variable {f : σ → τ}

theorem keeps_pure (a : α) :
  Keeps f (pure a : Exec σ α)
  := fun _ => meets_pure rfl

theorem keeps_stop (e : Stop) :
  Keeps f (stop e : Exec σ α)
  := fun _ => meets_stop rfl

theorem Keeps.bind {x : Exec σ α} {g : α → Exec σ β} (hx : Keeps f x) (hg : ∀ a, Keeps f (g a)) :
  Keeps f (x >>= g)
  := by
  intro s
  apply meets_bind
  refine (hx s).mono ?_ fun _ _ h => h
  intro a t ht
  have hrest := hg a t
  rw [ht] at hrest
  apply hrest

theorem Keeps.map {x : Exec σ α} (hx : Keeps f x) (g : α → β) :
  Keeps f (g <$> x)
  := by
  rw [map_eq_pure_bind]
  apply hx.bind fun a => keeps_pure _

/-- What is a function of what an execution leaves alone. -/
theorem Keeps.comp {ρ : Type} {x : Exec σ α} (hx : Keeps f x) (g : τ → ρ) :
  Keeps (fun s => g (f s)) x
  := fun s => (hx s).mono (fun _ _ h => congrArg g h) fun _ _ h => congrArg g h

theorem keeps_ite {c : Prop} [Decidable c] {x y : Exec σ α} (hx : Keeps f x) (hy : Keeps f y) :
  Keeps f (if c then x else y)
  := by
  split
  · apply hx
  · apply hy

/-- An execution that does not change the state. -/
theorem keeps_of_eq {x : Exec σ α} (h : ∀ s, (∃ a, x.run s = .ok a s) ∨ ∃ e, x.run s = .error e s) :
  Keeps f x
  := by
  intro s
  unfold Meets
  obtain ⟨a, ha⟩ | ⟨e, he⟩ := h s
  · rw [ha]
  · rw [he]

end Keeps

/-! ### What an execution preserves -/

/-- What holds of the state before the execution holds of the state in which it reaches its end
or stops. -/
def Preserves (P : σ → Prop) (x : Exec σ α) : Prop :=
  ∀ s, P s → Meets x s (fun _ t => P t) fun _ t => P t

section Preserves

variable {P : σ → Prop}

theorem preserves_pure (a : α) :
  Preserves P (pure a : Exec σ α)
  := fun _ hs => meets_pure hs

theorem preserves_stop (e : Stop) :
  Preserves P (stop e : Exec σ α)
  := fun _ hs => meets_stop hs

theorem Preserves.bind {x : Exec σ α} {g : α → Exec σ β} (hx : Preserves P x)
    (hg : ∀ a, Preserves P (g a)) :
  Preserves P (x >>= g)
  := by
  intro s hs
  apply meets_bind
  apply (hx s hs).mono
  · intro a t ht
    apply hg a t ht
  · intro e t ht
    apply ht

theorem Preserves.map {x : Exec σ α} (hx : Preserves P x) (g : α → β) :
  Preserves P (g <$> x)
  := by
  rw [map_eq_pure_bind]
  apply hx.bind fun a => preserves_pure _

theorem preserves_ite
    {c : Prop} [Decidable c] {x y : Exec σ α} (hx : Preserves P x) (hy : Preserves P y) :
  Preserves P (if c then x else y)
  := by
  split
  · apply hx
  · apply hy

/-- What is said of a part of the state that the execution leaves alone. -/
theorem Keeps.preserves {f : σ → τ} {x : Exec σ α} (h : Keeps f x) (Q : τ → Prop) :
  Preserves (fun s => Q (f s)) x
  := by
  intro s hs
  apply (h s).mono
  · intro a t ht
    show Q (f t)
    rw [ht]
    apply hs
  · intro e t ht
    show Q (f t)
    rw [ht]
    apply hs

/-- To leave a part of the state alone is to preserve each value of it. -/
theorem keeps_iff_preserves {f : σ → τ} {x : Exec σ α} :
  Keeps f x ↔ ∀ v, Preserves (fun s => f s = v) x
  := by
  constructor
  · intro h v
    apply h.preserves fun w => w = v
  · intro h s
    apply h (f s) s rfl

end Preserves

end Exec
