import KhdfLinux.Lib.Run
import Mathlib.Logic.Function.Basic

/-!
# Critical sections

Calls of threads on a shared state under one lock.  A call takes the lock, works on the state in
steps, and releases the lock.  `Critical.linearizable`: if each call alone does what a
sequential object does, then in every interleaving the calls return what they return on that object
when each is made at once, at a moment between its invocation and its answer.
-/

/-- What the calls do while they hold the lock: where one begins, and the steps, each of which goes
on or ends with what is returned after the lock is released; `none` is a fault. -/
structure Critical (σ κ π ρ : Type) where
  enter : κ → π
  step : π → σ → Option (σ × (π ⊕ ρ))

/-! ### Calls that are made at once -/

/-- The calls `κ` of threads `τ` on an object with the states `χ`. -/
structure Atomic (χ τ κ ρ : Type) where
  shared : χ
  place : τ → Option (κ ⊕ ρ)

namespace Atomic

/-- A thread makes a call, the call takes effect, and it returns. -/
inductive Act (τ κ ρ : Type) where
  | invoke (t : τ) (call : κ)
  | commit (t : τ)
  | answer (t : τ) (result : ρ)

variable {χ τ κ ρ : Type} [DecidableEq τ]

/-- No call. -/
def start (x : χ) : Atomic χ τ κ ρ := ⟨x, fun _ => none⟩

/-- The steps, for what a call does to the object and returns. -/
inductive Step (spec : κ → χ → χ × ρ) :
    Atomic χ τ κ ρ → Act τ κ ρ → Atomic χ τ κ ρ → Prop where
  | invoke {x : Atomic χ τ κ ρ} {t : τ} {call : κ} (hplace : x.place t = none) :
      Step spec x (.invoke t call)
        { x with place := Function.update x.place t (some (.inl call)) }
  | commit {x : Atomic χ τ κ ρ} {t : τ} {call : κ} (hplace : x.place t = some (.inl call)) :
      Step spec x (.commit t)
        ⟨(spec call x.shared).1,
          Function.update x.place t (some (.inr (spec call x.shared).2))⟩
  | answer {x : Atomic χ τ κ ρ} {t : τ} {result : ρ} (hplace : x.place t = some (.inr result)) :
      Step spec x (.answer t result)
        { x with place := Function.update x.place t none }

end Atomic

namespace Critical

/-! ### Calls in steps -/

/-- Where a thread is: outside, before the lock, at a point with the lock, before it releases the
lock, or about to return. -/
inductive Place (κ π ρ : Type) where
  | out
  | waiting (call : κ)
  | inside (point : π)
  | leaving (result : ρ)
  | answered (result : ρ)

/-- The shared state, the thread that holds the lock, and where the threads are. -/
structure State (σ τ κ π ρ : Type) where
  shared : σ
  holder : Option τ
  place : τ → Place κ π ρ

/-- What a thread does. -/
inductive Act (τ κ ρ : Type) where
  | invoke (t : τ) (call : κ)
  | acquire (t : τ)
  | work (t : τ)
  | release (t : τ)
  | answer (t : τ) (result : ρ)

/-- A call takes effect when it takes the lock. -/
def Act.atomic {τ κ ρ : Type} : Act τ κ ρ → List (Atomic.Act τ κ ρ)
  | .invoke t call => [.invoke t call]
  | .acquire t => [.commit t]
  | .work _ | .release _ => []
  | .answer t result => [.answer t result]

variable {σ χ τ κ π ρ : Type} (c : Critical σ κ π ρ)

/-- No call. -/
def State.start (shared : σ) : State σ τ κ π ρ := ⟨shared, none, fun _ => .out⟩

/-- From a point the call leaves the state `t` and the result `r`, with no other thread. -/
inductive Finishes : π → σ → σ → ρ → Prop where
  | last {p : π} {s t : σ} {r : ρ} (hstep : c.step p s = some (t, .inr r)) : Finishes p s t r
  | more {p q : π} {s t u : σ} {r : ρ} (hstep : c.step p s = some (t, .inl q))
      (hrest : Finishes q t u r) : Finishes p s u r

/-- Where a thread is after a step with the lock. -/
def after : π ⊕ ρ → Place κ π ρ
  | .inl point => .inside point
  | .inr result => .leaving result

section Step

variable [DecidableEq τ]

/-- The thread is now at the place. -/
def State.move (s : State σ τ κ π ρ) (t : τ) (place : Place κ π ρ) : State σ τ κ π ρ :=
  { s with place := Function.update s.place t place }

/-- The steps of the threads. -/
inductive Step : State σ τ κ π ρ → Act τ κ ρ → State σ τ κ π ρ → Prop where
  | invoke {s : State σ τ κ π ρ} {t : τ} {call : κ} (hplace : s.place t = .out) :
      Step s (.invoke t call) (s.move t (.waiting call))
  | acquire {s : State σ τ κ π ρ} {t : τ} {call : κ} (hplace : s.place t = .waiting call)
      (hfree : s.holder = none) :
      Step s (.acquire t) { s.move t (.inside (c.enter call)) with holder := some t }
  | work {s : State σ τ κ π ρ} {t : τ} {point : π} {shared : σ} {next : π ⊕ ρ}
      (hplace : s.place t = .inside point) (hstep : c.step point s.shared = some (shared, next)) :
      Step s (.work t) { s.move t (after next) with shared }
  | release {s : State σ τ κ π ρ} {t : τ} {result : ρ} (hplace : s.place t = .leaving result) :
      Step s (.release t) { s.move t (.answered result) with holder := none }
  | answer {s : State σ τ κ π ρ} {t : τ} {result : ρ} (hplace : s.place t = .answered result) :
      Step s (.answer t result) (s.move t .out)

end Step

/-! ### The two agree -/

/-- A thread without the lock is where it is in the atomic run. -/
def Same : Place κ π ρ → Option (κ ⊕ ρ) → Prop
  | .out, x => x = none
  | .waiting call, x => x = some (.inl call)
  | .answered result, x => x = some (.inr result)
  | _, _ => False

/-- The thread with the lock has still to do what its call has done in the atomic run. -/
inductive Ahead (R : σ → χ → Prop) (shared : σ) (x : χ) : Place κ π ρ → Option (κ ⊕ ρ) → Prop where
  | inside {point : π} {t : σ} {r : ρ} (hfinishes : c.Finishes point shared t r) (hR : R t x) :
      Ahead R shared x (.inside point) (some (.inr r))
  | leaving {r : ρ} (hR : R shared x) : Ahead R shared x (.leaving r) (some (.inr r))

/-- The states of the two runs. -/
structure Linked (R : σ → χ → Prop) (s : State σ τ κ π ρ) (x : Atomic χ τ κ ρ) : Prop where
  free : s.holder = none → R s.shared x.shared
  holder : ∀ t, s.holder = some t → c.Ahead R s.shared x.shared (s.place t) (x.place t)
  others : ∀ t, s.holder ≠ some t → Same (s.place t) (x.place t)

variable {c} {R : σ → χ → Prop} {s s' : State σ τ κ π ρ} {x : Atomic χ τ κ ρ} {t : τ}

theorem linked_start {shared : σ} {y : χ} (h : R shared y) :
  c.Linked R (State.start shared : State σ τ κ π ρ) (Atomic.start y)
  where
  free _ := h
  holder _ ht := nomatch ht
  others _ _ := rfl

/-- A thread that is outside of the critical section does not hold the lock. -/
theorem Linked.not_holder (h : c.Linked R s x)
    (hplace : s.place t = .out ∨ (∃ call, s.place t = .waiting call)
      ∨ ∃ result, s.place t = .answered result) :
  s.holder ≠ some t
  := by
  intro hholder
  have hahead := h.holder t hholder
  obtain heq | ⟨call, heq⟩ | ⟨result, heq⟩ := hplace
  · rw [heq] at hahead
    cases hahead
  · rw [heq] at hahead
    cases hahead
  · rw [heq] at hahead
    cases hahead

/-- A thread in the critical section holds the lock. -/
theorem Linked.is_holder (h : c.Linked R s x)
    (hplace : (∃ point, s.place t = .inside point) ∨ ∃ result, s.place t = .leaving result) :
  s.holder = some t
  := by
  by_contra hne
  have hsame := h.others t hne
  obtain ⟨point, heq⟩ | ⟨result, heq⟩ := hplace
  · rw [heq] at hsame
    exact hsame
  · rw [heq] at hsame
    exact hsame

/-- No step with the lock is a fault. -/
theorem Linked.step_ne_none (h : c.Linked R s x) {point : π} (hplace : s.place t = .inside point) :
  c.step point s.shared ≠ none
  := by
  have hahead := h.holder t (h.is_holder (.inl ⟨point, hplace⟩))
  rw [hplace] at hahead
  generalize x.place t = y at hahead
  cases hahead with
  | inside hfinishes hR =>
      cases hfinishes with
      | last hstep =>
          rw [hstep]
          nofun
      | more hstep hrest =>
          rw [hstep]
          nofun

section Step

variable [DecidableEq τ] {spec : κ → χ → χ × ρ}

/-- A thread without the lock moves in both runs. -/
theorem Linked.move (h : c.Linked R s x) (hne : s.holder ≠ some t) {place : Place κ π ρ}
    {y : Option (κ ⊕ ρ)} (hsame : Same place y) :
  c.Linked R (s.move t place) { x with place := Function.update x.place t y }
  where
  free := h.free
  holder u hu := by
    have hut : u ≠ t := by
      rintro rfl
      exact hne hu
    change c.Ahead R s.shared x.shared (Function.update s.place t place u)
      (Function.update x.place t y u)
    rw [Function.update_of_ne hut, Function.update_of_ne hut]
    exact h.holder u hu
  others u hu := by
    change Same (Function.update s.place t place u) (Function.update x.place t y u)
    obtain rfl | hut := eq_or_ne u t
    · rw [Function.update_self, Function.update_self]
      exact hsame
    · rw [Function.update_of_ne hut, Function.update_of_ne hut]
      exact h.others u hu

/-- The call of a thread that takes the lock takes effect. -/
theorem Linked.acquire (h : c.Linked R s x) (hfree : s.holder = none) {y : χ} {call : κ} {r : ρ}
    (hahead : c.Ahead R s.shared y (.inside (c.enter call)) (some (.inr r))) :
  c.Linked R { s.move t (.inside (c.enter call)) with holder := some t }
    ⟨y, Function.update x.place t (some (.inr r))⟩
  where
  free hnone := nomatch hnone
  holder u hu := by
    cases hu
    change c.Ahead R s.shared y (Function.update s.place t _ t) (Function.update x.place t _ t)
    rw [Function.update_self, Function.update_self]
    exact hahead
  others u hu := by
    have hut : u ≠ t := fun heq => hu (congrArg some heq.symm)
    change Same (Function.update s.place t _ u) (Function.update x.place t _ u)
    rw [Function.update_of_ne hut, Function.update_of_ne hut]
    exact h.others u (hfree ▸ nofun)

/-- The thread with the lock goes on. -/
theorem Linked.goOn (h : c.Linked R s x) (hholder : s.holder = some t) {shared : σ}
    {place : Place κ π ρ} (hahead : c.Ahead R shared x.shared place (x.place t)) :
  c.Linked R { s.move t place with shared } x
  where
  free hnone := nomatch hholder.symm.trans hnone
  holder u hu := by
    cases hholder.symm.trans hu
    change c.Ahead R shared x.shared (Function.update s.place t place t) (x.place t)
    rw [Function.update_self]
    exact hahead
  others u hu := by
    have hut : u ≠ t := by
      rintro rfl
      exact hu hholder
    change Same (Function.update s.place t place u) (x.place u)
    rw [Function.update_of_ne hut]
    exact h.others u hu

/-- The thread with the lock releases it. -/
theorem Linked.release (h : c.Linked R s x) {r : ρ} (hplace : s.place t = .leaving r) :
  c.Linked R { s.move t (.answered r) with holder := none } x
  := by
  have hholder := h.is_holder (.inr ⟨r, hplace⟩)
  have hahead := h.holder t hholder
  rw [hplace] at hahead
  generalize hy : x.place t = y at hahead
  cases hahead with
  | leaving hR =>
      refine ⟨fun _ => hR, nofun, fun u _ => ?_⟩
      change Same (Function.update s.place t _ u) (x.place u)
      obtain rfl | hut := eq_or_ne u t
      · rw [Function.update_self, hy]
        rfl
      · rw [Function.update_of_ne hut]
        apply h.others u
        rw [hholder]
        exact fun heq => hut (Option.some.inj heq).symm

/-- A step of a thread is what it stands for in the atomic run. -/
theorem Linked.step
    (hcall : ∀ call s y, R s y →
      ∃ u, c.Finishes (c.enter call) s u (spec call y).2 ∧ R u (spec call y).1)
    (h : c.Linked R s x) {a : Act τ κ ρ} (hstep : c.Step s a s') :
  ∃ y, Run (Atomic.Step spec) x a.atomic y ∧ c.Linked R s' y
  := by
  cases hstep with
  | @invoke t call hplace =>
      have hne := h.not_holder (.inl hplace)
      have hsame := h.others t hne
      rw [hplace] at hsame
      exact ⟨_, .cons (.invoke hsame) (.nil _), h.move hne rfl⟩
  | @acquire t call hplace hfree =>
      have hne := h.not_holder (.inr (.inl ⟨call, hplace⟩))
      have hsame := h.others t hne
      rw [hplace] at hsame
      obtain ⟨u, hfinishes, hR⟩ := hcall call _ _ (h.free hfree)
      exact ⟨_, .cons (.commit hsame) (.nil _), h.acquire hfree (.inside hfinishes hR)⟩
  | @work t point shared next hplace hstep =>
      have hholder := h.is_holder (.inl ⟨point, hplace⟩)
      have hahead := h.holder t hholder
      refine ⟨x, .nil x, h.goOn hholder ?_⟩
      rw [hplace] at hahead
      generalize x.place t = y at hahead
      cases hahead with
      | inside hfinishes hR =>
          cases hfinishes with
          | last hlast =>
              cases hlast.symm.trans hstep
              exact .leaving hR
          | more hmore hrest =>
              cases hmore.symm.trans hstep
              exact .inside hrest hR
  | release hplace => exact ⟨x, .nil x, h.release hplace⟩
  | @answer t result hplace =>
      have hne := h.not_holder (.inr (.inr ⟨result, hplace⟩))
      have hsame := h.others t hne
      rw [hplace] at hsame
      exact ⟨_, .cons (.answer hsame) (.nil _), h.move hne rfl⟩

/-- If each call alone does what it does on the sequential object, then in every run the calls
return what they return on the object when each is made at the moment it takes the lock. -/
theorem linearizable
    (hcall : ∀ call s y, R s y →
      ∃ u, c.Finishes (c.enter call) s u (spec call y).2 ∧ R u (spec call y).1)
    {as : List (Act τ κ ρ)} (hrun : Run c.Step s as s') (h : c.Linked R s x) :
  ∃ y, Run (Atomic.Step spec) x (as.flatMap Act.atomic) y ∧ c.Linked R s' y
  := by
  induction hrun generalizing x with
  | nil s => exact ⟨x, .nil x, h⟩
  | cons head tail ih =>
      obtain ⟨y, hy, hlinked⟩ := h.step hcall head
      obtain ⟨z, hz, hlinked⟩ := ih hlinked
      exact ⟨z, hy.append hz, hlinked⟩

end Step

end Critical
