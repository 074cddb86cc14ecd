import KhdfLinux.Lib.Exec

/-!
# Loops

A loop whose body either goes on with another value or ends with a result, for a number of turns,
and the rule for its total correctness: an invariant, and a measure that each turn makes smaller.
-/

namespace Exec

variable {σ α β : Type}

/-- At most so many turns of a loop.  There is no result if they do not bring the loop to its
end. -/
def iterate (body : α → Exec σ (α ⊕ β)) : (turns : Nat) → α → Exec σ (Option β)
  | 0, _ => pure none
  | turns + 1, a => do
      match ← body a with
      | .inl a' => iterate body turns a'
      | .inr b => pure (some b)

/-- What an execution that does not stop establishes at its end. -/
theorem Meets.total
    {x : Exec σ α} {s : σ} {Q : α → σ → Prop} (h : Meets x s Q fun _ _ => False) :
  ∃ a s', x.run s = .ok a s' ∧ Q a s'
  := by
  unfold Meets at h
  cases hx : x.run s with
  | ok a s' =>
      rw [hx] at h
      use a, s'
  | error e s' =>
      rw [hx] at h
      exact h.elim

/-- A loop whose turns keep an invariant and make a measure smaller comes to its end, with what its
last turn establishes. -/
theorem iterate_meets
    {body : α → Exec σ (α ⊕ β)} (Inv : α → σ → Prop) (measure : α → Nat) {Q : β → σ → Prop}
    {E : Stop → σ → Prop}
    (hturn : ∀ a s, Inv a s →
      Meets (body a) s
        (fun r s' => (∀ a', r = .inl a' → Inv a' s' ∧ measure a' < measure a)
          ∧ ∀ b, r = .inr b → Q b s') E)
    {turns : Nat} {a : α} {s : σ} (hinv : Inv a s) (hturns : measure a < turns) :
  Meets (iterate body turns a) s (fun r s' => ∃ b, r = some b ∧ Q b s') E
  := by
  induction turns generalizing a s with
  | zero => exact absurd hturns (Nat.not_lt_zero _)
  | succ turns ih =>
      apply meets_bind
      apply (hturn a s hinv).mono
      · rintro (a' | b) s' ⟨hnext, hend⟩
        · obtain ⟨hinv', hlt⟩ := hnext a' rfl
          apply ih hinv' (Nat.lt_of_lt_of_le hlt (Nat.le_of_lt_succ hturns))
        · apply meets_pure
          use b, rfl
          apply hend b rfl
      · exact fun e s' he => he

/-! ### The turns of a loop -/

section Turns

variable {body : α → Exec σ (α ⊕ β)} {a a' : α} {b b' : β} {s s' s'' : σ} {turns n : Nat}

/-- A turn that goes on. -/
theorem iterate_turn (h : (body a).run s = .ok (.inl a') s') :
  (iterate body (turns + 1) a).run s = (iterate body turns a').run s'
  := by
  rw [iterate, EStateM.run_bind, h]

/-- A turn that ends the loop. -/
theorem iterate_end (h : (body a).run s = .ok (.inr b) s') :
  (iterate body (turns + 1) a).run s = .ok (some b) s'
  := by
  rw [iterate, EStateM.run_bind, h]
  rfl

/-- The first turns of a loop that go on. -/
theorem iterate_turns {as : Nat → α} {ss : Nat → σ}
  (h : ∀ i < n, (body (as i)).run (ss i) = .ok (.inl (as (i + 1))) (ss (i + 1))) (turns : Nat) :
  (iterate body (n + turns) (as 0)).run (ss 0) = (iterate body turns (as n)).run (ss n)
  := by
  induction n generalizing turns with
  | zero => rw [Nat.zero_add]
  | succ n ih =>
      rw [Nat.add_right_comm, Nat.add_assoc, ih fun i hi => h i (Nat.lt_succ_of_lt hi)]
      apply iterate_turn (h n (Nat.lt_succ_self n))

/-- A loop whose turns go on has no result. -/
theorem iterate_unended {as : Nat → α} {ss : Nat → σ}
  (h : ∀ i < n, (body (as i)).run (ss i) = .ok (.inl (as (i + 1))) (ss (i + 1))) :
  (iterate body n (as 0)).run (ss 0) = .ok none (ss n)
  := iterate_turns h 0

/-- A loop has one result. -/
theorem iterate_unique {turns' : Nat} (h : (iterate body turns a).run s = .ok (some b) s')
  (h' : (iterate body turns' a).run s = .ok (some b') s'') :
  b = b' ∧ s' = s''
  := by
  induction turns generalizing a s turns' with
  | zero => cases h
  | succ turns ih =>
      cases turns' with
      | zero => cases h'
      | succ turns' =>
          cases hbody : (body a).run s with
          | error e t =>
              rw [iterate, EStateM.run_bind, hbody] at h
              cases h
          | ok r t =>
              cases r with
              | inl a' =>
                  rw [iterate_turn hbody] at h h'
                  apply ih h h'
              | inr c =>
                  rw [iterate_end hbody] at h h'
                  cases h
                  cases h'
                  exact ⟨rfl, rfl⟩

end Turns

end Exec
