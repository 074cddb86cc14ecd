import Mathlib.Logic.Relation
import Mathlib.Tactic.Common

/-!
# Workers

A thread that serves what is posted to it: as long as it was not told to stop, it waits until
something is posted, serves it, clears the posting and goes round.  A worker that is told to stop
serves at most once more; one that waits while nothing is posted does not end until something is;
and one that has ended serves nothing.
-/

/-- Where a worker is: before the test of its loop, waiting, serving, about to clear what is
posted, or past its end. -/
inductive Worker.Place where
  | tests
  | waits
  | serves
  | clears
  | ended
  deriving DecidableEq, Repr

/-- A worker: where it is, whether it was told to stop, whether something is posted, how often it
was posted to, and what it has served. -/
structure Worker (α : Type) where
  place : Worker.Place
  stop : Bool
  mail : Bool
  posts : Nat
  served : List α

namespace Worker

variable {α : Type} {w w' : Worker α}

/-- What a worker and those around it do. -/
inductive Step : Worker α → Worker α → Prop where
  | post {w : Worker α} (stored : Bool) :
      Step w { w with mail := w.mail || stored, posts := w.posts + 1 }
  | stop {w : Worker α} : Step w { w with stop := true }
  | goOn {w : Worker α} (hplace : w.place = .tests) (hstop : w.stop = false) :
      Step w { w with place := .waits }
  | leave {w : Worker α} (hplace : w.place = .tests) (hstop : w.stop = true) :
      Step w { w with place := .ended }
  | wake {w : Worker α} (hplace : w.place = .waits) (hmail : w.mail = true) :
      Step w { w with place := .serves }
  | serve {w : Worker α} (hplace : w.place = .serves) (items : List α) (hitems : items.length ≤ 1) :
      Step w { w with place := .clears, served := w.served ++ items }
  | clear {w : Worker α} (hplace : w.place = .clears) :
      Step w { w with place := .tests, mail := false }

/-- A worker and those around it go on for any time. -/
abbrev Steps : Worker α → Worker α → Prop := Relation.ReflTransGen Step

/-- How often a worker that was told to stop may still serve. -/
def left (w : Worker α) : Nat :=
  match w.place with
  | .waits | .serves => 1
  | _ => 0

theorem left_le (w : Worker α) :
  w.left ≤ 1
  := by
  unfold left
  split
  · exact Nat.le_refl _
  · exact Nat.le_refl _
  · exact Nat.zero_le 1

theorem Step.served_prefix (h : Step w w') :
  w.served <+: w'.served
  := by
  cases h with
  | serve hplace items hitems => exact List.prefix_append w.served items
  | post | stop | goOn | leave | wake | clear => exact List.prefix_rfl

theorem Step.posts_le (h : Step w w') :
  w.posts ≤ w'.posts
  := by
  cases h with
  | post stored => exact Nat.le_succ w.posts
  | serve | stop | goOn | leave | wake | clear => exact Nat.le_refl _

theorem Steps.served_prefix (h : Steps w w') :
  w.served <+: w'.served
  := by
  induction h with
  | refl => exact List.prefix_rfl
  | tail _ hstep ih => exact ih.trans hstep.served_prefix

theorem Steps.posts_le (h : Steps w w') :
  w.posts ≤ w'.posts
  := by
  induction h with
  | refl => exact Nat.le_refl _
  | tail _ hstep ih => exact Nat.le_trans ih hstep.posts_le

/-- Something is posted. -/
theorem Step.posted (h : w' = { w with mail := true, posts := w.posts + 1 }) :
  Step w w'
  := by
  subst h
  simpa using Step.post (w := w) true

/-- Nothing is stored of what is posted. -/
theorem Step.quiet (h : w' = { w with posts := w.posts + 1 }) :
  Step w w'
  := by
  subst h
  simpa using Step.post (w := w) false

/-- What is served is nothing. -/
theorem Step.serveNothing (hplace : w.place = .serves) :
  Step w { w with place := .clears }
  := by simpa using Step.serve hplace [] (Nat.zero_le 1)

/-- A worker that has ended serves nothing. -/
theorem Step.of_ended (h : Step w w') (hended : w.place = .ended) :
  w'.place = .ended ∧ w'.served = w.served
  := by
  cases h with
  | post | stop => exact ⟨hended, rfl⟩
  | leave => exact ⟨rfl, rfl⟩
  | goOn hplace | wake hplace | serve hplace | clear hplace =>
      rw [hended] at hplace
      cases hplace

theorem Steps.of_ended (h : Steps w w') (hended : w.place = .ended) :
  w'.place = .ended ∧ w'.served = w.served
  := by
  induction h with
  | refl => exact ⟨hended, rfl⟩
  | tail _ hstep ih =>
      obtain ⟨hplace, hserved⟩ := hstep.of_ended ih.1
      exact ⟨hplace, hserved.trans ih.2⟩

/-- Each serving after the word to stop uses up what is left. -/
theorem Step.left_le (h : Step w w') (hstop : w.stop = true) :
  w'.stop = true ∧ w'.served.length + w'.left ≤ w.served.length + w.left
  := by
  cases h with
  | post stored => exact ⟨hstop, Nat.le_refl _⟩
  | stop => exact ⟨rfl, Nat.le_refl _⟩
  | goOn hplace hgo =>
      rw [hstop] at hgo
      cases hgo
  | leave hplace => exact ⟨hstop, by simp [left, hplace]⟩
  | wake hplace => exact ⟨hstop, by simp [left, hplace]⟩
  | serve hplace items hitems =>
      refine ⟨hstop, ?_⟩
      simp only [left, hplace, List.length_append]
      omega
  | clear hplace => exact ⟨hstop, by simp [left, hplace]⟩

/-- A worker that was told to stop serves at most once more. -/
theorem Steps.served_le (h : Steps w w') (hstop : w.stop = true) :
  w'.served.length ≤ w.served.length + 1
  := by
  have hleft : w'.stop = true ∧ w'.served.length + w'.left ≤ w.served.length + w.left := by
    induction h with
    | refl => exact ⟨hstop, Nat.le_refl _⟩
    | tail _ hstep ih =>
        obtain ⟨hstop', hle⟩ := hstep.left_le ih.1
        exact ⟨hstop', Nat.le_trans hle ih.2⟩
  have := w.left_le
  omega

/-- A worker that waits for nothing goes on waiting until something is posted. -/
theorem Steps.waits (h : Steps w w') (hplace : w.place = .waits) (hmail : w.mail = false)
    (hposts : w'.posts = w.posts) :
  w'.place = .waits
  := by
  have hwaits : w'.place = .waits ∧ w'.mail = false := by
    induction h with
    | refl => exact ⟨hplace, hmail⟩
    | tail hsteps hstep ih =>
        have hbefore := hstep.posts_le
        have hfirst := Steps.posts_le hsteps
        obtain ⟨hplace', hmail'⟩ := ih (by omega)
        cases hstep with
        | post stored => exact absurd hposts (by simp only; omega)
        | stop => exact ⟨hplace', hmail'⟩
        | wake _ hmail =>
            rw [hmail'] at hmail
            cases hmail
        | goOn hplace | leave hplace | serve hplace | clear hplace =>
            rw [hplace'] at hplace
            cases hplace
  exact hwaits.1

end Worker
