import KhdfLinux.Lib.Exec
import Mathlib.Logic.Function.Basic

/-!
# Locks

Executions over the locks `ι` of a program.  To take a lock that is held already never
returns, and to release one that is not held has no meaning.  An execution is balanced if
it returns with the locks as they were; a sequence of balanced executions is balanced.
-/

/-- Which of the locks are held. -/
abbrev Locks (ι : Type) := ι → Bool

namespace Locks

open Exec

variable {ι α β : Type}

/-- No lock is held. -/
def free : Locks ι := fun _ => false

/-- The execution returns with the locks as they were. -/
def Balanced (x : Exec (Locks ι) α) (s : Locks ι) : Prop := ∃ a, x.run s = .ok a s

/-- A step before the rest. -/
theorem balanced_bind_of_run
    {x : Exec (Locks ι) α} {f : α → Exec (Locks ι) β} {s : Locks ι} {a : α}
    (hx : x.run s = .ok a s) :
  Balanced (x >>= f) s ↔ Balanced (f a) s
  := by
  unfold Balanced
  rw [EStateM.run_bind, hx]

/-- A sequence of balanced executions is balanced. -/
theorem balanced_mapM
    {s : Locks ι} {f : β → Exec (Locks ι) α} {bs : List β} (h : ∀ b ∈ bs, Balanced (f b) s) :
  Balanced (bs.mapM f) s
  := by
  induction bs with
  | nil => exact ⟨[], rfl⟩
  | cons b bs ih =>
      obtain ⟨a, ha⟩ := h b (by simp)
      obtain ⟨as, has⟩ := ih (fun b hb => h b (by simp [hb]))
      rw [List.mapM_cons, balanced_bind_of_run ha, balanced_bind_of_run has]
      exact ⟨a :: as, rfl⟩

section Operations

variable [DecidableEq ι]

/-- Take the lock. -/
def acquire (l : ι) : Exec (Locks ι) Unit := fun s =>
  if s l then .error (.fault .deadlock) s else .ok () (Function.update s l true)

/-- Release the lock. -/
def release (l : ι) : Exec (Locks ι) Unit := fun s =>
  if s l then .ok () (Function.update s l false) else .error (.fault .notHeld) s

/-- An attempt to take the lock that may be given up, with the return code `ret`; the lock is
taken if that is zero. -/
def attempt (l : ι) (ret : Int) : Exec (Locks ι) Int := fun s =>
  if ret ≠ 0 then .ok ret s
  else if s l then .error (.fault .deadlock) s
  else .ok ret (Function.update s l true)

@[simp]
theorem run_acquire {l : ι} {s : Locks ι} (h : s l = false) :
  (acquire l).run s = .ok () (Function.update s l true)
  := if_neg (by simp [h])

@[simp]
theorem run_release {l : ι} {s : Locks ι} (h : s l = true) :
  (release l).run s = .ok () (Function.update s l false)
  := if_pos h

theorem run_attempt {l : ι} {s : Locks ι} (ret : Int) (h : s l = false) :
  (attempt l ret).run s = .ok ret (if ret = 0 then Function.update s l true else s)
  := by
  unfold attempt EStateM.run
  by_cases hret : ret = 0
  · simp [hret, h]
  · simp [hret]

end Operations

end Locks
