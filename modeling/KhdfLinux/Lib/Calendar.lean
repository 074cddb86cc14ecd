import Mathlib.Tactic.Common

/-!
# Calendar

The Gregorian calendar: leap years, the lengths of the months, and the days of a year, counted from
zero.  Two years give a date the same day exactly if it is not after February, or both are leap
years, or neither.
-/

namespace Calendar

/-- The leap years. -/
def Leap (year : ℕ) : Prop := 4 ∣ year ∧ ¬100 ∣ year ∨ 400 ∣ year

instance (year : ℕ) : Decidable (Leap year) := by
  unfold Leap
  infer_instance

/-- The days of a month; the months are counted from zero. -/
def monthDays (year month : ℕ) : ℕ :=
  if month = 1 then (if Leap year then 29 else 28)
  else if month = 3 ∨ month = 5 ∨ month = 8 ∨ month = 10 then 30
  else 31

/-- The days of the months before a month. -/
def daysBefore (year : ℕ) : ℕ → ℕ
  | 0 => 0
  | month + 1 => daysBefore year month + monthDays year month

/-- The day of the year, counted from zero. -/
def dayOfYear (year month day : ℕ) : ℕ := daysBefore year month + (day - 1)

/-- The date exists. -/
structure IsDate (year month day : ℕ) : Prop where
  month_lt : month < 12
  day_pos : 1 ≤ day
  day_le : day ≤ monthDays year month

variable {year year' month day : ℕ}

/-- Only February depends on the year. -/
theorem monthDays_congr (year year' : ℕ) (h : month ≠ 1) :
  monthDays year month = monthDays year' month
  := by
  unfold monthDays
  rw [if_neg h, if_neg h]

theorem monthDays_le (year month : ℕ) :
  monthDays year month ≤ 31
  := by
  unfold monthDays
  split
  · split <;> omega
  · split <;> omega

/-- January and February begin on the same days in all years. -/
theorem daysBefore_congr (year year' : ℕ) (h : month ≤ 1) :
  daysBefore year month = daysBefore year' month
  := by
  match month with
  | 0 => rfl
  | 1 => rfl

/-- From March on, a leap year is a day ahead. -/
theorem daysBefore_leap (hleap : Leap year) (hleap' : ¬Leap year') (month : ℕ) :
  daysBefore year (month + 2) = daysBefore year' (month + 2) + 1
  := by
  induction month with
  | zero =>
      have hdays : monthDays year 1 = 29 := if_pos hleap
      have hdays' : monthDays year' 1 = 28 := if_neg hleap'
      unfold daysBefore
      rw [hdays, hdays', daysBefore_congr year year' (Nat.le_refl 1)]
  | succ month ih =>
      show daysBefore year (month + 2) + _ = daysBefore year' (month + 2) + _ + 1
      rw [ih, monthDays_congr year year' (by omega), Nat.add_right_comm]

/-- Years that are both leap years, or not, begin their months on the same days. -/
theorem daysBefore_eq (hleap : Leap year ↔ Leap year') (month : ℕ) :
  daysBefore year month = daysBefore year' month
  := by
  induction month with
  | zero => rfl
  | succ month ih =>
      have hdays : monthDays year month = monthDays year' month := by
        unfold monthDays
        simp only [hleap]
      unfold daysBefore
      rw [ih, hdays]

theorem dayOfYear_eq_iff :
  dayOfYear year month day = dayOfYear year' month day ↔ month ≤ 1 ∨ (Leap year ↔ Leap year')
  := by
  unfold dayOfYear
  rw [Nat.add_right_cancel_iff]
  constructor
  · intro h
    by_contra hnot
    obtain ⟨hmonth, hleap⟩ := not_or.mp hnot
    obtain ⟨month, rfl⟩ : ∃ k, month = k + 2 := ⟨month - 2, by omega⟩
    by_cases hyear : Leap year
    · have hyear' : ¬Leap year' := fun hyear' => hleap (iff_of_true hyear hyear')
      rw [daysBefore_leap hyear hyear'] at h
      exact Nat.succ_ne_self _ h
    · have hyear' : Leap year' := by
        by_contra hyear'
        exact hleap (iff_of_false hyear hyear')
      rw [daysBefore_leap hyear' hyear] at h
      exact Nat.succ_ne_self _ h.symm
  · rintro (hmonth | hleap)
    · exact daysBefore_congr year year' hmonth
    · exact daysBefore_eq hleap month

end Calendar
