import Mathlib.Algebra.BigOperators.Intervals
import Mathlib.Tactic.IntervalCases

/-!
# The Gregorian calendar

* `IsLeap`, `yearDays`, `monthDays`: the lengths of years and months;
* `Date`: a date that exists; `Date.daysSince`: the days from the beginning of a year to it, month by month and year by
  year;
* `sum_yearDays`, `sum_monthDays`: the sums in closed form; `Date.daysSince_eq`: the days in closed form.
-/

namespace Foundations.Calendar

open Finset

def IsLeap (year : Nat) : Prop := year % 4 = 0 ∧ (year % 100 = 0 → year % 400 = 0)

instance : DecidablePred IsLeap := fun _ => inferInstanceAs (Decidable (_ ∧ _))

def yearDays (year : Nat) : Nat := if IsLeap year then 366 else 365

def monthDays (year month : Nat) : Nat :=
  if month = 2 then if IsLeap year then 29 else 28
  else if month = 4 ∨ month = 6 ∨ month = 9 ∨ month = 11 then 30
  else 31

@[ext]
structure Date where
  year : Nat
  month : Nat
  day : Nat
  month_pos : 1 ≤ month
  month_le : month ≤ 12
  day_pos : 1 ≤ day
  day_le : day ≤ monthDays year month
deriving DecidableEq

/-- The days from the beginning of the year `epoch` to a date. -/
def Date.daysSince (epoch : Nat) (d : Date) : Nat :=
  (∑ year ∈ Ico epoch d.year, yearDays year) + (∑ month ∈ Ico 1 d.month, monthDays d.year month) + (d.day - 1)

/-! ## Closed forms -/

/-- The days before a year, counted from the beginning of the year 1. -/
def daysBeforeYear (year : Int) : Int :=
  365 * (year - 1) + (year - 1) / 4 - (year - 1) / 100 + (year - 1) / 400

theorem daysBeforeYear_succ (year : Nat) :
    daysBeforeYear (year + 1 : Nat) = daysBeforeYear year + yearDays year := by
  unfold daysBeforeYear yearDays
  split_ifs with h
  · unfold IsLeap at h
    push_cast
    omega
  · unfold IsLeap at h
    push_cast
    omega

theorem sum_yearDays {epoch year : Nat} (h : epoch ≤ year) :
    ((∑ y ∈ Ico epoch year, yearDays y : Nat) : Int) = daysBeforeYear year - daysBeforeYear epoch := by
  induction year, h using Nat.le_induction with
  | base => simp
  | succ year hle ih =>
    rw [sum_Ico_succ_top hle, Nat.cast_add, ih, daysBeforeYear_succ]
    omega

/-- The days before a month: 30.6 a month from March on. -/
theorem sum_monthDays (year : Nat) {month : Nat} (h1 : 1 ≤ month) (h12 : month ≤ 12) :
    ∑ m ∈ Ico 1 month, monthDays year m =
      if month ≤ 2 then 31 * (month - 1) else (153 * (month - 3) + 2) / 5 + if IsLeap year then 60 else 59 := by
  interval_cases month <;> simp [sum_Ico_succ_top, monthDays] <;> split_ifs <;> rfl

theorem monthDays_le (year month : Nat) : monthDays year month ≤ 31 := by
  unfold monthDays
  split_ifs <;> omega

theorem Date.daysSince_eq {epoch : Nat} (d : Date) (h : epoch ≤ d.year) :
    (d.daysSince epoch : Int) = daysBeforeYear d.year - daysBeforeYear epoch + (d.day - 1) +
      if d.month ≤ 2 then 31 * ((d.month : Int) - 1)
      else (153 * ((d.month : Int) - 3) + 2) / 5 + if IsLeap d.year then 60 else 59 := by
  have hmonth := d.month_pos
  have hday := d.day_pos
  rw [daysSince, Nat.cast_add, Nat.cast_add, sum_yearDays h, sum_monthDays d.year hmonth d.month_le]
  split_ifs <;> omega

end Foundations.Calendar
