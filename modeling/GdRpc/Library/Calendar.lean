import Mathlib.Order.Defs.LinearOrder
import Mathlib.Tactic.Cases

/-!
# Dates

The Gregorian calendar, one day after the other.
-/

namespace GdRpc.Library

def isLeap (year : Nat) : Bool :=
  year % 4 = 0 ∧ (year % 100 ≠ 0 ∨ year % 400 = 0)

def daysIn (year month : Nat) : Nat :=
  match month with
  | 2 => if isLeap year then 29 else 28
  | 4 | 6 | 9 | 11 => 30
  | _ => 31

theorem daysIn_bounds (year month : Nat) : 1 ≤ daysIn year month ∧ daysIn year month ≤ 31 := by
  unfold daysIn
  split
  · split <;> decide
  all_goals decide

/-- A day of the calendar. -/
structure Date where
  year : Nat
  month : Nat
  day : Nat
  month_bounds : 1 ≤ month ∧ month ≤ 12
  day_bounds : 1 ≤ day ∧ day ≤ daysIn year month

namespace Date

def newYear (year : Nat) : Date where
  year := year
  month := 1
  day := 1
  month_bounds := ⟨Nat.le_refl 1, by decide⟩
  day_bounds := ⟨Nat.le_refl 1, (daysIn_bounds year 1).1⟩

def tomorrow (date : Date) : Date :=
  if inMonth : date.day < daysIn date.year date.month then
    ⟨date.year, date.month, date.day + 1, date.month_bounds, Nat.succ_pos _, inMonth⟩
  else if inYear : date.month < 12 then
    ⟨date.year, date.month + 1, 1, ⟨Nat.succ_pos _, inYear⟩, Nat.le_refl 1,
      (daysIn_bounds _ _).1⟩
  else
    newYear (date.year + 1)

/-- The date a number of days later. -/
def afterDays (date : Date) : Nat → Date
  | 0 => date
  | days + 1 => (date.afterDays days).tomorrow

/-- The order of time. -/
def Before (first second : Date) : Prop :=
  first.year < second.year ∨ first.year = second.year ∧
    (first.month < second.month ∨ first.month = second.month ∧ first.day < second.day)

theorem Before.trans {first second third : Date} (left : first.Before second)
    (right : second.Before third) : first.Before third := by
  unfold Before at *
  omega

theorem before_tomorrow (date : Date) : date.Before date.tomorrow := by
  unfold tomorrow
  split
  · exact Or.inr ⟨rfl, Or.inr ⟨rfl, Nat.lt_succ_self _⟩⟩
  · split
    · exact Or.inr ⟨rfl, Or.inl (Nat.lt_succ_self _)⟩
    · exact Or.inl (Nat.lt_succ_self _)

theorem before_afterDays (date : Date) {first second : Nat} (order : first < second) :
    (date.afterDays first).Before (date.afterDays second) := by
  induction order with
  | refl => exact before_tomorrow _
  | step _ inductionHypothesis => exact inductionHypothesis.trans (before_tomorrow _)

end Date

end GdRpc.Library
