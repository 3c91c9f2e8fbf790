import Mathlib.Data.Nat.Basic
import Mathlib.Order.Basic
import Mathlib.Tactic.IntervalCases

/-! Days of the proleptic Gregorian calendar, by month and by week. -/

namespace Calendar

def isLeap (year : Nat) : Bool := year % 4 = 0 ∧ (year % 100 ≠ 0 ∨ year % 400 = 0)

def daysInYear (year : Nat) : Nat := if isLeap year then 366 else 365

def daysBeforeYear (year : Nat) : Nat := (year - 1) * 365 + (year - 1) / 4 + (year - 1) / 400 - (year - 1) / 100

def daysInMonth (year month : Nat) : Nat :=
  if month = 2 then (if isLeap year then 29 else 28)
  else if month = 4 ∨ month = 6 ∨ month = 9 ∨ month = 11 then 30 else 31

def daysBeforeMonth (year : Nat) : Nat → Nat
  | 0 | 1 => 0
  | month + 2 => daysBeforeMonth year (month + 1) + daysInMonth year (month + 1)

/-- The day of a date, where the first of January of the year 1 is day 1. -/
def ordinal (year month day : Nat) : Nat := daysBeforeYear year + daysBeforeMonth year month + day

structure Date (year month day : Nat) : Prop where
  years : 1 ≤ year
  months : 1 ≤ month ∧ month ≤ 12
  days : 1 ≤ day ∧ day ≤ daysInMonth year month

/-- The Monday of the first week: the week with the first Thursday of the year. -/
def firstMonday (year : Nat) : Nat :=
  let first := ordinal year 1 1
  let weekday := (first + 6) % 7
  if 3 < weekday then first - weekday + 7 else first - weekday

/-- The year has a 53rd week when it begins on a Thursday, or is a leap year and begins on a Wednesday. -/
def weeksInYear (year : Nat) : Nat :=
  let weekday := ordinal year 1 1 % 7
  if weekday = 4 ∨ weekday = 3 ∧ isLeap year then 53 else 52

def weekOrdinal (year week day : Nat) : Nat := firstMonday year + (week - 1) * 7 + (day - 1)

structure WeekDate (year week day : Nat) : Prop where
  years : 1 ≤ year
  weeks : 1 ≤ week ∧ week ≤ weeksInYear year
  days : 1 ≤ day ∧ day ≤ 7

theorem daysBeforeYear_succ {year : Nat} (named : 1 ≤ year) :
    daysBeforeYear (year + 1) = daysBeforeYear year + daysInYear year := by
  obtain ⟨p, rfl⟩ := Nat.exists_eq_add_of_le' named
  have fours : (p + 1) / 4 = p / 4 + if (p + 1) % 4 = 0 then 1 else 0 := by split <;> omega
  have centuries : (p + 1) / 100 = p / 100 + if (p + 1) % 100 = 0 then 1 else 0 := by split <;> omega
  have fourths : (p + 1) / 400 = p / 400 + if (p + 1) % 400 = 0 then 1 else 0 := by split <;> omega
  have fewer : p / 100 ≤ p / 4 := by omega
  have century : (p + 1) % 100 = 0 → (p + 1) % 4 = 0 := by omega
  have fourth : (p + 1) % 400 = 0 → (p + 1) % 100 = 0 := by omega
  simp only [daysBeforeYear, daysInYear, isLeap, Nat.add_sub_cancel, fours, centuries, fourths, decide_eq_true_eq]
  generalize p / 4 = a at fewer ⊢
  generalize p / 100 = b at fewer ⊢
  generalize p / 400 = c
  by_cases four : (p + 1) % 4 = 0
  · by_cases hundred : (p + 1) % 100 = 0
    · by_cases last : (p + 1) % 400 = 0
      · simp only [four, hundred, last, if_true, ne_eq, not_true_eq_false, or_true, and_self]
        omega
      · simp only [four, hundred, last, if_true, if_false, ne_eq, not_true_eq_false, or_self, and_false]
        omega
    · have last : ¬ (p + 1) % 400 = 0 := fun zero => hundred (fourth zero)
      simp only [four, hundred, last, if_true, if_false, ne_eq, not_false_eq_true, true_or, and_self]
      omega
  · have hundred : ¬ (p + 1) % 100 = 0 := fun zero => four (century zero)
    have last : ¬ (p + 1) % 400 = 0 := fun zero => hundred (fourth zero)
    simp only [four, hundred, last, if_false, false_and]
    omega

theorem daysBeforeYear_le {year later : Nat} (named : 1 ≤ year) (before : year < later) :
    daysBeforeYear year + daysInYear year ≤ daysBeforeYear later := by
  induction later, before using Nat.le_induction with
  | base => rw [daysBeforeYear_succ named]
  | succ later before ih =>
    rw [daysBeforeYear_succ (by omega)]
    omega

theorem daysBeforeMonth_le {year month later : Nat} (named : 1 ≤ month) (before : month < later) :
    daysBeforeMonth year month + daysInMonth year month ≤ daysBeforeMonth year later := by
  induction later, before using Nat.le_induction with
  | base =>
    obtain ⟨earlier, rfl⟩ := Nat.exists_eq_add_of_le' named
    exact Nat.le_refl _
  | succ later before ih =>
    obtain ⟨earlier, rfl⟩ := Nat.exists_eq_add_of_le' (by omega : 1 ≤ later)
    change _ ≤ daysBeforeMonth year (earlier + 1) + daysInMonth year (earlier + 1)
    omega

theorem daysBeforeMonth_end (year : Nat) : daysBeforeMonth year 13 = daysInYear year := by
  cases leap : isLeap year with
  | false => simp [daysBeforeMonth, daysInMonth, daysInYear, leap]
  | true => simp [daysBeforeMonth, daysInMonth, daysInYear, leap]

namespace Date

variable {year month day year' month' day' : Nat}

theorem bounds (date : Date year month day) :
    daysBeforeYear year < ordinal year month day ∧ ordinal year month day ≤ daysBeforeYear year + daysInYear year := by
  have months := date.months
  have within : daysBeforeMonth year month + daysInMonth year month ≤ daysBeforeMonth year 13 :=
    daysBeforeMonth_le months.1 (by omega)
  rw [daysBeforeMonth_end] at within
  have first := date.days.1
  have last := date.days.2
  unfold ordinal
  omega

theorem ordinal_lt (date : Date year month day) (date' : Date year' month' day')
    (before : year < year' ∨ year = year' ∧ (month < month' ∨ month = month' ∧ day < day')) :
    ordinal year month day < ordinal year' month' day' := by
  rcases before with years | ⟨rfl, months | ⟨rfl, days⟩⟩
  · have gap := daysBeforeYear_le date.years years
    have below := date.bounds.2
    have above := date'.bounds.1
    omega
  · have gap : daysBeforeMonth year month + daysInMonth year month ≤ daysBeforeMonth year month' :=
      daysBeforeMonth_le date.months.1 months
    have last := date.days.2
    have first := date'.days.1
    unfold ordinal
    omega
  · unfold ordinal
    omega

end Date

theorem firstMonday_succ {year : Nat} (named : 1 ≤ year) :
    firstMonday (year + 1) = firstMonday year + 7 * weeksInYear year := by
  have first : ordinal year 1 1 = daysBeforeYear year + 1 := rfl
  have next : ordinal (year + 1) 1 1 = daysBeforeYear year + daysInYear year + 1 := by
    rw [← daysBeforeYear_succ named]
    rfl
  have length : daysInYear year = if isLeap year then 366 else 365 := rfl
  simp only [firstMonday, weeksInYear, first, next, length]
  generalize daysBeforeYear year = before
  cases isLeap year with
  | false =>
    simp only [Bool.false_eq_true, if_false, and_false, or_false]
    by_cases thursday : (before + 1) % 7 = 4
    · rw [if_pos thursday]
      split <;> split <;> omega
    · rw [if_neg thursday]
      split <;> split <;> omega
  | true =>
    simp only [if_true, and_true]
    by_cases late : (before + 1) % 7 = 4 ∨ (before + 1) % 7 = 3
    · rw [if_pos late]
      split <;> split <;> omega
    · rw [if_neg late]
      split <;> split <;> omega

theorem firstMonday_le {year later : Nat} (named : 1 ≤ year) (before : year < later) :
    firstMonday year + 7 * weeksInYear year ≤ firstMonday later := by
  induction later, before using Nat.le_induction with
  | base => rw [firstMonday_succ named]
  | succ later before ih =>
    rw [firstMonday_succ (by omega)]
    omega

theorem WeekDate.weekOrdinal_lt {year week day year' week' day' : Nat} (date : WeekDate year week day)
    (date' : WeekDate year' week' day')
    (before : year < year' ∨ year = year' ∧ (week < week' ∨ week = week' ∧ day < day')) :
    weekOrdinal year week day < weekOrdinal year' week' day' := by
  have weeks := date.weeks
  have days := date.days
  have weeks' := date'.weeks
  have days' := date'.days
  rcases before with years | ⟨rfl, later | ⟨rfl, later⟩⟩
  · have gap := firstMonday_le date.years years
    unfold weekOrdinal
    omega
  · unfold weekOrdinal
    omega
  · unfold weekOrdinal
    omega

end Calendar
