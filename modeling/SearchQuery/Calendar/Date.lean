-- Dates of the Gregorian calendar, carried on without end before and after its
-- introduction. There is a year 0, and negative years come before it.

namespace SearchQuery.Calendar

def isLeap (year : Int) : Bool :=
  year % 4 = 0 && (year % 100 ≠ 0 || year % 400 = 0)

def daysInMonth (year : Int) (month : Nat) : Nat :=
  match month with
  | 2 => if isLeap year then 29 else 28
  | 4 | 6 | 9 | 11 => 30
  | _ => 31

def firstYear : Int := -262143

def lastYear : Int := 262142

-- A date exists when its year is in the range of the calendar, its month in the year and
-- its day in the month.
def isDate (year : Int) (month day : Nat) : Bool :=
  firstYear ≤ year && year ≤ lastYear && 1 ≤ month && month ≤ 12 &&
    1 ≤ day && day ≤ daysInMonth year month

structure Date where
  year : Int
  month : Nat
  day : Nat
  valid : isDate year month day
deriving DecidableEq

-- Days from the first day of year 1 to the first day of a year: a day more for each
-- leap year between them.
def daysBeforeYear (year : Int) : Int :=
  let y := year - 1
  365 * y + y / 4 - y / 100 + y / 400

-- Days from the first day of a year to the first day of a month of it.
def daysBeforeMonth (year : Int) : Nat → Nat
  | 0 => 0
  | 1 => 0
  | month + 2 => daysBeforeMonth year (month + 1) + daysInMonth year (month + 1)

-- Days from the first day of year 1 to the first day of 1970, which is day 0.
def epoch : Int := 719162

-- The days of the calendar that come first and last.
def firstDay : Int := daysBeforeYear firstYear - epoch

def lastDay : Int := daysBeforeYear (lastYear + 1) - 1 - epoch

theorem daysBeforeYear_succ (year : Int) :
    daysBeforeYear (year + 1) = daysBeforeYear year + 365 + if isLeap year then 1 else 0 := by
  simp only [daysBeforeYear, isLeap, Bool.and_eq_true, Bool.or_eq_true, decide_eq_true_eq]
  split <;> omega

theorem daysBeforeYear_mono {a b : Int} (h : a ≤ b) : daysBeforeYear a ≤ daysBeforeYear b := by
  simp only [daysBeforeYear]
  omega

-- A day of a month lies within its year.
theorem daysBeforeMonth_add_le (year : Int) {month day : Nat} (hmonth : 1 ≤ month)
    (hlast : month ≤ 12) (hday : day ≤ daysInMonth year month) :
    daysBeforeMonth year month + day ≤ 365 + if isLeap year then 1 else 0 := by
  obtain rfl | rfl | rfl | rfl | rfl | rfl | rfl | rfl | rfl | rfl | rfl | rfl :
      month = 1 ∨ month = 2 ∨ month = 3 ∨ month = 4 ∨ month = 5 ∨ month = 6 ∨ month = 7 ∨
      month = 8 ∨ month = 9 ∨ month = 10 ∨ month = 11 ∨ month = 12 := by omega
  all_goals
    simp only [daysBeforeMonth, daysInMonth] at hday ⊢
    cases h : isLeap year <;> simp only [h, if_true, Bool.false_eq_true, if_false] at hday ⊢ <;>
      omega

namespace Date

def ofParts? (year : Int) (month day : Nat) : Option Date :=
  if h : isDate year month day then some ⟨year, month, day, h⟩ else none

-- Days from the first day of 1970.
def dayNumber (d : Date) : Int :=
  daysBeforeYear d.year + daysBeforeMonth d.year d.month + d.day - 1 - epoch

theorem ofParts?_eq_some {year : Int} {month day : Nat} {d : Date} :
    ofParts? year month day = some d ↔ d.year = year ∧ d.month = month ∧ d.day = day := by
  simp only [ofParts?]
  constructor
  · intro h
    split at h
    · cases h
      exact ⟨rfl, rfl, rfl⟩
    · cases h
  · rintro ⟨rfl, rfl, rfl⟩
    simp [d.valid]

theorem firstYear_le (d : Date) : firstYear ≤ d.year := by
  have h := d.valid
  simp only [isDate, Bool.and_eq_true, decide_eq_true_eq] at h
  exact h.1.1.1.1.1

theorem le_lastYear (d : Date) : d.year ≤ lastYear := by
  have h := d.valid
  simp only [isDate, Bool.and_eq_true, decide_eq_true_eq] at h
  exact h.1.1.1.1.2

theorem month_pos (d : Date) : 1 ≤ d.month := by
  have h := d.valid
  simp only [isDate, Bool.and_eq_true, decide_eq_true_eq] at h
  exact h.1.1.1.2

theorem month_le (d : Date) : d.month ≤ 12 := by
  have h := d.valid
  simp only [isDate, Bool.and_eq_true, decide_eq_true_eq] at h
  exact h.1.1.2

theorem day_pos (d : Date) : 1 ≤ d.day := by
  have h := d.valid
  simp only [isDate, Bool.and_eq_true, decide_eq_true_eq] at h
  exact h.1.2

theorem day_le (d : Date) : d.day ≤ daysInMonth d.year d.month := by
  have h := d.valid
  simp only [isDate, Bool.and_eq_true, decide_eq_true_eq] at h
  exact h.2

-- A date lies between the first day of its year and that of the next one.
theorem daysBeforeYear_le_dayNumber (d : Date) : daysBeforeYear d.year - epoch ≤ d.dayNumber := by
  have hday := d.day_pos
  simp only [dayNumber]
  omega

theorem dayNumber_lt_daysBeforeYear (d : Date) :
    d.dayNumber < daysBeforeYear (d.year + 1) - epoch := by
  have hday := daysBeforeMonth_add_le d.year d.month_pos d.month_le d.day_le
  rw [daysBeforeYear_succ]
  simp only [dayNumber]
  cases h : isLeap d.year <;>
    simp only [h, if_true, Bool.false_eq_true, if_false] at hday ⊢ <;> omega

theorem firstDay_le (d : Date) : firstDay ≤ d.dayNumber := by
  have hyear := daysBeforeYear_mono d.firstYear_le
  have hday := d.daysBeforeYear_le_dayNumber
  simp only [firstDay]
  omega

theorem le_lastDay (d : Date) : d.dayNumber ≤ lastDay := by
  have hyear := daysBeforeYear_mono (Int.add_le_add_right d.le_lastYear 1)
  have hday := d.dayNumber_lt_daysBeforeYear
  simp only [lastDay]
  omega

end Date

-- The greatest year that begins on or before a day, counted from year 1. The mean
-- length of a year gives it, or the year before or after it.
def yearOf (n : Int) : Int :=
  let y := 400 * n / 146097 + 1
  if n < daysBeforeYear y then y - 1
  else if daysBeforeYear (y + 1) ≤ n then y + 1
  else y

-- The month that holds a day of a year, counted from 0.
def monthOf (year : Int) (n : Nat) : Nat :=
  ((List.range' 2 11).filter fun m => daysBeforeMonth year m ≤ n).length + 1

-- The year, the month and the day of the month of a day counted from 1970.
def partsOfDay (n : Int) : Int × Nat × Nat :=
  let n := n + epoch
  let year := yearOf n
  let inYear := (n - daysBeforeYear year).toNat
  let month := monthOf year inYear
  (year, month, inYear - daysBeforeMonth year month + 1)

end SearchQuery.Calendar
