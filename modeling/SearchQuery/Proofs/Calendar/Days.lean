import SearchQuery.Calendar.Date

-- The date of a day. Every day of the calendar has one: its year begins on the day or before
-- and the next year after it, and so does its month within the year.

namespace SearchQuery.Calendar

variable {year n : Int} {month inYear k : Nat}

-- The mean length of a year misses the first day of a year by less than two days.
theorem yearOf_spec (n : Int) :
    daysBeforeYear (yearOf n) ≤ n ∧ n < daysBeforeYear (yearOf n + 1) := by
  simp only [yearOf]
  split
  · simp only [daysBeforeYear] at *
    omega
  · split
    · simp only [daysBeforeYear] at *
      omega
    · simp only [daysBeforeYear] at *
      omega

theorem daysInMonth_le (year : Int) (month : Nat) : daysInMonth year month ≤ 31 := by
  unfold daysInMonth
  split
  · split <;> decide
  all_goals decide

theorem daysBeforeMonth_succ (year : Int) (hmonth : 1 ≤ month) :
    daysBeforeMonth year (month + 1) = daysBeforeMonth year month + daysInMonth year month := by
  obtain ⟨k, rfl⟩ := Nat.exists_eq_add_of_le' hmonth
  rfl

theorem daysBeforeMonth_mono (year : Int) {m l : Nat} (h : m ≤ l) :
    daysBeforeMonth year m ≤ daysBeforeMonth year l := by
  induction h with
  | refl => exact Nat.le_refl _
  | @step l _ ih =>
      cases l with
      | zero => exact ih
      | succ l =>
          rw [daysBeforeMonth_succ year (by omega)]
          omega

theorem daysBeforeMonth_thirteen (year : Int) :
    daysBeforeMonth year 13 = 365 + if isLeap year then 1 else 0 := by
  simp only [daysBeforeMonth, daysInMonth]
  split <;> rfl

theorem exists_month (hk : 1 ≤ k) (h : inYear < daysBeforeMonth year (k + 1)) :
    ∃ month, 1 ≤ month ∧ month ≤ k ∧ daysBeforeMonth year month ≤ inYear ∧
      inYear < daysBeforeMonth year (month + 1) := by
  induction k with
  | zero => omega
  | succ k ih =>
      by_cases hlast : daysBeforeMonth year (k + 1) ≤ inYear
      · exact ⟨k + 1, by omega, by omega, hlast, h⟩
      · cases k with
        | zero => exact absurd (Nat.zero_le _) hlast
        | succ k =>
            obtain ⟨month, hpos, hle, hmonth⟩ := ih (by omega) (by omega)
            exact ⟨month, hpos, by omega, hmonth⟩

-- As many months begin on a day or before as the number of its month says.
theorem monthOf_eq (hpos : 1 ≤ month) (hlast : month ≤ 12)
    (hfrom : daysBeforeMonth year month ≤ inYear)
    (hto : inYear < daysBeforeMonth year (month + 1)) : monthOf year inYear = month := by
  have hbegun : ∀ m, decide (daysBeforeMonth year m ≤ inYear) = decide (m ≤ month) := by
    intro m
    apply decide_eq_decide.mpr
    constructor
    · intro hm
      apply Nat.le_of_not_lt
      intro hlater
      have hmono := daysBeforeMonth_mono year (by omega : month + 1 ≤ m)
      omega
    · intro hm
      have hmono := daysBeforeMonth_mono year hm
      omega
  have hcount : ∀ m < 12, ((List.range' 2 11).filter fun j => j ≤ m + 1).length + 1 = m + 1 := by
    decide
  obtain ⟨m, rfl⟩ := Nat.exists_eq_add_of_le' hpos
  simp only [monthOf, hbegun]
  exact hcount m (by omega)

theorem exists_date_of_day (hfirst : firstDay ≤ n) (hlast : n ≤ lastDay) :
    ∃ d : Date, partsOfDay n = (d.year, d.month, d.day) ∧ d.dayNumber = n := by
  obtain ⟨hfrom, hto⟩ := yearOf_spec (n + epoch)
  simp only [partsOfDay]
  generalize yearOf (n + epoch) = year at hfrom hto ⊢
  have hyear : firstYear ≤ year := by
    apply Int.not_lt.mp
    intro hlt
    have hmono := daysBeforeYear_mono (by omega : year + 1 ≤ firstYear)
    simp only [firstDay] at hfirst
    omega
  have hyear' : year ≤ lastYear := by
    apply Int.not_lt.mp
    intro hlt
    have hmono := daysBeforeYear_mono (by omega : lastYear + 1 ≤ year)
    simp only [lastDay] at hlast
    omega
  have hlength := daysBeforeMonth_thirteen year
  rw [daysBeforeYear_succ] at hto
  obtain ⟨inYear, hin⟩ := Int.eq_ofNat_of_zero_le (Int.sub_nonneg_of_le hfrom)
  rw [hin, Int.toNat_natCast]
  have hshort : inYear < daysBeforeMonth year 13 := by
    rw [hlength]
    split at hto <;> simp_all <;> omega
  obtain ⟨month, hpos, hle, hmonth, hmonth'⟩ := exists_month (by omega) hshort
  rw [monthOf_eq hpos hle hmonth hmonth']
  rw [daysBeforeMonth_succ year hpos] at hmonth'
  refine ⟨⟨year, month, inYear - daysBeforeMonth year month + 1, ?_⟩, rfl, ?_⟩
  · simp only [isDate, Bool.and_eq_true, decide_eq_true_eq]
    omega
  · simp only [Date.dayNumber]
    omega

end SearchQuery.Calendar
