import SearchQuery.Calendar.Instant
import SearchQuery.Proofs.Calendar.Days

-- The order of dates by year, then month, then day. The days of the calendar are counted in this
-- order, so dates come in it as instants do.

namespace SearchQuery.Calendar

namespace Date

variable {d e : Date}

theorem ofParts?_eq_none {year : Int} {month day : Nat} :
    ofParts? year month day = none ↔ isDate year month day = false := by
  simp [ofParts?]

def compare (d e : Date) : Ordering :=
  (Ord.compare d.year e.year).then
    ((Ord.compare d.month e.month).then (Ord.compare d.day e.day))

theorem compare_eq_lt_iff :
    d.compare e = .lt ↔ d.year < e.year ∨
      d.year = e.year ∧ (d.month < e.month ∨ d.month = e.month ∧ d.day < e.day) := by
  simp only [compare, Ordering.then_eq_lt, Std.compare_eq_lt, Std.LawfulEqCmp.compare_eq_iff_eq]

theorem compare_eq_iff : d.compare e = .eq ↔ d = e := by
  rw [Date.mk.injEq]
  simp only [compare, Ordering.then_eq_eq, Std.LawfulEqCmp.compare_eq_iff_eq]

theorem compare_swap (d e : Date) : (d.compare e).swap = e.compare d := by
  simp only [compare, Ordering.swap_then, swap_compare]

-- A year is over before the next one begins.
theorem dayNumber_lt_of_year (h : d.year < e.year) : d.dayNumber < e.dayNumber := by
  have hyear := daysBeforeYear_mono (by omega : d.year + 1 ≤ e.year)
  have hbefore := d.dayNumber_lt_daysBeforeYear
  have hafter := e.daysBeforeYear_le_dayNumber
  omega

-- So is a month.
theorem dayNumber_lt_of_month (hyear : d.year = e.year) (h : d.month < e.month) :
    d.dayNumber < e.dayNumber := by
  have hmonth := daysBeforeMonth_mono d.year (by omega : d.month + 1 ≤ e.month)
  have hend := d.day_le
  have hday := e.day_pos
  rw [daysBeforeMonth_succ d.year d.month_pos] at hmonth
  simp only [dayNumber, ← hyear]
  omega

theorem dayNumber_lt_of_day (hyear : d.year = e.year) (hmonth : d.month = e.month)
    (h : d.day < e.day) : d.dayNumber < e.dayNumber := by
  simp only [dayNumber, ← hyear, ← hmonth]
  omega

theorem dayNumber_lt_of_compare (h : d.compare e = .lt) : d.dayNumber < e.dayNumber := by
  rcases compare_eq_lt_iff.mp h with hyear | ⟨hyear, hmonth | ⟨hmonth, hday⟩⟩
  · exact dayNumber_lt_of_year hyear
  · exact dayNumber_lt_of_month hyear hmonth
  · exact dayNumber_lt_of_day hyear hmonth hday

theorem compare_dayNumber (d e : Date) : Ord.compare d.dayNumber e.dayNumber = d.compare e := by
  cases h : d.compare e with
  | lt => exact Std.compare_eq_lt.mpr (dayNumber_lt_of_compare h)
  | eq => rw [compare_eq_iff.mp h, Std.compare_self]
  | gt =>
      apply Std.compare_eq_gt.mpr
      apply dayNumber_lt_of_compare
      rw [← compare_swap, h]
      rfl

theorem dayNumber_inj (h : d.dayNumber = e.dayNumber) : d = e := by
  rw [← compare_eq_iff, ← compare_dayNumber, h, Std.compare_self]

end Date

-- The parts of a day in the calendar are those of the only date with its number.
theorem partsOfDay_dayNumber (d : Date) : partsOfDay d.dayNumber = (d.year, d.month, d.day) := by
  obtain ⟨e, hparts, hday⟩ := exists_date_of_day d.firstDay_le d.le_lastDay
  rw [hparts, Date.dayNumber_inj hday]

namespace Instant

variable {t : Instant} {d : Date}

theorem day_midnight (d : Date) : (midnight d).day = d.dayNumber :=
  Int.mul_ediv_cancel _ (by decide)

theorem secondOfDay_midnight (d : Date) : (midnight d).secondOfDay = 0 := by
  rw [secondOfDay, midnight, Int.mul_emod_left]
  rfl

-- An instant of the calendar falls on a day of it.
theorem exists_date (t : Instant) :
    ∃ d : Date, partsOfDay t.day = (d.year, d.month, d.day) ∧ d.dayNumber = t.day := by
  have hvalid := t.valid
  simp only [isInstant, Bool.and_eq_true, decide_eq_true_eq] at hvalid
  exact exists_date_of_day hvalid.1.1 hvalid.1.2

theorem eq_midnight_iff :
    t = midnight d ↔
      partsOfDay t.day = (d.year, d.month, d.day) ∧ t.secondOfDay = 0 ∧ t.nanos = 0 := by
  constructor
  · rintro rfl
    exact ⟨by rw [day_midnight, partsOfDay_dayNumber], secondOfDay_midnight d, rfl⟩
  · rintro ⟨hparts, hsecond, hnanos⟩
    obtain ⟨e, hparts', hday⟩ := t.exists_date
    rw [hparts'] at hparts
    obtain ⟨hyear, hmonth, hday'⟩ : e.year = d.year ∧ e.month = d.month ∧ e.day = d.day := by
      simpa using hparts
    have he : e = d := by
      rw [Date.mk.injEq]
      exact ⟨hyear, hmonth, hday'⟩
    subst he
    have hseconds : t.seconds = e.dayNumber * secondsPerDay := by
      rw [hday]
      simp only [day, secondOfDay, secondsPerDay] at *
      omega
    rw [Instant.mk.injEq]
    exact ⟨hseconds, hnanos⟩

theorem compare_midnight (d e : Date) : (midnight d).compare (midnight e) = d.compare e := by
  rw [← Date.compare_dayNumber, compare]
  cases h : Ord.compare d.dayNumber e.dayNumber with
  | lt =>
      have hday := Std.compare_eq_lt.mp h
      have hseconds : (midnight d).seconds < (midnight e).seconds := by
        simp only [midnight, secondsPerDay]
        omega
      rw [Std.compare_eq_lt.mpr hseconds]
      rfl
  | eq =>
      rw [Date.dayNumber_inj (Std.compare_eq_iff_eq.mp h), Std.compare_self, Std.compare_self]
      rfl
  | gt =>
      have hday := Std.compare_eq_gt.mp h
      have hseconds : (midnight e).seconds < (midnight d).seconds := by
        simp only [midnight, secondsPerDay]
        omega
      rw [Std.compare_eq_gt.mpr hseconds]
      rfl

end Instant

end SearchQuery.Calendar
