import Mathlib.Data.List.TakeWhile
import SearchQuery.Calendar.Rfc3339
import SearchQuery.Proofs.Calendar.Days
import SearchQuery.Proofs.Numeral.Digits
import SearchQuery.Proofs.Text.Trim

-- The text of an instant is read as the same instant, leap seconds and years of more than four
-- digits included.

namespace SearchQuery.Calendar.Rfc3339

open SearchQuery.Text SearchQuery.Numeral

variable {c : Char} {cs rest : List Char} {width n : Nat}

section Parts

theorem padded_append_cases (width n : Nat) (rest : List Char) :
    ∃ d ds, padded width n ++ rest = d :: ds ∧ d.isDigit = true := by
  cases h : padded width n with
  | nil => exact absurd h (padded_ne_nil width n)
  | cons d ds => exact ⟨d, ds ++ rest, rfl, isDigit_of_mem_padded (h ▸ List.mem_cons_self)⟩

theorem trimStart_padded (width n : Nat) (rest : List Char) :
    trimStart (padded width n ++ rest) = padded width n ++ rest := by
  obtain ⟨d, ds, hcons, hd⟩ := padded_append_cases width n rest
  rw [hcons, trimStart_cons (not_blank_of_isDigit hd)]

theorem takeWhile_padded (width n : Nat) : (padded width n).takeWhile Char.isDigit = padded width n :=
  List.takeWhile_eq_self_iff.mpr fun _ h => isDigit_of_mem_padded h

-- A run of digits ends where something else comes.
theorem takeWhile_padded_append (h : c.isDigit = false) (width n : Nat) (rest : List Char) :
    (padded width n ++ c :: rest).takeWhile Char.isDigit = padded width n := by
  rw [List.takeWhile_append_of_pos fun _ h => isDigit_of_mem_padded h,
    List.takeWhile_cons_of_neg (by simp [h]), List.append_nil]

theorem isEmpty_padded (width n : Nat) : (padded width n).isEmpty = false := by
  simpa using padded_ne_nil width n

theorem number_padded (hwidth : 0 < width) (h : n < 10 ^ width) (rest : List Char) :
    number width (padded width n ++ rest) = some (n, rest) := by
  have hlen := length_padded hwidth h
  simp only [number]
  rw [trimStart_padded, List.take_left' hlen, takeWhile_padded, isEmpty_padded, ofDigits_padded,
    List.drop_left]
  rfl

theorem mark_cons (h : isBlankChar c = false) : mark c (c :: rest) = some ((), rest) := by
  simp only [mark]
  rw [trimStart_cons h]
  simp

-- A year of at most four digits begins with a digit, any other with its sign.
theorem year_yearText (y : Int) (rest : List Char) :
    year (yearText y ++ '-' :: rest) = some (y, '-' :: rest) := by
  have hdigits := takeWhile_padded_append (c := '-') rfl 4 y.natAbs rest
  unfold yearText
  split
  · next hshort =>
    simp only [Bool.and_eq_true, decide_eq_true_eq] at hshort
    have hnumber := number_padded (by decide) (by omega : y.natAbs < 10 ^ 4) ('-' :: rest)
    have hnat : (y.natAbs : Int) = y := by omega
    obtain ⟨d, ds, hcons, hd⟩ := padded_append_cases 4 y.natAbs ('-' :: rest)
    rw [hcons] at hnumber ⊢
    simp only [year]
    rw [trimStart_cons (not_blank_of_isDigit hd)]
    split
    · next hminus =>
      cases hminus
      cases hd
    · next hplus =>
      cases hplus
      cases hd
    · rw [hnumber, Option.map_some, hnat]
  · split
    · have hnat : -(y.natAbs : Int) = y := by omega
      simp only [List.cons_append, year]
      rw [trimStart_cons rfl]
      simp only [hdigits, isEmpty_padded, ofDigits_padded, List.drop_left, Bool.false_eq_true,
        if_false, Option.map_some, hnat]
    · have hnat : (y.natAbs : Int) = y := by omega
      simp only [List.cons_append, year]
      rw [trimStart_cons rfl]
      simp only [hdigits, isEmpty_padded, ofDigits_padded, List.drop_left, Bool.false_eq_true,
        if_false, Option.map_some, hnat]

theorem fraction_padded (hpos : 0 < width) (hwidth : width ≤ 9) (h : n < 10 ^ width)
    (rest : List Char) :
    fraction ('.' :: padded width n ++ 'Z' :: rest) =
      some (n * 10 ^ (9 - width), 'Z' :: rest) := by
  have hlen := length_padded hpos h
  have hcounted : (padded width n).take 9 = padded width n :=
    List.take_of_length_le (by omega)
  have hdigits := takeWhile_padded_append (c := 'Z') rfl width n rest
  simp only [List.cons_append, fraction, hdigits, hcounted, isEmpty_padded, ofDigits_padded, hlen,
    List.drop_left' hlen, Bool.false_eq_true, if_false]
  rfl

theorem fraction_fractionText (h : n < nanosPerSecond) (rest : List Char) :
    fraction (fractionText n ++ 'Z' :: rest) = some (n, 'Z' :: rest) := by
  simp only [nanosPerSecond] at h
  unfold fractionText
  split
  · next hzero =>
    rw [hzero]
    rfl
  · split
    · rw [fraction_padded (by decide) (by decide) (by omega)]
      congr 2
      omega
    · split
      · rw [fraction_padded (by decide) (by decide) (by omega)]
        congr 2
        omega
      · rw [fraction_padded (by decide) (by decide) (by omega)]
        congr 2
        omega

end Parts

section Instants

variable {t : Instant} {d : Date}

-- The seconds that a leap second adds to those of its minute.
def leap (t : Instant) : Nat :=
  if nanosPerSecond ≤ t.nanos then 1 else 0

theorem seconds_eq (t : Instant) : t.seconds = t.day * secondsPerDay + t.secondOfDay := by
  simp only [Instant.day, Instant.secondOfDay, secondsPerDay]
  omega

theorem secondOfDay_lt (t : Instant) : t.secondOfDay < 86400 := by
  simp only [Instant.secondOfDay, secondsPerDay]
  omega

-- A leap second comes at the end of a minute and takes up what is past a second.
theorem leap_spec (t : Instant) :
    (leap t = 0 ∨ leap t = 1 ∧ t.secondOfDay % 60 = 59) ∧
      leap t * nanosPerSecond + t.nanos % nanosPerSecond = t.nanos := by
  have hvalid := t.valid
  have hseconds := seconds_eq t
  simp only [isInstant, Bool.and_eq_true, Bool.or_eq_true, decide_eq_true_eq] at hvalid
  simp only [secondsPerDay, nanosPerSecond] at hvalid hseconds
  by_cases h : 1000000000 ≤ t.nanos
  · have hleap : leap t = 1 := if_pos h
    refine ⟨.inr ⟨hleap, ?_⟩, ?_⟩
    · omega
    · rw [hleap, nanosPerSecond]
      omega
  · have hleap : leap t = 0 := if_neg h
    refine ⟨.inl hleap, ?_⟩
    rw [hleap, nanosPerSecond]
    omega

theorem timeOfDay?_of_lt {hour minute second leap : Nat} (hhour : hour < 24) (hminute : minute < 60)
    (hsecond : second < 60) (hleap : leap = 0 ∨ leap = 1 ∧ second = 59) :
    timeOfDay? hour minute (second + leap) =
      some (hour * 3600 + minute * 60 + second, leap * nanosPerSecond) := by
  have hcounted : min (second + leap) 59 = second := by omega
  have hvalid : (hour < 24 && minute < 60 && second + leap ≤ 60) = true := by
    simp only [Bool.and_eq_true, decide_eq_true_eq]
    omega
  simp only [timeOfDay?]
  rw [if_pos hvalid, hcounted, Nat.add_sub_cancel_left]

-- The parts that are written come together to the instant.
theorem assemble_parts (hday : d.dayNumber = t.day) :
    assemble d.year d.month d.day (t.secondOfDay / 3600) (t.secondOfDay / 60 % 60)
      (t.secondOfDay % 60 + leap t) (t.nanos % nanosPerSecond) 0 = some t := by
  have hofDay := secondOfDay_lt t
  obtain ⟨hleap, hnanos⟩ := leap_spec t
  have hdate : Date.ofParts? d.year d.month d.day = some d :=
    Date.ofParts?_eq_some.mpr ⟨rfl, rfl, rfl⟩
  have htime := timeOfDay?_of_lt (by omega : t.secondOfDay / 3600 < 24)
    (by omega : t.secondOfDay / 60 % 60 < 60) (by omega : t.secondOfDay % 60 < 60) hleap
  have hsum : t.secondOfDay / 3600 * 3600 + t.secondOfDay / 60 % 60 * 60 + t.secondOfDay % 60 =
      t.secondOfDay := by
    omega
  rw [hsum] at htime
  simp only [assemble, hdate, htime, Option.bind_eq_bind, Option.bind_some]
  rw [if_pos (by decide), hday, Int.sub_zero, ← seconds_eq, hnanos, Instant.ofParts?, dif_pos t.valid]

theorem number_two (h : n < 100) (rest : List Char) :
    number 2 (padded 2 n ++ rest) = some (n, rest) :=
  number_padded (by decide) h rest

theorem readChars_textChars (t : Instant) : readChars (textChars t) = some t := by
  have hvalid := t.valid
  simp only [isInstant, Bool.and_eq_true, decide_eq_true_eq] at hvalid
  obtain ⟨d, hparts, hday⟩ := exists_date_of_day hvalid.1.1 hvalid.1.2
  have hofDay := secondOfDay_lt t
  have hmonth : d.month < 100 := by
    have hle := d.month_le
    omega
  have hdayOf : d.day < 100 := by
    have hle := d.day_le
    have hlen := daysInMonth_le d.year d.month
    omega
  have hsecond : t.secondOfDay % 60 + leap t < 100 := by
    have hleap := (leap_spec t).1
    omega
  have hfraction : t.nanos % nanosPerSecond < nanosPerSecond := Nat.mod_lt _ (by decide)
  have htext : textChars t = yearText d.year ++ '-' :: (padded 2 d.month ++ '-' ::
      (padded 2 d.day ++ 'T' :: (padded 2 (t.secondOfDay / 3600) ++ ':' ::
        (padded 2 (t.secondOfDay / 60 % 60) ++ ':' :: (padded 2 (t.secondOfDay % 60 + leap t) ++
          (fractionText (t.nanos % nanosPerSecond) ++ ['Z'])))))) := by
    simp only [textChars, Instant.day, hparts, leap, List.append_assoc, List.cons_append]
  have hminus : ∀ rest, mark '-' ('-' :: rest) = some ((), rest) := fun rest => mark_cons rfl
  have hcolon : ∀ rest, mark ':' (':' :: rest) = some ((), rest) := fun rest => mark_cons rfl
  have hzone : offset (trimStart ['Z']) = some (0, []) := by decide
  rw [htext]
  simp only [readChars, Option.bind_eq_bind, Option.bind_some, year_yearText, hminus, hcolon,
    number_two hmonth, number_two hdayOf, separator, number_two hsecond,
    number_two (by omega : t.secondOfDay / 3600 < 100),
    number_two (by omega : t.secondOfDay / 60 % 60 < 100), fraction_fractionText hfraction, hzone]
  exact assemble_parts hday

-- Reading takes back what writing gives.
theorem read_text (t : Instant) : read (text t) = some t := by
  rw [read, text, String.toList_ofList, readChars_textChars]

end Instants

end SearchQuery.Calendar.Rfc3339
