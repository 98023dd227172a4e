import SearchQuery.Codec.Plain
import SearchQuery.Proofs.Calendar.Order
import SearchQuery.Proofs.Numeral.Written
import SearchQuery.Proofs.Results
import SearchQuery.Proofs.Text.Pieces

-- Dates as they are written: a year, a month and a day with dashes between them, and with blanks
-- around each. What writes no date is refused for its pieces if they are not these three, else for
-- the first of them that is no number, else for its range.

namespace SearchQuery.Codec

open SearchQuery.Text SearchQuery.Numeral SearchQuery.Calendar

variable {input : String} {piece year month day : List Char} {date : Date} {e : ValueError}

-- The pieces between the dashes of a text that has two dashes. None of them is blank.
structure Pieces (input : String) (year month day : List Char) : Prop where
  text : input.toList = year ++ '-' :: (month ++ '-' :: day)
  dashes : ∀ piece ∈ [year, month, day], '-' ∉ piece
  content : ∀ piece ∈ [year, month, day], ∃ c ∈ piece, isBlankChar c = false

def WritesYear (piece : List Char) (n : Int) : Prop :=
  ∃ core, Holds piece core ∧ WritesSigned 32 core n

-- A piece that writes a month or a day.
def WritesPart (piece : List Char) (n : Nat) : Prop :=
  ∃ core, Holds piece core ∧ WritesUnsigned 32 core n

def WritesDate (input : String) (date : Date) : Prop :=
  ∃ year month day, Pieces input year month day ∧
    WritesYear year date.year ∧ WritesPart month date.month ∧ WritesPart day date.day

-- What is wrong with three pieces: one that is no number, after others that are, or three numbers
-- that make no date.
inductive PiecesFault (input : String) (year month day : List Char) : ValueError → Prop
  | year (h : ∀ y, ¬WritesYear year y) :
      PiecesFault input year month day (.notANumber (String.ofList year))
  | month {y : Int} (hy : WritesYear year y) (h : ∀ m, ¬WritesPart month m) :
      PiecesFault input year month day (.notANumber (String.ofList month))
  | day {y : Int} {m : Nat} (hy : WritesYear year y) (hm : WritesPart month m)
      (h : ∀ d, ¬WritesPart day d) :
      PiecesFault input year month day (.notANumber (String.ofList day))
  | range {y : Int} {m d : Nat} (hy : WritesYear year y) (hm : WritesPart month m)
      (hd : WritesPart day d) (h : isDate y m d = false) :
      PiecesFault input year month day (.outOfRange s!"no such date: {input}")

inductive DateFault (input : String) : ValueError → Prop
  | shape (h : ∀ year month day, ¬Pieces input year month day) :
      DateFault input (.invalidFormat "should be '<year>-<month>-<day>'")
  | pieces {year month day : List Char} {e : ValueError} (h : Pieces input year month day)
      (hfault : PiecesFault input year month day e) : DateFault input e

section Piece

variable {α : Type} {read : List Char → Option α} {W : List Char → α → Prop} {n : α}

-- What is read without the blanks around it is what stands between blanks.
theorem parsePiece_eq_ok_iff (hread : ∀ cs n, read cs = some n ↔ W cs n)
    (hblank : ∀ cs n, W cs n → ∀ c ∈ cs, isBlankChar c = false) :
    parsePiece read piece = .ok n ↔ ∃ core, Holds piece core ∧ W core n := by
  have hsome : parsePiece read piece = .ok n ↔ read (trimChars piece) = some n := by
    rw [parsePiece]
    cases read (trimChars piece) <;> simp
  rw [hsome, hread]
  constructor
  · intro h
    exact ⟨trimChars piece, holds_trimChars piece, h⟩
  · rintro ⟨core, hcore, h⟩
    rw [trimChars_of_holds hcore (hblank core n h)]
    exact h

theorem parsePiece_eq_error_iff :
    parsePiece read piece = .error e ↔
      e = .notANumber (String.ofList piece) ∧ ∀ n, parsePiece read piece ≠ .ok n := by
  rw [parsePiece]
  cases read (trimChars piece) with
  | none => simp [eq_comm]
  | some n => simp

theorem parsePiece_year {y : Int} :
    parsePiece (readSigned 32) piece = .ok y ↔ WritesYear piece y :=
  parsePiece_eq_ok_iff (fun _ _ => readSigned_eq_some_iff)
    fun _ _ h => not_blank_of_writesInteger h.1

theorem parsePiece_part {n : Nat} :
    parsePiece (readUnsigned 32) piece = .ok n ↔ WritesPart piece n :=
  parsePiece_eq_ok_iff (fun _ _ => readUnsigned_eq_some_iff)
    fun _ _ h => not_blank_of_writesNatural h.1

theorem parsePiece_year_error :
    parsePiece (readSigned 32) piece = .error e ↔
      e = .notANumber (String.ofList piece) ∧ ∀ n, ¬WritesYear piece n := by
  simp only [parsePiece_eq_error_iff, ne_eq, parsePiece_year]

theorem parsePiece_part_error :
    parsePiece (readUnsigned 32) piece = .error e ↔
      e = .notANumber (String.ofList piece) ∧ ∀ n, ¬WritesPart piece n := by
  simp only [parsePiece_eq_error_iff, ne_eq, parsePiece_part]

end Piece

section Pieces

theorem pieces_iff :
    Pieces input year month day ↔
      input.toList.splitOn '-' = [year, month, day] ∧
        ([year, month, day].any fun piece => piece.all isBlankChar) = false := by
  have htext : ['-'].intercalate [year, month, day] = year ++ '-' :: (month ++ '-' :: day) := by
    simp
  have hdashes : (∀ piece ∈ [year, month, day], ∀ c ∈ piece, (c == '-') = false) ↔
      ∀ piece ∈ [year, month, day], '-' ∉ piece := by
    simp only [beq_eq_false_iff_ne, ne_eq, List.forall_mem_ne']
  have hcontent : ([year, month, day].any fun piece => piece.all isBlankChar) = false ↔
      ∀ piece ∈ [year, month, day], ∃ c ∈ piece, isBlankChar c = false := by
    simp
  rw [List.splitOn_eq_splitOnP, splitOnP_eq_iff (fun _ => beq_iff_eq) (by simp), htext, hdashes,
    hcontent]
  constructor
  · rintro ⟨htext, hdashes, hcontent⟩
    exact ⟨⟨htext, hdashes⟩, hcontent⟩
  · rintro ⟨⟨htext, hdashes⟩, hcontent⟩
    exact ⟨htext, hdashes, hcontent⟩

-- A text has its pieces in one way only.
theorem Pieces.unique {year' month' day' : List Char} (h : Pieces input year month day)
    (h' : Pieces input year' month' day') : year = year' ∧ month = month' ∧ day = day' := by
  have hsplit := (pieces_iff.mp h).1.symm.trans (pieces_iff.mp h').1
  simpa using hsplit

theorem parseDate_of_pieces (h : Pieces input year month day) :
    parseDate input = parsePieces input year month day := by
  obtain ⟨hsplit, hcontent⟩ := pieces_iff.mp h
  simp only [parseDate, hsplit, hcontent, Bool.false_eq_true, if_false]

theorem parseDate_of_not_pieces (h : ∀ year month day, ¬Pieces input year month day) :
    parseDate input = .error (.invalidFormat "should be '<year>-<month>-<day>'") := by
  simp only [parseDate]
  split
  · next year month day hsplit =>
    have hblank : ([year, month, day].any fun piece => piece.all isBlankChar) = true := by
      apply Bool.not_eq_false _ |>.mp
      intro hcontent
      exact h year month day (pieces_iff.mpr ⟨hsplit, hcontent⟩)
    rw [if_pos hblank]
  · rfl

theorem parsePieces_eq_ok_iff :
    parsePieces input year month day = .ok date ↔
      WritesYear year date.year ∧ WritesPart month date.month ∧ WritesPart day date.day := by
  constructor
  · intro h
    obtain ⟨y, hy, h⟩ := bind_eq_ok.mp h
    obtain ⟨m, hm, h⟩ := bind_eq_ok.mp h
    obtain ⟨d, hd, h⟩ := bind_eq_ok.mp h
    cases hparts : Date.ofParts? y m d with
    | none =>
        rw [hparts] at h
        cases h
    | some date' =>
        rw [hparts] at h
        cases h
        obtain ⟨rfl, rfl, rfl⟩ := Date.ofParts?_eq_some.mp hparts
        exact ⟨parsePiece_year.mp hy, parsePiece_part.mp hm, parsePiece_part.mp hd⟩
  · rintro ⟨hy, hm, hd⟩
    apply bind_eq_ok.mpr
    refine ⟨date.year, parsePiece_year.mpr hy, bind_eq_ok.mpr ?_⟩
    refine ⟨date.month, parsePiece_part.mpr hm, bind_eq_ok.mpr ?_⟩
    refine ⟨date.day, parsePiece_part.mpr hd, ?_⟩
    rw [Date.ofParts?_eq_some.mpr ⟨rfl, rfl, rfl⟩]

-- The pieces are read one after another, so a fault is that of the first piece that has one.
theorem parsePieces_eq_error_iff :
    parsePieces input year month day = .error e ↔ PiecesFault input year month day e := by
  constructor
  · intro h
    obtain h | ⟨y, hy, h⟩ := bind_eq_error.mp h
    · obtain ⟨rfl, hyear⟩ := parsePiece_year_error.mp h
      exact .year hyear
    have hy := parsePiece_year.mp hy
    obtain h | ⟨m, hm, h⟩ := bind_eq_error.mp h
    · obtain ⟨rfl, hmonth⟩ := parsePiece_part_error.mp h
      exact .month hy hmonth
    have hm := parsePiece_part.mp hm
    obtain h | ⟨d, hd, h⟩ := bind_eq_error.mp h
    · obtain ⟨rfl, hday⟩ := parsePiece_part_error.mp h
      exact .day hy hm hday
    have hd := parsePiece_part.mp hd
    cases hparts : Date.ofParts? y m d with
    | none =>
        rw [hparts] at h
        cases h
        exact .range hy hm hd (Date.ofParts?_eq_none.mp hparts)
    | some date =>
        rw [hparts] at h
        cases h
  · intro h
    apply bind_eq_error.mpr
    cases h with
    | year h => exact .inl (parsePiece_year_error.mpr ⟨rfl, h⟩)
    | month hy h =>
        refine .inr ⟨_, parsePiece_year.mpr hy, bind_eq_error.mpr ?_⟩
        exact .inl (parsePiece_part_error.mpr ⟨rfl, h⟩)
    | day hy hm h =>
        refine .inr ⟨_, parsePiece_year.mpr hy, bind_eq_error.mpr ?_⟩
        refine .inr ⟨_, parsePiece_part.mpr hm, bind_eq_error.mpr ?_⟩
        exact .inl (parsePiece_part_error.mpr ⟨rfl, h⟩)
    | range hy hm hd h =>
        refine .inr ⟨_, parsePiece_year.mpr hy, bind_eq_error.mpr ?_⟩
        refine .inr ⟨_, parsePiece_part.mpr hm, bind_eq_error.mpr ?_⟩
        refine .inr ⟨_, parsePiece_part.mpr hd, ?_⟩
        rw [Date.ofParts?_eq_none.mpr h]

end Pieces

theorem parseDate_eq_ok_iff : parseDate input = .ok date ↔ WritesDate input date := by
  by_cases h : ∃ year month day, Pieces input year month day
  · obtain ⟨year, month, day, h⟩ := h
    rw [parseDate_of_pieces h, parsePieces_eq_ok_iff]
    constructor
    · intro hdate
      exact ⟨year, month, day, h, hdate⟩
    · rintro ⟨year', month', day', h', hdate⟩
      obtain ⟨rfl, rfl, rfl⟩ := h.unique h'
      exact hdate
  · simp only [not_exists] at h
    rw [parseDate_of_not_pieces h]
    constructor
    · intro hok
      cases hok
    · rintro ⟨year, month, day, h', -⟩
      exact absurd h' (h year month day)

theorem parseDate_eq_error_iff : parseDate input = .error e ↔ DateFault input e := by
  by_cases h : ∃ year month day, Pieces input year month day
  · obtain ⟨year, month, day, h⟩ := h
    rw [parseDate_of_pieces h, parsePieces_eq_error_iff]
    constructor
    · exact .pieces h
    · intro hfault
      cases hfault with
      | shape hshape => exact absurd h (hshape year month day)
      | pieces h' hfault =>
          obtain ⟨rfl, rfl, rfl⟩ := h.unique h'
          exact hfault
  · simp only [not_exists] at h
    rw [parseDate_of_not_pieces h]
    constructor
    · intro herror
      cases herror
      exact .shape h
    · intro hfault
      cases hfault with
      | shape => rfl
      | pieces h' => exact absurd h' (h _ _ _)

theorem parse_utcDate_eq_ok_iff {v : Value} :
    utcDate.parse input = .ok v ↔
      ∃ date, WritesDate input date ∧ v = .timestamp (Instant.midnight date) := by
  constructor
  · intro h
    obtain ⟨date, hdate, rfl⟩ := map_eq_ok.mp h
    exact ⟨date, parseDate_eq_ok_iff.mp hdate, rfl⟩
  · rintro ⟨date, hdate, rfl⟩
    exact map_eq_ok.mpr ⟨date, parseDate_eq_ok_iff.mpr hdate, rfl⟩

theorem parse_utcDate_eq_error_iff : utcDate.parse input = .error e ↔ DateFault input e :=
  map_eq_error.trans parseDate_eq_error_iff

theorem compare_utcDate_midnight (d e : Date) :
    utcDate.compare (.timestamp (Instant.midnight d)) (.timestamp (Instant.midnight e)) =
      d.compare e :=
  Instant.compare_midnight d e

theorem utcDate_parse_and_compare :
    (∀ input v, utcDate.parse input = .ok v ↔
      ∃ date, WritesDate input date ∧ v = .timestamp (Instant.midnight date)) ∧
    (∀ t date, t = Instant.midnight date ↔
      partsOfDay t.day = (date.year, date.month, date.day) ∧ t.secondOfDay = 0 ∧ t.nanos = 0) ∧
    (∀ input e, utcDate.parse input = .error e ↔ DateFault input e) ∧
    ∀ a b v w, utcDate.parse a = .ok v → utcDate.parse b = .ok w →
      ∃ d e, WritesDate a d ∧ WritesDate b e ∧ utcDate.compare v w = d.compare e ∧
        (utcDate.compare v w = .eq ↔ d = e) := by
  refine ⟨fun input v => parse_utcDate_eq_ok_iff, fun t date => Instant.eq_midnight_iff,
    fun input e => parse_utcDate_eq_error_iff, fun a b v w hv hw => ?_⟩
  obtain ⟨d, hd, rfl⟩ := parse_utcDate_eq_ok_iff.mp hv
  obtain ⟨e, he, rfl⟩ := parse_utcDate_eq_ok_iff.mp hw
  rw [compare_utcDate_midnight]
  exact ⟨d, e, hd, he, rfl, Date.compare_eq_iff⟩

-- Blanks and zeros do not count, a leap day is before the day after it, and a dash is never the
-- sign of a year.
theorem utcDate_parse_and_compare_leap_day :
    ∃ v w d e, utcDate.parse "+2024 - 02-29" = .ok v ∧ utcDate.parse " 2024-3-001" = .ok w ∧
      WritesDate "+2024 - 02-29" d ∧ WritesDate " 2024-3-001" e ∧ d.compare e = .lt ∧ d ≠ e ∧
      DateFault "2023-02-29" (.outOfRange "no such date: 2023-02-29") ∧
      DateFault "2023- x-" (.invalidFormat "should be '<year>-<month>-<day>'") ∧
      DateFault "2023- x-y" (.notANumber " x") ∧
      DateFault "-5-01-01" (.invalidFormat "should be '<year>-<month>-<day>'") := by
  obtain ⟨-, -, herror, hcompare⟩ := utcDate_parse_and_compare
  obtain ⟨v, hv⟩ : ∃ v, utcDate.parse "+2024 - 02-29" = .ok v := ⟨_, rfl⟩
  obtain ⟨w, hw⟩ : ∃ w, utcDate.parse " 2024-3-001" = .ok w := ⟨_, rfl⟩
  obtain ⟨d, e, hd, he, horder, hsame⟩ := hcompare _ _ v w hv hw
  have hlt : utcDate.compare v w = .lt := by
    cases hv
    cases hw
    rfl
  refine ⟨v, w, d, e, hv, hw, hd, he, horder.symm.trans hlt, ?_, (herror _ _).mp rfl,
    (herror _ _).mp rfl, (herror _ _).mp rfl, (herror _ _).mp rfl⟩
  intro heq
  rw [hsame.mpr heq] at hlt
  cases hlt

end SearchQuery.Codec
