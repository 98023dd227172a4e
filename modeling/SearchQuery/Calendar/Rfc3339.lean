import SearchQuery.Text.Blank
import SearchQuery.Numeral.Integer
import SearchQuery.Calendar.Instant

-- The text of an instant: a date, a time of day and an offset from universal time, as
-- in `2024-02-29T23:59:60.5+01:00`. Writing is exact; reading also takes blanks between
-- the parts, other separators and other offsets.

namespace SearchQuery.Calendar.Rfc3339

open SearchQuery.Text SearchQuery.Numeral

-- A part of the text, and what follows it.
abbrev Reader (α : Type) := List Char → Option (α × List Char)

-- A run of at most `width` digits after blanks.
def number (width : Nat) : Reader Nat := fun cs =>
  let cs := trimStart cs
  let ds := (cs.take width).takeWhile Char.isDigit
  if ds.isEmpty then none else some (ofDigits ds, cs.drop ds.length)

-- A year: up to four digits, or a sign and any number of digits.
def year : Reader Int := fun cs =>
  let signed (rest : List Char) : Option (Nat × List Char) :=
    let ds := rest.takeWhile Char.isDigit
    if ds.isEmpty then none else some (ofDigits ds, rest.drop ds.length)
  match trimStart cs with
  | '-' :: rest => (signed rest).map fun (n, rest) => (-(n : Int), rest)
  | '+' :: rest => (signed rest).map fun (n, rest) => ((n : Int), rest)
  | rest => (number 4 rest).map fun (n, rest) => ((n : Int), rest)

-- A mark, after blanks.
def mark (c : Char) : Reader Unit := fun cs =>
  match trimStart cs with
  | d :: rest => if d = c then some ((), rest) else none
  | [] => none

-- A fraction of a second in nanoseconds: nine digits count, the rest is skipped.
def fraction : Reader Nat := fun cs =>
  match cs with
  | '.' :: rest =>
      let ds := rest.takeWhile Char.isDigit
      let counted := ds.take 9
      if ds.isEmpty then none
      else some (ofDigits counted * Nat.pow 10 (9 - counted.length), rest.drop ds.length)
  | _ => some (0, cs)

def twoDigits : Reader Nat
  | c :: d :: rest =>
      if c.isDigit && d.isDigit then some (ofDigits [c, d], rest) else none
  | _ => none

-- Hours and minutes east of universal time, in seconds.
def signedOffset (negative : Bool) : Reader Int := fun cs => do
  let (hours, rest) ← twoDigits cs
  let (minutes, rest) ← twoDigits (rest.dropWhile fun c => c == ':' || isBlankChar c)
  if minutes < 60 then
    let seconds : Int := (hours * 3600 + minutes * 60 : Nat)
    return (if negative then -seconds else seconds, rest)
  else none

-- A minus sign may also be the typographic one.
def offset : Reader Int := fun cs =>
  match cs with
  | 'Z' :: rest | 'z' :: rest => some (0, rest)
  | '+' :: rest => signedOffset false rest
  | '-' :: rest | '−' :: rest => signedOffset true rest
  | _ =>
      if (cs.take 3).map Char.toLower = "utc".toList then some (0, cs.drop 3) else none

-- The second 60 is a leap second.
def timeOfDay? (hour minute second : Nat) : Option (Nat × Nat) :=
  if hour < 24 && minute < 60 && second ≤ 60 then
    let counted := min second 59
    some (hour * 3600 + minute * 60 + counted, (second - counted) * nanosPerSecond)
  else none

-- The date must exist, both where the time was written and in universal time, and the
-- offset is less than a day.
def assemble (year : Int) (month day hour minute second nanos : Nat) (east : Int) :
    Option Instant := do
  let date ← Date.ofParts? year month day
  let (inDay, leap) ← timeOfDay? hour minute second
  if east.natAbs < 86400 then
    Instant.ofParts? (date.dayNumber * secondsPerDay + inDay - east) (leap + nanos)
  else none

def separator : Reader Unit
  | 't' :: rest | 'T' :: rest | ' ' :: rest => some ((), rest)
  | _ => none

def readChars (cs : List Char) : Option Instant := do
  let (year, cs) ← year cs
  let ((), cs) ← mark '-' cs
  let (month, cs) ← number 2 cs
  let ((), cs) ← mark '-' cs
  let (day, cs) ← number 2 cs
  let ((), cs) ← separator cs
  let (hour, cs) ← number 2 cs
  let ((), cs) ← mark ':' cs
  let (minute, cs) ← number 2 cs
  let ((), cs) ← mark ':' cs
  let (second, cs) ← number 2 cs
  let (nanos, cs) ← fraction cs
  let (east, cs) ← offset (trimStart cs)
  if cs.all isBlankChar then assemble year month day hour minute second nanos east
  else none

def read (text : String) : Option Instant :=
  readChars text.toList

-- Years of four digits stand alone, all others have a sign.
def yearText (year : Int) : List Char :=
  if 0 ≤ year && year ≤ 9999 then padded 4 year.natAbs
  else (if year < 0 then '-' else '+') :: padded 4 year.natAbs

-- The fewest of 0, 3, 6 and 9 digits that write the nanoseconds exactly.
def fractionText (nanos : Nat) : List Char :=
  if nanos = 0 then []
  else if nanos % 1000000 = 0 then '.' :: padded 3 (nanos / 1000000)
  else if nanos % 1000 = 0 then '.' :: padded 6 (nanos / 1000)
  else '.' :: padded 9 nanos

-- An instant in universal time, with a leap second as the second 60.
def textChars (t : Instant) : List Char :=
  let (year, month, day) := partsOfDay t.day
  let s := t.secondOfDay
  let leap := if nanosPerSecond ≤ t.nanos then 1 else 0
  yearText year ++ '-' :: padded 2 month ++ '-' :: padded 2 day ++
    'T' :: padded 2 (s / 3600) ++ ':' :: padded 2 (s / 60 % 60) ++
    ':' :: padded 2 (s % 60 + leap) ++ fractionText (t.nanos % nanosPerSecond) ++ ['Z']

def text (t : Instant) : String :=
  String.ofList (textChars t)

example : (read "2016-12-31T23:59:60.25Z").map text = some "2016-12-31T23:59:60.250Z" := by
  decide +kernel

example : (read "-1-03-01 00:30:00 +01:00").map text = some "-0001-02-28T23:30:00Z" := by
  decide +kernel

end SearchQuery.Calendar.Rfc3339
