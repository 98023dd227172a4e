import SearchQuery.Text.Blank
import SearchQuery.Numeral.Decimal
import SearchQuery.Codec.Basic

-- Codecs for text, numbers, instants and dates.

namespace SearchQuery.Codec

open SearchQuery.Text SearchQuery.Numeral SearchQuery.Calendar

-- Text as it stands.
def string : Codec :=
  ⟨fun input => .ok (.text input), some fun a b => (Value.compareTexts? a b).getD .eq, none⟩

def parseInt64 (input : String) : Except ValueError Int64 :=
  match readInt64 (trimChars input.toList) with
  | some n => .ok n
  | none => .error (.notANumber input)

def compareNumbers (a b : Value) : Ordering :=
  (Value.compareNumbers? a b).getD .eq

-- An integer of 64 bits with blanks around it.
def int : Codec :=
  ⟨fun input => (parseInt64 input).map .integer, some compareNumbers, none⟩

-- What is not a number is refused even where it is written as one.
def parseFloat (input : String) : Except ValueError Binary64 :=
  match (Decimal.read (trimChars input.toList)).filter fun x => !x.isNaN with
  | some x => .ok x
  | none => .error (.notANumber input)

def float : Codec :=
  ⟨fun input => (parseFloat input).map .float, some compareNumbers, none⟩

def compareTimestamps (a b : Value) : Ordering :=
  (Value.compareTimestamps? a b).getD .eq

-- Milliseconds from the start of 1970.
def parseUnixTimestamp (input : String) : Except ValueError Instant := do
  let ms ← parseInt64 input
  match Instant.ofMillis? ms.toInt with
  | some t => .ok t
  | none =>
      let written := String.ofList (integerText ms.toInt)
      .error (.outOfRange s!"timestamp {written}")

def unixTimestamp : Codec :=
  ⟨fun input => (parseUnixTimestamp input).map .timestamp, some compareTimestamps, none⟩

-- A piece of a date, read without the blanks around it; an error shows it with them.
def parsePiece {α : Type} (read : List Char → Option α) (piece : List Char) :
    Except ValueError α :=
  match read (trimChars piece) with
  | some n => .ok n
  | none => .error (.notANumber (String.ofList piece))

def parsePieces (input : String) (year month day : List Char) : Except ValueError Date := do
  let y ← parsePiece (readSigned 32) year
  let m ← parsePiece (readUnsigned 32) month
  let d ← parsePiece (readUnsigned 32) day
  match Date.ofParts? y m d with
  | some date => .ok date
  | none => .error (.outOfRange s!"no such date: {input}")

-- A date is a year, a month and a day with a dash between each two, so a year cannot
-- have a sign of its own.
def parseDate (input : String) : Except ValueError Date :=
  let malformed : ValueError := .invalidFormat "should be '<year>-<month>-<day>'"
  match input.toList.splitOn '-' with
  | [year, month, day] =>
      if [year, month, day].any fun piece => piece.all isBlankChar then .error malformed
      else parsePieces input year month day
  | _ => .error malformed

-- A date stands for its first instant.
def utcDate : Codec :=
  ⟨fun input => (parseDate input).map fun date => .timestamp (Instant.midnight date),
    some compareTimestamps, none⟩

end SearchQuery.Codec
