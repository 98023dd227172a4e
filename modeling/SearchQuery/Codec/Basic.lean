import SearchQuery.Score
import SearchQuery.Value.Basic

-- A codec reads the values of one kind of condition from text, orders them and scores
-- them.

namespace SearchQuery

-- Why a text is not a value.
inductive ValueError
  | notANumber (text : String)
  | invalidFormat (reason : String)
  | outOfRange (what : String)
  | other (reason : String)
deriving DecidableEq, Repr

def ValueError.message : ValueError → String
  | notANumber text => s!"Parsed value is not a number: '{text}'"
  | invalidFormat reason => s!"Invalid format: {reason}"
  | outOfRange what => s!"Value out of range: {what}"
  | other reason => reason

abbrev ValueReader := String → Except ValueError Value

abbrev ValueOrder := Value → Value → Ordering

abbrev ValueScore := Value → Score

structure Codec where
  parse : ValueReader
  order? : Option ValueOrder
  score? : Option ValueScore

namespace Codec

-- A codec that only reads.
def ofReader (parse : ValueReader) : Codec :=
  ⟨parse, none, none⟩

def withOrder (codec : Codec) (order : ValueOrder) : Codec :=
  { codec with order? := some order }

def withScore (codec : Codec) (score : ValueScore) : Codec :=
  { codec with score? := some score }

-- The codec's own order, or else the order of all values.
def compare (codec : Codec) : ValueOrder :=
  codec.order?.getD Value.compare

-- A value counts 1 unless the codec scores it.
def score (codec : Codec) : ValueScore :=
  codec.score?.getD fun _ => 1

end Codec

end SearchQuery
