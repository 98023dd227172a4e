import SearchQuery.Numeral.Shortest

-- JSON documents.

namespace SearchQuery

open SearchQuery.Numeral

-- A number without a fraction and an exponent is an integer if a word of 64 bits holds
-- it; any other is a floating-point number. Members keep their order, and a name may
-- occur more than once. Two things stand for text that is no JSON: `broken` where a value
-- cannot be read, and an object that is not closed where its next member cannot be.
inductive Document
  | null
  | boolean (b : Bool)
  | integer (n : Int)
  | float (x : Binary64)
  | string (text : String)
  | array (items : List Document)
  | object (members : List (String × Document)) (closed : Bool)
  | broken
deriving Inhabited

namespace Document

-- An object that is all there.
def record (members : List (String × Document)) : Document :=
  object members true

-- Numbers from a hundred thousandth up to `10 ^ 16` are written without an exponent, and
-- an exponent has a sign.
def numberStyle : Shortest.Style :=
  ⟨-5, 15, true⟩

def floatText (x : Binary64) : String :=
  String.ofList (Shortest.text numberStyle x)

example : Shortest.text numberStyle (Binary64.ofDecimal true 5 (-1)) = "-0.5".toList := by
  decide +kernel

example : Shortest.text numberStyle (Binary64.ofDecimal false 1 15) =
    "1000000000000000.0".toList := by
  decide +kernel

example : Shortest.text numberStyle (Binary64.ofDecimal false 1 22) = "1e+22".toList := by
  decide +kernel

example : Shortest.text numberStyle (Binary64.ofDecimal false 5 (-324)) = "5e-324".toList := by
  decide +kernel

end Document

end SearchQuery
