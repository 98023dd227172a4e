import SearchQuery.Numeral.Integer
import SearchQuery.Numeral.Binary64

-- The decimal text of a floating-point number, as a reader accepts it: a sign that
-- may be left out, then `inf`, `infinity` or `nan` in any case, or digits with at
-- most one point among or around them and perhaps an exponent.

namespace SearchQuery.Numeral.Decimal

-- An integer scaled by a power of ten.
structure Scaled where
  coefficient : Nat
  exponent : Int
deriving DecidableEq

-- Nothing, or a mark `e` or `E` with an integer after it.
def readExponent : List Char → Option Int
  | [] => some 0
  | mark :: cs => if mark = 'e' || mark = 'E' then readInteger cs else none

-- Digits around a point are one integer, scaled down by the digits after the point.
def readScaled (cs : List Char) : Option Scaled :=
  let whole := cs.takeWhile Char.isDigit
  let afterWhole := cs.dropWhile Char.isDigit
  let (fraction, rest) := match afterWhole with
    | '.' :: afterPoint => (afterPoint.takeWhile Char.isDigit, afterPoint.dropWhile Char.isDigit)
    | _ => ([], afterWhole)
  if whole.isEmpty && fraction.isEmpty then none
  else (readExponent rest).map fun e => ⟨ofDigits (whole ++ fraction), e - fraction.length⟩

def readMagnitude (negative : Bool) (cs : List Char) : Option Binary64 :=
  let name := cs.map Char.toLower
  if name = "inf".toList || name = "infinity".toList then some (Binary64.infinity negative)
  else if name = "nan".toList then some Binary64.nan
  else (readScaled cs).map fun x => Binary64.ofDecimal negative x.coefficient x.exponent

-- The number nearest to the written one; a number past the range reads as infinite.
def read : List Char → Option Binary64
  | '-' :: cs => readMagnitude true cs
  | '+' :: cs => readMagnitude false cs
  | cs => readMagnitude false cs

end SearchQuery.Numeral.Decimal
