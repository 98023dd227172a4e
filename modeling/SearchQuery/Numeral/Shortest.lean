import SearchQuery.Numeral.Integer
import SearchQuery.Numeral.Binary64

-- The shortest decimal text of a floating-point number: the fewest digits that read
-- back as the same number, and of those the nearest to it.

namespace SearchQuery.Numeral.Shortest

-- The reals that round to a positive finite number, as three integers over one
-- denominator. The ends belong to the interval if the significand is even.
structure Interval where
  lower : Nat
  value : Nat
  upper : Nat
  denominator : Nat
  closed : Bool

-- Half the distance to the next number above, and half of that to the next number
-- below, which is nearer under a power of two. Everything is counted in quarters of
-- the unit in the last place.
def interval (x : Binary64) : Interval :=
  let m := x.significand
  let below := if m = Binary64.hiddenBit && x.exponent > -1074 then 1 else 2
  let e := x.exponent - 2
  let unit := if e < 0 then 1 else Nat.pow 2 e.natAbs
  { lower := (4 * m - below) * unit
    value := 4 * m * unit
    upper := (4 * m + 2) * unit
    denominator := if e < 0 then Nat.pow 2 e.natAbs else 1
    closed := m % 2 = 0 }

-- The greatest `e` with `10 ^ e ≤ n / d`, for positive `n` and `d`: an estimate from
-- the binary logarithm, corrected by at most one either way.
def floorLog10 (n d : Nat) : Int :=
  let e := (Binary64.floorLog2 n d * 30103) / 100000
  let atLeast (k : Int) : Bool :=
    if k < 0 then d ≤ n * Nat.pow 10 k.natAbs else d * Nat.pow 10 k.natAbs ≤ n
  if atLeast (e + 1) then e + 1 else if atLeast e then e else e - 1

-- The multiple of `10 ^ k` inside the interval that is nearest to the value, if there
-- is one. Of two equally near ones it is the even one.
def onGrid (i : Interval) (k : Int) : Option Nat :=
  let up := if k < 0 then Nat.pow 10 k.natAbs else 1
  let step := i.denominator * (if k < 0 then 1 else Nat.pow 10 k.natAbs)
  let inside (c : Nat) : Bool :=
    if i.closed then i.lower * up ≤ c * step && c * step ≤ i.upper * up
    else i.lower * up < c * step && c * step < i.upper * up
  let c := i.value * up / step
  let below := i.value * up - c * step
  let above := (c + 1) * step - i.value * up
  match inside c, inside (c + 1) with
  | true, true =>
      if below < above || (below = above && c % 2 = 0) then some c else some (c + 1)
  | true, false => some c
  | false, true => some (c + 1)
  | false, false => none

-- Grids from coarse to fine.
def search (i : Interval) (k : Int) : Nat → Nat × Int
  | 0 => (i.value / i.denominator, 0)
  | tries + 1 =>
      match onGrid i k with
      | some c => (c, k)
      | none => search i (k - 1) tries

-- The digits of a positive finite number, without zeros at the end, and the power of
-- ten that the first of them counts. Seventeen digits always suffice.
def shortestDigits (x : Binary64) : List Char × Int :=
  let i := interval x
  let (c, k) := search i (floorLog10 i.value i.denominator) 17
  let ds := digits c
  ((ds.reverse.dropWhile fun d => d == '0').reverse, k + ds.length - 1)

-- Where a text counts its digits from the point, and how it writes an exponent.
structure Style where
  positionalFrom : Int
  positionalTo : Int
  plusSign : Bool

-- A number at least one has a point and a digit after it; a smaller one begins with
-- a zero and a point.
def positional (ds : List Char) (e : Int) : List Char :=
  if e < 0 then
    '0' :: '.' :: (List.replicate (e.natAbs - 1) '0' ++ ds)
  else
    let whole := ds.take (e.toNat + 1)
    let fraction := ds.drop (e.toNat + 1)
    whole ++ List.replicate (e.toNat + 1 - whole.length) '0' ++
      '.' :: (if fraction.isEmpty then ['0'] else fraction)

def scientific (style : Style) (ds : List Char) (e : Int) : List Char :=
  let sign := if 0 ≤ e && style.plusSign then ['+'] else []
  let mantissa := match ds with
    | first :: second :: more => first :: '.' :: second :: more
    | _ => ds
  mantissa ++ 'e' :: (sign ++ integerText e)

-- The text of a finite number.
def text (style : Style) (x : Binary64) : List Char :=
  let sign := if x.isNegative then ['-'] else []
  if x.magnitude = 0 then sign ++ ['0', '.', '0']
  else
    let (ds, e) := shortestDigits x
    sign ++
      (if style.positionalFrom ≤ e && e ≤ style.positionalTo then positional ds e
      else scientific style ds e)

end SearchQuery.Numeral.Shortest
