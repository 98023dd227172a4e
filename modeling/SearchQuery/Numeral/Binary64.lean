import SearchQuery.Orders

-- Floating-point numbers of 64 bits: a sign, 11 bits of exponent and 52 bits of
-- fraction. A number is kept as its bits, so that equality of numbers is equality
-- of bits and every operation is exact arithmetic followed by one rounding.

namespace SearchQuery.Numeral

structure Binary64 where
  bits : UInt64
deriving DecidableEq, Inhabited

namespace Binary64

-- The sign is the bit `2 ^ 63`.
def signBit : Nat := 0x8000000000000000

-- The bit `2 ^ 52`, which is not written down, is in front of the fraction of all but the
-- least numbers.
def hiddenBit : Nat := 0x10000000000000

def isNegative (x : Binary64) : Bool :=
  signBit ≤ x.bits.toNat

-- The bits without the sign. Magnitudes are ordered like the absolute values that
-- they stand for.
def magnitude (x : Binary64) : Nat :=
  x.bits.toNat % signBit

def infiniteMagnitude : Nat :=
  0x7FF * hiddenBit

def isNaN (x : Binary64) : Bool :=
  infiniteMagnitude < x.magnitude

def isFinite (x : Binary64) : Bool :=
  x.magnitude < infiniteMagnitude

def ofMagnitude (negative : Bool) (m : Nat) : Binary64 :=
  ⟨UInt64.ofNat (if negative then signBit + m else m)⟩

def infinity (negative : Bool) : Binary64 :=
  ofMagnitude negative infiniteMagnitude

def nan : Binary64 :=
  ofMagnitude false (infiniteMagnitude + hiddenBit / 2)

-- An integer that grows with the number. The two zeros share the key 0.
def orderKey (x : Binary64) : Int :=
  if x.isNegative then -(x.magnitude : Int) else x.magnitude

-- The numeric order. What is not a number stands level with everything.
def compare (x y : Binary64) : Ordering :=
  if x.isNaN || y.isNaN then .eq else Ord.compare x.orderKey y.orderKey

-- Numeric equality: the two zeros are equal, and what is not a number equals
-- nothing.
def equals (x y : Binary64) : Bool :=
  !x.isNaN && !y.isNaN && x.orderKey == y.orderKey

-- A finite number is `significand * 2 ^ exponent`, up to the sign.
def significand (x : Binary64) : Nat :=
  if x.magnitude < hiddenBit then x.magnitude else hiddenBit + x.magnitude % hiddenBit

def exponent (x : Binary64) : Int :=
  if x.magnitude < hiddenBit then -1074 else (x.magnitude / hiddenBit : Nat) - 1075

-- A quotient rounded to the nearest integer, a half to the even neighbour.
def divNearest (n d : Nat) : Nat :=
  let q := n / d
  let r := n % d
  if 2 * r < d then q else if d < 2 * r then q + 1 else q + q % 2

-- A product with a power of two, as a numerator and a denominator.
def scaled (n d : Nat) (e : Int) : Nat × Nat :=
  if e < 0 then (n, d * Nat.pow 2 e.natAbs) else (n * Nat.pow 2 e.natAbs, d)

-- The greatest `e` with `2 ^ e ≤ n / d`, for positive `n` and `d`.
def floorLog2 (n d : Nat) : Int :=
  let e : Int := (n.log2 : Int) - d.log2
  let (a, b) := scaled n d (-e)
  if a < b then e - 1 else e

-- The magnitude nearest to `n / d`. The exponent is chosen so that the significand
-- has 53 bits, or fewer at the bottom of the range; one that rounds up to 54 bits
-- carries into the exponent by itself.
def nearestMagnitude (n d : Nat) : Nat :=
  if n = 0 then 0
  else
    let e := max (floorLog2 n d - 52) (-1074)
    let (a, b) := scaled n d (-e)
    min ((e + 1074).toNat * hiddenBit + divNearest a b) infiniteMagnitude

def ofRatio (negative : Bool) (n d : Nat) : Binary64 :=
  ofMagnitude negative (nearestMagnitude n d)

def ofInt (n : Int) : Binary64 :=
  ofRatio (n < 0) n.natAbs 1

def ofNat (n : Nat) : Binary64 :=
  ofRatio false n 1

-- `n * 10 ^ e`, rounded once. Far outside the range the power is not computed:
-- a number from `10 ^ 309` is infinite, and one below `10 ^ (-330)` is zero.
def ofDecimal (negative : Bool) (n : Nat) (e : Int) : Binary64 :=
  if n = 0 then ofMagnitude negative 0
  else if 309 ≤ e then infinity negative
  else if e + n.log2 / 3 + 1 < -330 then ofMagnitude negative 0
  else if e < 0 then ofRatio negative n (Nat.pow 10 e.natAbs)
  else ofRatio negative (n * Nat.pow 10 e.natAbs) 1

def neg (x : Binary64) : Binary64 :=
  ofMagnitude (!x.isNegative) x.magnitude

-- The product of two finite numbers, rounded once.
def mul (x y : Binary64) : Binary64 :=
  let (n, d) := scaled (x.significand * y.significand) 1 (x.exponent + y.exponent)
  ofRatio (x.isNegative != y.isNegative) n d

-- The quotient of two finite numbers, rounded once; the divisor is not zero.
def div (x y : Binary64) : Binary64 :=
  let (n, d) := scaled x.significand y.significand (x.exponent - y.exponent)
  ofRatio (x.isNegative != y.isNegative) n d

theorem ofMagnitude_magnitude (x : Binary64) : ofMagnitude x.isNegative x.magnitude = x := by
  have h := x.bits.toNat_lt
  cases x with
  | mk bits =>
    simp only [ofMagnitude, isNegative, magnitude, signBit, mk.injEq] at h ⊢
    apply UInt64.toNat_inj.mp
    by_cases hs : 0x8000000000000000 ≤ bits.toNat
    · simp only [hs, decide_true, if_true, UInt64.toNat_ofNat']
      omega
    · simp only [hs, decide_false, Bool.false_eq_true, if_false, UInt64.toNat_ofNat']
      omega

theorem compare_self (x : Binary64) : x.compare x = .eq := by
  simp only [compare]
  split
  · rfl
  · simp

theorem compare_swap (x y : Binary64) : (x.compare y).swap = y.compare x := by
  simp only [compare, Bool.or_comm x.isNaN]
  split
  · rfl
  · exact swap_compare _ _

end Binary64

end SearchQuery.Numeral
