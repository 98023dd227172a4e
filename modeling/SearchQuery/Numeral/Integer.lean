-- Decimal integers: a sign that may be left out, then ASCII digits and nothing
-- else. Leading zeros are allowed.

namespace SearchQuery.Numeral

def digitValue (c : Char) : Nat :=
  c.toNat - '0'.toNat

-- The number that digits write in base ten; no digits write zero.
def ofDigits (ds : List Char) : Nat :=
  ds.foldl (fun n d => 10 * n + digitValue d) 0

def readDigits (cs : List Char) : Option Nat :=
  if !cs.isEmpty && cs.all Char.isDigit then some (ofDigits cs) else none

-- A natural number may have a plus sign, but no minus sign, not even before zero.
def readNatural : List Char → Option Nat
  | '+' :: cs => readDigits cs
  | cs => readDigits cs

def readInteger : List Char → Option Int
  | '-' :: cs => (readDigits cs).map fun n => -(n : Int)
  | cs => (readNatural cs).map Int.ofNat

-- An integer that fits a signed word of the given number of bits.
def readSigned (bits : Nat) (cs : List Char) : Option Int :=
  (readInteger cs).filter fun n =>
    -(Nat.pow 2 (bits - 1) : Int) ≤ n && n < (Nat.pow 2 (bits - 1) : Int)

-- A natural number that fits a word of the given number of bits.
def readUnsigned (bits : Nat) (cs : List Char) : Option Nat :=
  (readNatural cs).filter fun n => n < Nat.pow 2 bits

def readInt64 (cs : List Char) : Option Int64 :=
  (readSigned 64 cs).map Int64.ofInt

-- The decimal digits of a number, without leading zeros.
def digits (n : Nat) : List Char :=
  Nat.toDigits 10 n

-- The digits with zeros before them up to a width.
def padded (width : Nat) (n : Nat) : List Char :=
  List.replicate (width - (digits n).length) '0' ++ digits n

def integerText (n : Int) : List Char :=
  if n < 0 then '-' :: digits n.natAbs else digits n.natAbs

end SearchQuery.Numeral
