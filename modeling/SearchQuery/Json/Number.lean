import SearchQuery.Json.Document

-- The numbers of JSON text. A number that is no integer is read in one pass: its digits
-- are an integer of 64 bits, as many as fit, which is then multiplied or divided by a
-- power of ten. The result is near to the written number, not always the nearest.

namespace SearchQuery.Json

open SearchQuery.Numeral

-- The parts of a number as it is written. An integer has neither a fraction nor an
-- exponent.
structure NumberText where
  negative : Bool
  whole : List Char
  fraction : List Char
  exponent : Option (Bool × List Char)

-- Digits taken into a word of 64 bits while they fit, and how many they are.
def takeDigits (word : Nat) : List Char → Nat × Nat
  | [] => (word, 0)
  | d :: ds =>
      let next := 10 * word + digitValue d
      if next < 0x10000000000000000 then
        let (final, count) := takeDigits next ds
        (final, count + 1)
      else (word, 0)

def powerOfTen (n : Nat) : Binary64 :=
  Binary64.ofDecimal false 1 n

-- A number times a power of ten. There is none past the range; far below it the division
-- is done in steps of `10 ^ 308`.
def scaleByTen (x : Binary64) (e : Int) : Option Binary64 :=
  if 308 < e then if x.magnitude = 0 then some x else none
  else if 0 ≤ e then (x.mul (powerOfTen e.toNat)) |> fun y => if y.isFinite then some y else none
  else if -308 ≤ e then some (x.div (powerOfTen e.natAbs))
  else if x.magnitude = 0 then some x
  else scaleByTen (x.div (powerOfTen 308)) (e + 308)
termination_by e.natAbs
decreasing_by omega

def withSign (negative : Bool) (x : Binary64) : Binary64 :=
  if negative then x.neg else x

-- An exponent that no word of 31 bits holds makes the number zero or refuses it.
def floatOf (t : NumberText) : Option Binary64 :=
  let (word, taken) := takeDigits 0 t.whole
  let (word, places) := takeDigits word t.fraction
  let shift : Int := (t.whole.length - taken : Nat) - (places : Int)
  match t.exponent with
  | none => (scaleByTen (Binary64.ofNat word) shift).map (withSign t.negative)
  | some (down, ds) =>
      let e := ofDigits ds
      if 0x80000000 ≤ e then
        if word ≠ 0 && !down then none
        else some (withSign t.negative (Binary64.ofNat 0))
      else
        (scaleByTen (Binary64.ofNat word) (if down then shift - e else shift + e)).map
          (withSign t.negative)

-- Minus zero, and what is too great for a word, is a floating-point number.
def numberOf (t : NumberText) : Option Document :=
  let n := ofDigits t.whole
  if t.fraction.isEmpty && t.exponent.isNone && n < 0x10000000000000000 then
    if !t.negative then some (.integer n)
    else if 0 < n && n ≤ 0x8000000000000000 then some (.integer (-(n : Int)))
    else some (.float (Binary64.ofNat n).neg)
  else (floatOf t).map .float

-- Digits and what follows them; there is at least one digit.
def digitRun (cs : List Char) : Option (List Char × List Char) :=
  let ds := cs.takeWhile Char.isDigit
  if ds.isEmpty then none else some (ds, cs.drop ds.length)

-- A number at the start of a text. Only zero itself begins with a zero.
def readNumber (cs : List Char) : Option (Document × List Char) := do
  let (negative, cs) := match cs with
    | '-' :: rest => (true, rest)
    | _ => (false, cs)
  let (whole, cs) ← digitRun cs
  if whole.length > 1 && whole.head? == some '0' then none
  let (fraction, cs) ← match cs with
    | '.' :: rest => digitRun rest
    | _ => some ([], cs)
  let (exponent, cs) ← match cs with
    | mark :: rest =>
        if mark = 'e' || mark = 'E' then
          match rest with
          | '-' :: rest => (digitRun rest).map fun (ds, rest) => (some (true, ds), rest)
          | '+' :: rest => (digitRun rest).map fun (ds, rest) => (some (false, ds), rest)
          | _ => (digitRun rest).map fun (ds, rest) => (some (false, ds), rest)
        else some (none, cs)
    | [] => some (none, cs)
  let number ← numberOf ⟨negative, whole, fraction, exponent⟩
  return (number, cs)

end SearchQuery.Json
