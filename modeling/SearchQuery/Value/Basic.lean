import SearchQuery.Numeral.Binary64
import SearchQuery.Calendar.Instant
import SearchQuery.Value.Operator

-- The values that conditions carry.

namespace SearchQuery

open SearchQuery.Numeral SearchQuery.Calendar

-- A flag has the value `unit`. A reduced comparison may carry a flag that negates it;
-- one whose value was moved instead carries none.
inductive Value
  | unit
  | text (text : String)
  | integer (n : Int64)
  | float (x : Binary64)
  | timestamp (t : Instant)
  | comparison (op : Operator) (value : Value)
  | reduced (op : StrictOperator) (value : Value) (negated : Option Bool)
deriving DecidableEq, Inhabited

namespace Value

def text? : Value → Option String
  | text s => some s
  | _ => none

def integer? : Value → Option Int64
  | integer n => some n
  | _ => none

-- An integer counts as the nearest floating-point number.
def number? : Value → Option Binary64
  | integer n => some (Binary64.ofInt n.toInt)
  | float x => some x
  | _ => none

def timestamp? : Value → Option Instant
  | timestamp t => some t
  | _ => none

-- Two integers are compared exactly, two numbers otherwise as floating-point numbers.
-- There is no answer when one is not a number.
def compareNumbers? (a b : Value) : Option Ordering :=
  match a.integer?, b.integer? with
  | some m, some n => some (Ord.compare m.toInt n.toInt)
  | _, _ =>
      match a.number?, b.number? with
      | some x, some y => some (x.compare y)
      | _, _ => none

-- Texts by the code points of their characters.
def compareTexts? (a b : Value) : Option Ordering :=
  match a.text?, b.text? with
  | some s, some t => some (Ord.compare s t)
  | _, _ => none

def compareTimestamps? (a b : Value) : Option Ordering :=
  match a.timestamp?, b.timestamp? with
  | some s, some t => some (s.compare t)
  | _, _ => none

-- The order where no other is given: numbers among themselves, texts among themselves,
-- and everything else level.
def compare (a b : Value) : Ordering :=
  ((compareNumbers? a b).or (compareTexts? a b)).getD .eq

-- Equality in which floating-point numbers are equal when they are numerically equal.
def same : Value → Value → Bool
  | unit, unit => true
  | text s, text t => s == t
  | integer m, integer n => m == n
  | float x, float y => x.equals y
  | timestamp s, timestamp t => s == t
  | comparison p a, comparison q b => p == q && same a b
  | reduced p a m, reduced q b n => p == q && same a b && m == n
  | _, _ => false

-- Whether every floating-point number in a value is finite.
def isFinite : Value → Bool
  | float x => x.isFinite
  | comparison _ a => a.isFinite
  | reduced _ a _ => a.isFinite
  | _ => true

theorem compareNumbers?_swap (a b : Value) :
    (compareNumbers? a b).map Ordering.swap = compareNumbers? b a := by
  cases a <;> cases b <;>
    simp [compareNumbers?, integer?, number?, Binary64.compare_swap, swap_compare]

theorem compareTexts?_swap (a b : Value) :
    (compareTexts? a b).map Ordering.swap = compareTexts? b a := by
  cases a <;> cases b <;>
    simp [compareTexts?, text?, swap_compare]

theorem compareTimestamps?_swap (a b : Value) :
    (compareTimestamps? a b).map Ordering.swap = compareTimestamps? b a := by
  cases a <;> cases b <;> simp [compareTimestamps?, timestamp?, Instant.compare_swap]

theorem compare_self (a : Value) : a.compare a = .eq := by
  cases a <;>
    simp [compare, compareNumbers?, compareTexts?, integer?, number?, text?,
      Binary64.compare_self]

theorem compare_swap (a b : Value) : (a.compare b).swap = b.compare a := by
  simp only [compare, ← compareNumbers?_swap a b, ← compareTexts?_swap a b]
  cases compareNumbers? a b <;> cases compareTexts? a b <;> rfl

end Value

end SearchQuery
