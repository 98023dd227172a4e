import SearchQuery.Value.Basic

-- Conditions: what a query asks for, as a tree.

namespace SearchQuery

inductive Condition
  | not (operand : Condition)
  | and (operands : List Condition)
  | or (operands : List Condition)
  | leaf (kind : String) (value : Value)
deriving Inhabited

namespace Condition

-- A condition of a kind without values.
def flag (kind : String) : Condition :=
  leaf kind .unit

-- The kind of a leaf, and the reserved name of any other condition.
def name : Condition → String
  | not _ => "not"
  | and _ => "and"
  | or _ => "or"
  | leaf kind _ => kind

def isLeaf : Condition → Bool
  | leaf _ _ => true
  | _ => false

mutual

-- Equality in which floating-point numbers are equal when they are numerically equal.
def same : Condition → Condition → Bool
  | not a, not b => same a b
  | and as, and bs => allSame as bs
  | or as, or bs => allSame as bs
  | leaf k v, leaf l w => k == l && v.same w
  | _, _ => false

def allSame : List Condition → List Condition → Bool
  | [], [] => true
  | a :: as, b :: bs => same a b && allSame as bs
  | _, _ => false

end

end Condition

end SearchQuery
