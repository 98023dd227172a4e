import SearchQuery.Condition.Order

-- Conditions in their simplest form: no negation of a negation, no operand twice, and
-- nothing that combines fewer than two operands.

namespace SearchQuery.Condition

-- The negation of a condition; two negations cancel.
def negate : Condition → Condition
  | not operand => operand
  | c => not c

-- Adds an operand unless it asks for the same as one that is there.
def addDistinct (v : Vocabulary) (kept : List Condition) (c : Condition) : List Condition :=
  if kept.any fun earlier => equal v c earlier then kept else kept ++ [c]

-- The operands without those that repeat earlier ones.
def distinct (v : Vocabulary) (cs : List Condition) : List Condition :=
  cs.foldl (addDistinct v) []

-- No operands say nothing, and one says what it says alone.
def combine (node : List Condition → Condition) : List Condition → Option Condition
  | [] => none
  | [c] => some c
  | cs => some (node cs)

mutual

-- The simplest form of a condition; there is none if nothing is left to ask for.
def simplify (v : Vocabulary) : Condition → Option Condition
  | not operand => (simplify v operand).map negate
  | and operands => combine and (distinct v (simplifyAll v operands))
  | or operands => combine or (distinct v (simplifyAll v operands))
  | leaf kind value => some (leaf kind value)

def simplifyAll (v : Vocabulary) : List Condition → List Condition
  | [] => []
  | c :: cs => (simplify v c).toList ++ simplifyAll v cs

end

theorem simplifyAll_eq_filterMap (v : Vocabulary) (cs : List Condition) :
    simplifyAll v cs = cs.filterMap (simplify v) := by
  induction cs with
  | nil => rfl
  | cons c cs ih => cases h : simplify v c <;> simp [simplifyAll, ih, h]

end SearchQuery.Condition
