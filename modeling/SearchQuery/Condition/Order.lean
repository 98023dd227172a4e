import SearchQuery.Condition.Basic
import SearchQuery.Vocabulary

-- The order of conditions, which tells which conditions ask for the same. It does not
-- look at the order of operands.

namespace SearchQuery

-- Takes out the first element that passes a test.
def takeFirst {β : Type} (test : β → Bool) : List β → Option (List β)
  | [] => none
  | y :: ys => if test y then some ys else (takeFirst test ys).map fun rest => y :: rest

-- Whether each test in turn finds an element of its own, always the first that is left.
def takeEach {β : Type} : List (β → Bool) → List β → Bool
  | [], _ => true
  | test :: tests, ys =>
      match takeFirst test ys with
      | some rest => takeEach tests rest
      | none => false

-- Whether two lists of one length hold the same elements, without regard to their order.
-- Each element of the first takes the first equal element that is left of the second.
def sameElements {α β : Type} (eq : α → β → Bool) (xs : List α) (ys : List β) : Bool :=
  xs.length == ys.length && takeEach (xs.map eq) ys

-- The elements that a test is asked of, up to the first that passes.
def askedFirst {β : Type} (test : β → Bool) : List β → List β
  | [] => []
  | y :: ys => if test y then [y] else y :: askedFirst test ys

-- The pairs that are compared when two lists are tested for the same elements, in order.
def comparisons {α β : Type} (eq : α → β → Bool) (xs : List α) (ys : List β) : List (α × β) :=
  if xs.length == ys.length then go xs ys else []
where
  go : List α → List β → List (α × β)
    | [], _ => []
    | x :: xs, ys =>
        (askedFirst (eq x) ys).map (fun y => (x, y)) ++
          match takeFirst (eq x) ys with
          | some rest => go xs rest
          | none => []

namespace Condition

-- The order of two lists of operands, the first given by what its elements compare as:
-- level if they hold the same elements; otherwise the shorter list first, and of two
-- equally long ones the one with the lower first operand.
def compareOperands (orders : List (Condition → Ordering)) (bs : List Condition) : Ordering :=
  if orders.length == bs.length && takeEach (orders.map fun order b => order b == .eq) bs then .eq
  else if orders.length = bs.length then
    match orders, bs with
    | order :: _, b :: _ => order b
    | _, _ => .eq
  else Ord.compare orders.length bs.length

mutual

-- Leaves come before all other conditions; either sort is ordered by name, and conditions
-- of one name by what they hold.
def compare (v : Vocabulary) : Condition → Condition → Ordering
  | leaf k a, leaf l b => if k = l then v.compareValues k a b else Ord.compare k l
  | leaf _ _, _ => .lt
  | _, leaf _ _ => .gt
  | not a, not b => compare v a b
  | and as, and bs => compareOperands (orders v as) bs
  | or as, or bs => compareOperands (orders v as) bs
  | a, b => Ord.compare a.name b.name

-- What each of some conditions compares as.
def orders (v : Vocabulary) : List Condition → List (Condition → Ordering)
  | [] => []
  | a :: as => compare v a :: orders v as

end

-- Whether two conditions ask for the same.
def equal (v : Vocabulary) (a b : Condition) : Bool :=
  compare v a b == .eq

theorem orders_eq_map (v : Vocabulary) (as : List Condition) :
    orders v as = as.map (compare v) := by
  induction as with
  | nil => rfl
  | cons a as ih => simp [orders, ih]

-- Lists of operands are level when they hold the same elements.
theorem compareOperands_orders (v : Vocabulary) (as bs : List Condition) :
    compareOperands (orders v as) bs =
      if sameElements (equal v) as bs then .eq
      else if as.length = bs.length then
        match as, bs with
        | a :: _, b :: _ => compare v a b
        | _, _ => .eq
      else Ord.compare as.length bs.length := by
  have htests : (as.map (compare v)).map (fun order b => order b == .eq) = as.map (equal v) := by
    rw [List.map_map]
    rfl
  simp only [compareOperands, sameElements, orders_eq_map, List.length_map, htests]
  cases as <;> cases bs <;> rfl

end Condition

end SearchQuery
