import SearchQuery.Value.Json
import SearchQuery.Proofs.Calendar.Rfc3339

-- The document of a value is read as the same value, as long as its numbers are finite.

namespace SearchQuery.Value

open SearchQuery.Numeral SearchQuery.Calendar

section Sorts

variable (contents : Document) {members : List (String × Document)} {value operator : Document}

-- Each sort of value is read from the only member of its record.
theorem ofDocument_text : ofDocument (.record [("text", contents)]) = contents.text?.map text := by
  unfold ofDocument Document.record
  simp

theorem ofDocument_integer :
    ofDocument (.record [("integer", contents)]) = contents.int64?.map integer := by
  unfold ofDocument Document.record
  simp

theorem ofDocument_float :
    ofDocument (.record [("float", contents)]) = contents.float?.map float := by
  unfold ofDocument Document.record
  simp

theorem ofDocument_timestamp :
    ofDocument (.record [("timestamp", contents)]) =
      (contents.text?.bind Rfc3339.read).map timestamp := by
  unfold ofDocument Document.record
  simp

theorem ofDocument_comparison {op : Operator} (hvalue : memberOf "value" members = some value)
    (hoperator : memberOf "operator" members = some operator) (hop : operator? operator = some op) :
    ofDocument (.record [("binary_op", .record members)]) =
      (ofDocument value).map (comparison op) := by
  rw [ofDocument.eq_def]
  simp only [Document.record, String.reduceEq, if_false, if_true]
  split
  · next value' operator' hvalue' hoperator' =>
    obtain rfl := Option.some.inj (hvalue.symm.trans hvalue')
    obtain rfl := Option.some.inj (hoperator.symm.trans hoperator')
    rw [hop]
    cases ofDocument value <;> rfl
  · next hnone => exact (hnone _ _ hvalue hoperator).elim

theorem ofDocument_reduced {op : StrictOperator} {negated : Option Bool}
    (hvalue : memberOf "value" members = some value)
    (hoperator : memberOf "operator" members = some operator)
    (hnegated : optionalMember Document.boolean? "not" members = some negated)
    (hop : strictOperator? operator = some op) :
    ofDocument (.record [("reduced", .record members)]) =
      (ofDocument value).map fun v => reduced op v negated := by
  rw [ofDocument.eq_def]
  simp only [Document.record, String.reduceEq, if_false, if_true]
  split
  · next value' operator' negated' hvalue' hoperator' hnegated' =>
    obtain rfl := Option.some.inj (hvalue.symm.trans hvalue')
    obtain rfl := Option.some.inj (hoperator.symm.trans hoperator')
    obtain rfl := Option.some.inj (hnegated.symm.trans hnegated')
    rw [hop]
    cases ofDocument value <;> rfl
  · next hnone => exact (hnone _ _ _ hvalue hoperator hnegated).elim

end Sorts

section Members

variable (value operator : Document) (negated : Option Bool)

-- The members that are written are found by their names.
theorem memberOf_value :
    memberOf "value" ([("value", value), ("operator", operator)] ++ negatedMember negated) =
      some value := by
  cases negated <;> simp [memberOf, negatedMember]

theorem memberOf_operator :
    memberOf "operator" ([("value", value), ("operator", operator)] ++ negatedMember negated) =
      some operator := by
  cases negated <;> simp [memberOf, negatedMember]

theorem optionalMember_not :
    optionalMember Document.boolean? "not"
      ([("value", value), ("operator", operator)] ++ negatedMember negated) = some negated := by
  cases negated <;> simp [optionalMember, negatedMember, Document.boolean?]

theorem operator?_symbol (op : Operator) : operator? (.string op.symbol) = some op :=
  Operator.ofSymbol?_symbol op

theorem strictOperator?_symbol (op : StrictOperator) :
    strictOperator? (.string op.symbol) = some op :=
  StrictOperator.ofSymbol?_symbol op

end Members

theorem int64?_integer (n : Int64) : (Document.integer n.toInt).int64? = some n := by
  have hlow := n.le_toInt
  have hhigh := n.toInt_lt
  simp only [Document.int64?, Int64.ofInt_toInt]
  rw [if_pos]
  simp only [Bool.and_eq_true, decide_eq_true_eq]
  omega

-- By induction on the value: what a comparison holds is read as the value it holds.
theorem ofDocument_toDocument (v : Value) :
    ofDocument v.toDocument = if v.isFinite then some v else none := by
  induction v with
  | unit => simp [toDocument, ofDocument, isFinite]
  | text s => rw [toDocument, ofDocument_text]; rfl
  | integer n => rw [toDocument, ofDocument_integer, int64?_integer]; rfl
  | float x =>
    rw [toDocument, ofDocument_float]
    cases hx : x.isFinite <;> simp [Document.float?, isFinite, hx]
  | timestamp t =>
    rw [toDocument, ofDocument_timestamp, Document.text?, Option.bind_some, Rfc3339.read_text]
    rfl
  | comparison op v ih =>
    have hread := ofDocument_comparison (memberOf_value v.toDocument (.string op.symbol) none)
      (memberOf_operator v.toDocument (.string op.symbol) none) (operator?_symbol op)
    simp only [negatedMember, List.append_nil] at hread
    rw [toDocument, hread, ih]
    cases hv : v.isFinite <;> simp [isFinite, hv]
  | reduced op v negated ih =>
    have hread := ofDocument_reduced (memberOf_value v.toDocument (.string op.symbol) negated)
      (memberOf_operator v.toDocument (.string op.symbol) negated)
      (optionalMember_not v.toDocument (.string op.symbol) negated) (strictOperator?_symbol op)
    rw [toDocument, hread, ih]
    cases hv : v.isFinite <;> simp [isFinite, hv]

end SearchQuery.Value
