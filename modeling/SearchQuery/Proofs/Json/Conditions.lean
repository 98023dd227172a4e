import SearchQuery.Condition.Json
import SearchQuery.Proofs.Json.Values
import SearchQuery.Proofs.Tree

-- The document of a condition is read as the same condition, as long as its numbers are finite.

namespace SearchQuery.Condition

-- Whether every floating-point number in a condition is finite.
def isFinite (c : Condition) : Bool :=
  c.leaves.all fun l => l.2.isFinite

@[simp] theorem isFinite_not (c : Condition) : (not c).isFinite = c.isFinite := rfl

theorem all_leavesAll (cs : List Condition) :
    (leavesAll cs).all (fun l => l.2.isFinite) = cs.all isFinite := by
  rw [leavesAll_eq_flatMap, List.all_flatMap]
  rfl

@[simp] theorem isFinite_and (cs : List Condition) : (and cs).isFinite = cs.all isFinite :=
  all_leavesAll cs

@[simp] theorem isFinite_or (cs : List Condition) : (or cs).isFinite = cs.all isFinite :=
  all_leavesAll cs

@[simp] theorem isFinite_leaf (kind : String) (v : Value) :
    (leaf kind v).isFinite = v.isFinite := by
  rw [isFinite, leaves, List.all_cons, List.all_nil, Bool.and_true]

theorem ofDocument_name (nested : Bool) (form : Form) :
    Form.ofDocument nested (.string form.name) = some form := by
  cases form <;> rfl

-- The condition of a form, from the members that belong to it.
def ofMembers (members : List (String × Document)) : Form → Option Condition
  | .not => ((memberOf "operand" members).bind (ofDocumentAt true)).map not
  | .and => ((memberOf "operands" members).bind operandsOf).map and
  | .or => ((memberOf "operands" members).bind operandsOf).map or
  | .leaf => do
      let kind ← (memberOf "kind" members).bind Document.text?
      let value ← (memberOf "value" members).bind Value.ofDocument
      return leaf kind value

theorem ofDocumentAt_record (nested : Bool) (members : List (String × Document)) :
    ofDocumentAt nested (.record members) =
      ((memberOf "type" members).bind (Form.ofDocument nested)).bind (ofMembers members) := by
  rw [ofDocumentAt.eq_def]
  simp only [Document.record]
  cases (memberOf "type" members).bind (Form.ofDocument nested) with
  | none => rfl
  | some form =>
    cases form with
    | not | and | or =>
      simp only [Option.bind_some, ofMembers]
      split
      · next h => rw [h, Option.bind_some]
      · next h => rw [h, Option.bind_none, Option.map_none]
    | leaf =>
      simp only [Option.bind_some, ofMembers]
      cases memberOf "kind" members with
      | none => rfl
      | some kind =>
        cases memberOf "value" members with
        | none =>
          simp only [Option.bind_some, Option.bind_none]
          cases kind.text? <;> rfl
        | some value =>
          simp only [Option.bind_some]
          cases kind.text? <;> cases Value.ofDocument value <;> rfl

theorem toDocuments_eq_map (cs : List Condition) : toDocuments cs = cs.map toDocument := by
  induction cs with
  | nil => rfl
  | cons c cs ih => rw [toDocuments, ih, List.map_cons]

theorem conditionsOf_toDocuments {cs : List Condition}
    (h : ∀ c ∈ cs, ofDocumentAt true c.toDocument = if c.isFinite then some c else none) :
    conditionsOf (toDocuments cs) = if cs.all isFinite then some cs else none := by
  induction cs with
  | nil => rw [toDocuments, conditionsOf]; rfl
  | cons c cs ih =>
    obtain ⟨hc, hcs⟩ := List.forall_mem_cons.mp h
    rw [toDocuments, conditionsOf, hc, ih hcs, List.all_cons]
    cases c.isFinite <;> cases cs.all isFinite <;> rfl

theorem operandsOf_toDocuments {cs : List Condition}
    (h : ∀ c ∈ cs, ofDocumentAt true c.toDocument = if c.isFinite then some c else none) :
    operandsOf (.array (toDocuments cs)) = if cs.all isFinite then some cs else none := by
  rw [operandsOf, conditionsOf_toDocuments h]

-- By induction on the condition: an operand is read as it was before it was put in its place.
theorem ofDocumentAt_toDocument (nested : Bool) (c : Condition) :
    ofDocumentAt nested c.toDocument = if c.isFinite then some c else none := by
  induction c generalizing nested with
  | not c ih =>
    have hform := ofDocument_name nested .not
    have hoperand := ih true
    rw [Form.name] at hform
    cases hc : c.isFinite <;>
      simp [toDocument, ofDocumentAt_record, memberOf, hform, ofMembers, hoperand, hc]
  | and cs ih =>
    have hform := ofDocument_name nested .and
    have hoperands := operandsOf_toDocuments fun c hc => ih c hc true
    rw [Form.name] at hform
    cases hcs : cs.all isFinite <;>
      simp [toDocument, ofDocumentAt_record, memberOf, hform, ofMembers, hoperands, hcs]
  | or cs ih =>
    have hform := ofDocument_name nested .or
    have hoperands := operandsOf_toDocuments fun c hc => ih c hc true
    rw [Form.name] at hform
    cases hcs : cs.all isFinite <;>
      simp [toDocument, ofDocumentAt_record, memberOf, hform, ofMembers, hoperands, hcs]
  | leaf kind v =>
    have hform := ofDocument_name nested .leaf
    have hvalue := Value.ofDocument_toDocument v
    rw [Form.name] at hform
    cases hv : v.isFinite <;>
      simp [toDocument, ofDocumentAt_record, memberOf, hform, ofMembers, hvalue, Document.text?, hv]

end SearchQuery.Condition
