import SearchQuery.Condition.Basic
import SearchQuery.Json.Reader
import SearchQuery.Json.Writer
import SearchQuery.Value.Json

-- Conditions as JSON documents. Each has a member `type` and the members that belong to
-- it. Writing gives them in a fixed order; reading takes them in any order, skips members
-- that it does not know, and also takes an array of the type and its parts.

namespace SearchQuery

namespace Condition

-- The forms of conditions, in the order that numbers them.
inductive Form
  | not
  | and
  | or
  | leaf
deriving DecidableEq, Repr

namespace Form

def all : List Form :=
  [not, and, or, leaf]

def name : Form → String
  | not => "not"
  | and => "and"
  | or => "or"
  | leaf => "leaf"

-- A form is named; inside another condition it may also be numbered.
def ofDocument (nested : Bool) : Document → Option Form
  | .string name => all.find? fun form => form.name == name
  | .integer n => if nested && 0 ≤ n then all[n.toNat]? else none
  | _ => none

end Form

mutual

def toDocument : Condition → Document
  | not operand => .record [("type", .string "not"), ("operand", toDocument operand)]
  | and operands => .record [("type", .string "and"), ("operands", .array (toDocuments operands))]
  | or operands => .record [("type", .string "or"), ("operands", .array (toDocuments operands))]
  | leaf kind value =>
      .record [("type", .string "leaf"), ("kind", .string kind), ("value", value.toDocument)]

def toDocuments : List Condition → List Document
  | [] => []
  | c :: cs => toDocument c :: toDocuments cs

end

mutual

-- The condition of a document, if it is one; `nested` for an operand of another.
def ofDocumentAt (nested : Bool) (d : Document) : Option Condition :=
  match d with
  | .object members true =>
      match (memberOf "type" members).bind (Form.ofDocument nested) with
      | some .not =>
          match _h : memberOf "operand" members with
          | some operand => (ofDocumentAt true operand).map not
          | none => none
      | some .and =>
          match _h : memberOf "operands" members with
          | some operands => (operandsOf operands).map and
          | none => none
      | some .or =>
          match _h : memberOf "operands" members with
          | some operands => (operandsOf operands).map or
          | none => none
      | some .leaf =>
          match memberOf "kind" members, memberOf "value" members with
          | some kind, some value =>
              match kind.text?, Value.ofDocument value with
              | some kind, some value => some (leaf kind value)
              | _, _ => none
          | _, _ => none
      | none => none
  | .array (form :: parts) =>
      match Form.ofDocument nested form, parts with
      | some .not, [operand] => (ofDocumentAt true operand).map not
      | some .and, [operands] => (operandsOf operands).map and
      | some .or, [operands] => (operandsOf operands).map or
      | some .leaf, [kind, value] =>
          match kind.text?, Value.ofDocument value with
          | some kind, some value => some (leaf kind value)
          | _, _ => none
      | _, _ => none
  | _ => none
termination_by 2 * sizeOf d
decreasing_by
  all_goals simp_wf
  all_goals try have hmember := sizeOf_memberOf ‹memberOf _ _ = some _›
  all_goals omega

def operandsOf (d : Document) : Option (List Condition) :=
  match d with
  | .array items => conditionsOf items
  | _ => none
termination_by 2 * sizeOf d
decreasing_by simp_wf

def conditionsOf (items : List Document) : Option (List Condition) :=
  match items with
  | [] => some []
  | item :: items =>
      match ofDocumentAt true item, conditionsOf items with
      | some c, some cs => some (c :: cs)
      | _, _ => none
termination_by 2 * sizeOf items
decreasing_by
  all_goals simp_wf
  all_goals omega

end

def ofDocument (d : Document) : Option Condition :=
  ofDocumentAt false d

def jsonText (c : Condition) : String :=
  Json.write c.toDocument

-- The condition that a text writes, if the text is one document and nothing else.
def ofJsonText (text : String) : Option Condition :=
  let reading := Json.read text
  if reading.whole then ofDocument reading.document else none

end Condition

end SearchQuery
