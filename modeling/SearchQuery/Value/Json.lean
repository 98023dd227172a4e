import SearchQuery.Calendar.Rfc3339
import SearchQuery.Json.Member
import SearchQuery.Value.Basic

-- Values as JSON documents.

namespace SearchQuery

open SearchQuery.Calendar

namespace Value

def negatedMember : Option Bool → List (String × Document)
  | none => []
  | some b => [("not", .boolean b)]

-- A value is named by its sort. Numbers that are not finite have no document but null.
def toDocument : Value → Document
  | unit => .string "unit"
  | text s => .record [("text", .string s)]
  | integer n => .record [("integer", .integer n.toInt)]
  | float x => .record [("float", if x.isFinite then .float x else .null)]
  | timestamp t => .record [("timestamp", .string (Rfc3339.text t))]
  | comparison op v =>
      .record [("binary_op",
        .record [("value", v.toDocument), ("operator", .string op.symbol)])]
  | reduced op v negated =>
      .record [("reduced",
        .record ([("value", v.toDocument), ("operator", .string op.symbol)] ++
          negatedMember negated))]

def operator? (d : Document) : Option Operator :=
  d.choice?.bind Operator.ofSymbol?

def strictOperator? (d : Document) : Option StrictOperator :=
  d.choice?.bind StrictOperator.ofSymbol?

-- A flag given in its place in an array.
def flagItem? : Document → Option (Option Bool)
  | .null => some none
  | d => d.boolean?.map some

-- The value of a document, if it is one.
def ofDocument (d : Document) : Option Value :=
  match d with
  | .string name => if name = "unit" then some unit else none
  | .object [(name, contents)] true =>
      if name = "unit" then if contents.isUnit then some unit else none
      else if name = "text" then contents.text?.map text
      else if name = "integer" then contents.int64?.map integer
      else if name = "float" then contents.float?.map float
      else if name = "timestamp" then (contents.text?.bind Rfc3339.read).map timestamp
      else if name = "binary_op" then
        match contents with
        | .object members true =>
            match _h : memberOf "value" members, memberOf "operator" members with
            | some value, some op =>
                match operator? op, ofDocument value with
                | some op, some v => some (comparison op v)
                | _, _ => none
            | _, _ => none
        | .array [value, op] =>
            match operator? op, ofDocument value with
            | some op, some v => some (comparison op v)
            | _, _ => none
        | _ => none
      else if name = "reduced" then
        match contents with
        | .object members true =>
            match _h : memberOf "value" members, memberOf "operator" members,
              optionalMember Document.boolean? "not" members with
            | some value, some op, some negated =>
                match strictOperator? op, ofDocument value with
                | some op, some v => some (reduced op v negated)
                | _, _ => none
            | _, _, _ => none
        | .array [value, op] =>
            match strictOperator? op, ofDocument value with
            | some op, some v => some (reduced op v none)
            | _, _ => none
        | .array [value, op, negated] =>
            match strictOperator? op, ofDocument value, flagItem? negated with
            | some op, some v, some negated => some (reduced op v negated)
            | _, _, _ => none
        | _ => none
      else none
  | _ => none
termination_by sizeOf d
decreasing_by
  all_goals simp_wf
  all_goals try have hmember := sizeOf_memberOf ‹memberOf _ _ = some _›
  all_goals omega

end Value

end SearchQuery
