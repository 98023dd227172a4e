import SearchQuery.Calendar.Rfc3339
import SearchQuery.Numeral.Shortest
import SearchQuery.Text.Quoted
import SearchQuery.Value.Basic

-- Values as messages show them: the name of their sort, and what they hold.

namespace SearchQuery

open SearchQuery.Numeral SearchQuery.Calendar

def Operator.shown : Operator → String
  | equal => "EqualTo"
  | notEqual => "NotEqualTo"
  | less => "LessThan"
  | atMost => "LessThanOrEqualTo"
  | atLeast => "GreaterThanOrEqualTo"
  | greater => "GreaterThan"

namespace Value

-- Digits alone from a ten-thousandth up to ten to the sixteenth, and an exponent outside.
def shownStyle : Shortest.Style :=
  ⟨-4, 15, false⟩

def showFloat (x : Binary64) : String :=
  if x.isNaN then "NaN"
  else if x.isFinite then String.ofList (Shortest.text shownStyle x)
  else if x.isNegative then "-inf" else "inf"

def showFlag : Option Bool → String
  | none => "None"
  | some true => "Some(true)"
  | some false => "Some(false)"

def showHolding (sort contents : String) : String :=
  s!"{sort}({contents})"

-- Fields with their names, in the order of the record.
def showRecord (sort : String) (fields : List (String × String)) : String :=
  let contents := ", ".intercalate (fields.map fun (name, shown) => s!"{name}: {shown}")
  s!"{sort} \x7b {contents} \x7d"

def shown : Value → String
  | unit => "Unit"
  | text s => showHolding "Text" (Text.quote s)
  | integer n => showHolding "Integer" (String.ofList (integerText n.toInt))
  | float x => showHolding "Float" (showFloat x)
  | timestamp t => showHolding "Timestamp" (Rfc3339.text t)
  | comparison op v =>
      showHolding "BinaryOp"
        (showRecord "BinaryOpValue" [("value", v.shown), ("operator", op.shown)])
  | reduced op v negated =>
      showHolding "Reduced"
        (showRecord "ReducedBinaryOpValue"
          [("value", v.shown), ("operator", op.widen.shown), ("not", showFlag negated)])

example : (reduced .less (float (Binary64.ofDecimal true 5 (-1))) none).shown =
    "Reduced(ReducedBinaryOpValue \x7b value: Float(-0.5), operator: LessThan, not: None \x7d)" := by
  decide +kernel

example : (comparison .atLeast (float (Binary64.ofDecimal false 1 16))).shown =
    "BinaryOp(BinaryOpValue \x7b value: Float(1e16), operator: GreaterThanOrEqualTo \x7d)" := by
  decide +kernel

end Value

end SearchQuery
