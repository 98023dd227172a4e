import SearchQuery.Token.Scan
import SearchQuery.Vocabulary
import SearchQuery.Settings.Problem

-- Why a query, a vocabulary or settings are refused.

namespace SearchQuery

inductive QueryError
  | grouping (fault : GroupingFault) (excerpt : String)
  | missingKind (word : String)
  | reservedKind (word kind : String)
  | unknownKind (word kind : String)
  | missingValue (word kind : String)
  | invalidValue (word : String) (cause : ValueError)
  | kindName (fault : NameFault) (name : String)
  | settings (problem : SettingsProblem)
  | tooComplex (score limit : Score)
deriving DecidableEq, Repr

namespace QueryError

def message : QueryError → String
  | grouping .unclosed excerpt => s!"Group begun but not ended: '{excerpt}'"
  | grouping .unopened excerpt => s!"Group ended but not begun: '{excerpt}'"
  | grouping .orWithoutLeft excerpt =>
      s!"'{excerpt}': Was expecting a condition but got OR operator"
  | grouping .orWithoutRight excerpt =>
      s!"'{excerpt}': Was expecting a condition but got emptiness"
  | missingKind word => s!"'{word}': Condition does not have a type"
  | reservedKind word kind => s!"'{word}': Reserved type '{kind}' used"
  | unknownKind word kind => s!"'{word}': Unrecognised condition type '{kind}'"
  | missingValue word kind =>
      s!"'{word}': Condition type '{kind}' requires a value but one was not specified"
  | invalidValue word cause =>
      let reason := cause.message
      s!"'{word}': Could not parse value: {reason}"
  | kindName .malformed name => s!"Invalid kind name: '{name}'"
  | kindName .reserved name => s!"Reserved kind name: '{name}'"
  | kindName .duplicate name => s!"Duplicate kind name: '{name}'"
  | settings problem =>
      let reason := problem.describe
      s!"Configuration error: {reason}"
  | tooComplex score limit =>
      let score := String.ofList (Numeral.digits (UInt32.toNat score))
      let limit := String.ofList (Numeral.digits (UInt32.toNat limit))
      s!"Query complexity {score} exceeds the limit of {limit}"

end QueryError

-- The tokens of a query, or why its words do not form groups and choices.
def Token.read (query : String) : Except QueryError (Option (List Token)) :=
  (Token.scan query).mapError fun e =>
    .grouping e.fault (Token.excerpt (Text.words query) e)

-- The vocabulary of a list of kinds.
def Vocabulary.ofKinds (kinds : List (String × Kind)) : Except QueryError Vocabulary :=
  (Vocabulary.build kinds).mapError fun (fault, name) => .kindName fault name

end SearchQuery
