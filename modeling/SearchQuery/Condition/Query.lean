import SearchQuery.Error
import SearchQuery.Condition.Basic

-- The condition that a query asks for.

namespace SearchQuery.Condition

open SearchQuery.Text

-- A word names its kind before the first colon and gives its value after it.
def ofKindWord (v : Vocabulary) (word : List Char) : Except QueryError Condition :=
  let (kindChars, value?) := cutAt ':' word
  let text := String.ofList word
  let kind := String.ofList kindChars
  if kindChars.all isBlankChar then .error (.missingKind text)
  else if kind = "not" then .error (.missingValue text kind)
  else if kind = "and" || kind = "or" then .error (.reservedKind text kind)
  else match v.get? kind with
    | none => .error (.unknownKind text kind)
    | some descriptor =>
        match descriptor.parse? with
        | none => .ok (flag kind)
        | some parse =>
            match value?.filter fun value => !value.all isBlankChar with
            | none => .error (.missingValue text kind)
            | some value =>
                match parse (String.ofList value) with
                | .ok parsed => .ok (leaf kind parsed)
                | .error cause => .error (.invalidValue text cause)

-- A word that begins with `not:` negates the word after it, which may not be blank.
def ofWordChars (v : Vocabulary) : List Char → Except QueryError Condition
  | 'n' :: 'o' :: 't' :: ':' :: operand =>
      if operand.all isBlankChar then
        .error (.missingValue (String.ofList ('n' :: 'o' :: 't' :: ':' :: operand)) "not")
      else (ofWordChars v operand).map not
  | word => ofKindWord v word

def ofWord (v : Vocabulary) (word : String) : Except QueryError Condition :=
  ofWordChars v word.toList

mutual

-- The condition of a token; the first word that is none decides the error.
def ofToken (v : Vocabulary) : Token → Except QueryError Condition
  | .word text => ofWord v text
  | .negated token => (ofToken v token).map not
  | .group tokens => (ofTokens v tokens).map and
  | .choice branches => (ofTokens v branches).map or

def ofTokens (v : Vocabulary) : List Token → Except QueryError (List Condition)
  | [] => .ok []
  | token :: tokens =>
      (ofToken v token).bind fun c => (ofTokens v tokens).map fun cs => c :: cs

end

-- The condition of a query. A blank query has none.
def ofQuery (v : Vocabulary) (query : String) : Except QueryError (Option Condition) :=
  (Token.read query).bind fun tokens? =>
    match tokens? with
    | none => .ok none
    | some tokens => (ofToken v (Token.gather tokens)).map some

end SearchQuery.Condition
