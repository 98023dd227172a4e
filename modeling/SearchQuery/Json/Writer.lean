import SearchQuery.Json.Document

-- The text of a document, without spaces.

namespace SearchQuery.Json

open SearchQuery.Numeral

-- Quotes, backslashes and controls are escaped, and nothing else.
def escapeChar (c : Char) : List Char :=
  if c = '"' then ['\\', '"']
  else if c = '\\' then ['\\', '\\']
  else if c = '\n' then ['\\', 'n']
  else if c = '\r' then ['\\', 'r']
  else if c = '\t' then ['\\', 't']
  else if c.toNat = 8 then ['\\', 'b']
  else if c.toNat = 12 then ['\\', 'f']
  else if c.toNat < 0x20 then
    ['\\', 'u', '0', '0', Nat.digitChar (c.toNat / 16), Nat.digitChar (c.toNat % 16)]
  else [c]

def stringText (text : String) : String :=
  String.ofList ('"' :: (text.toList.flatMap escapeChar ++ ['"']))

mutual

-- The text of a document in which nothing is broken. A floating-point number that is not
-- finite has no number to write and is null.
def write : Document → String
  | .null => "null"
  | .boolean true => "true"
  | .boolean false => "false"
  | .integer n => String.ofList (integerText n)
  | .float x => if x.isFinite then Document.floatText x else "null"
  | .string text => stringText text
  | .array items => "[" ++ ",".intercalate (writeItems items) ++ "]"
  | .object members _ => "\x7b" ++ ",".intercalate (writeMembers members) ++ "\x7d"
  | .broken => ""

def writeItems : List Document → List String
  | [] => []
  | item :: items => write item :: writeItems items

def writeMembers : List (String × Document) → List String
  | [] => []
  | (name, value) :: members => (stringText name ++ ":" ++ write value) :: writeMembers members

end

end SearchQuery.Json
