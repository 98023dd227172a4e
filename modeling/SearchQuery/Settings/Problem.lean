import SearchQuery.Text.Quoted
import SearchQuery.Codec.Builtin

-- What can be wrong with the document that settings are read from.

namespace SearchQuery

-- What stands in a document, as far as a message shows it.
inductive Found
  | null
  | boolean (b : Bool)
  | integer (n : Int)
  | float (text : String)
  | string (text : String)
  | sequence
  | map
deriving DecidableEq, Repr

-- What should stand there.
inductive Expected
  | settings
  | map
  | word32
  | word64
  | boolean
  | unit
deriving DecidableEq, Repr

-- A document that is not well-formed has no further description.
inductive SettingsProblem
  | malformed
  | unknownField (name : String)
  | duplicateField (name : String)
  | unknownCodec (name : String)
  | invalidType (found : Found) (expected : Expected)
  | invalidValue (found : Found) (expected : Expected)
deriving DecidableEq, Repr

def Found.describe : Found → String
  | null => "null"
  | boolean true => "boolean `true`"
  | boolean false => "boolean `false`"
  | integer n =>
      let written := String.ofList (Numeral.integerText n)
      s!"integer `{written}`"
  | float text => s!"floating point `{text}`"
  | string text =>
      let quoted := Text.quote text
      s!"string {quoted}"
  | sequence => "sequence"
  | map => "map"

def Expected.describe : Expected → String
  | settings => "struct EngineConfig"
  | map => "a map"
  | word32 => "u32"
  | word64 => "usize"
  | boolean => "a boolean"
  | unit => "unit"

namespace SettingsProblem

-- The fields of settings, in the order of their array form.
def fieldNames : List String :=
  ["kinds", "max_complexity", "optimise", "cache", "cache_capacity"]

def choices (names : List String) : String :=
  ", ".intercalate (names.map fun name => s!"`{name}`")

def describe : SettingsProblem → String
  | malformed => "malformed document"
  | unknownField name =>
      let known := choices fieldNames
      s!"unknown field `{name}`, expected one of {known}"
  | duplicateField name => s!"duplicate field `{name}`"
  | unknownCodec name =>
      let known := choices (Builtin.all.map Builtin.name)
      s!"unknown variant `{name}`, expected one of {known}"
  | invalidType found expected =>
      let found := found.describe
      let expected := expected.describe
      s!"invalid type: {found}, expected {expected}"
  | invalidValue found expected =>
      let found := found.describe
      let expected := expected.describe
      s!"invalid value: {found}, expected {expected}"

end SettingsProblem

end SearchQuery
