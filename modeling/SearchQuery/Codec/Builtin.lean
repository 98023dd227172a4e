import SearchQuery.Codec.Compared

-- The codecs that have names, so that settings can assign them to kinds.

namespace SearchQuery

inductive Builtin
  | flag
  | string
  | int
  | float
  | intOp
  | intOpReduced
  | floatOp
  | floatOpReduced
  | unixTimestamp
  | utcDate
  | unixTimestampOp
  | unixTimestampOpReduced
  | utcDateOp
  | utcDateOpReduced
deriving DecidableEq, Repr

namespace Builtin

def all : List Builtin :=
  [flag, string, int, float, intOp, intOpReduced, floatOp, floatOpReduced, unixTimestamp,
    utcDate, unixTimestampOp, unixTimestampOpReduced, utcDateOp, utcDateOpReduced]

def name : Builtin → String
  | flag => "flag"
  | string => "string"
  | int => "int"
  | float => "float"
  | intOp => "int_op"
  | intOpReduced => "int_op_reduced"
  | floatOp => "float_op"
  | floatOpReduced => "float_op_reduced"
  | unixTimestamp => "unix_timestamp"
  | utcDate => "utc_date"
  | unixTimestampOp => "unix_timestamp_op"
  | unixTimestampOpReduced => "unix_timestamp_op_reduced"
  | utcDateOp => "utc_date_op"
  | utcDateOpReduced => "utc_date_op_reduced"

def ofName? (name : String) : Option Builtin :=
  all.find? fun b => b.name == name

-- A flag has no values and so no codec.
def codec? : Builtin → Option Codec
  | flag => none
  | string => some Codec.string
  | int => some Codec.int
  | float => some Codec.float
  | intOp => some Codec.int.withOperator
  | intOpReduced => some (Codec.int.withReducedOperator (some Codec.stepInt))
  | floatOp => some Codec.float.withOperator
  | floatOpReduced => some (Codec.float.withReducedOperator none)
  | unixTimestamp => some Codec.unixTimestamp
  | utcDate => some Codec.utcDate
  | unixTimestampOp => some Codec.unixTimestamp.withOperator
  | unixTimestampOpReduced => some (Codec.unixTimestamp.withReducedOperator none)
  | utcDateOp => some Codec.utcDate.withOperator
  | utcDateOpReduced => some (Codec.utcDate.withReducedOperator none)

theorem ofName?_name (b : Builtin) : ofName? b.name = some b := by
  cases b <;> rfl

end Builtin

end SearchQuery
