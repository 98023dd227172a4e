import SearchQuery.NameMap
import SearchQuery.Codec.Builtin

-- The kinds of condition that queries may name.

namespace SearchQuery

-- What conditions of one kind do. A kind without a reader is a flag, which has no value.
structure Kind where
  parse? : Option ValueReader
  order? : Option ValueOrder
  score? : Option ValueScore

namespace Kind

def flag : Kind :=
  ⟨none, none, none⟩

def ofCodec (codec : Codec) : Kind :=
  ⟨some codec.parse, codec.order?, codec.score?⟩

def ofBuiltin (builtin : Builtin) : Kind :=
  match builtin.codec? with
  | some codec => ofCodec codec
  | none => flag

def withOrder (kind : Kind) (order : ValueOrder) : Kind :=
  { kind with order? := some order }

def withScore (kind : Kind) (score : ValueScore) : Kind :=
  { kind with score? := some score }

def hasValue (kind : Kind) : Bool :=
  kind.parse?.isSome

-- The kind's own order, or else the order of all values.
def compare (kind : Kind) : ValueOrder :=
  kind.order?.getD Value.compare

-- A value counts 1 unless the kind scores it.
def score (kind : Kind) : ValueScore :=
  kind.score?.getD fun _ => 1

end Kind

-- The names of the conditions that combine others, which no kind may take.
def reservedNames : List String :=
  ["and", "or", "not"]

-- Letters, digits and the underscore of ASCII; a dot or a dash too, but not in front.
def isNameStart (c : Char) : Bool :=
  c.isAlphanum || c == '_'

def isNameChar (c : Char) : Bool :=
  isNameStart c || c == '.' || c == '-'

def isKindName (name : String) : Bool :=
  match name.toList with
  | [] => false
  | c :: cs => isNameStart c && cs.all isNameChar

-- Why a kind cannot have a name.
inductive NameFault
  | reserved
  | malformed
  | duplicate
deriving DecidableEq, Repr

structure Vocabulary where
  kinds : NameMap Kind

namespace Vocabulary

def empty : Vocabulary :=
  ⟨.empty⟩

def get? (v : Vocabulary) (name : String) : Option Kind :=
  v.kinds.get? name

def contains (v : Vocabulary) (name : String) : Bool :=
  v.kinds.contains name

-- The names of the kinds, in order.
def names (v : Vocabulary) : List String :=
  v.kinds.names

def size (v : Vocabulary) : Nat :=
  v.kinds.size

def nameFault? (v : Vocabulary) (name : String) : Option NameFault :=
  if reservedNames.contains name then some .reserved
  else if !isKindName name then some .malformed
  else if v.contains name then some .duplicate
  else none

-- A vocabulary with one kind more, or what is wrong with the name.
def register (v : Vocabulary) (name : String) (kind : Kind) :
    Except (NameFault × String) Vocabulary :=
  match v.nameFault? name with
  | some fault => .error (fault, name)
  | none => .ok ⟨v.kinds.insert name kind⟩

def registerAll (v : Vocabulary) : List (String × Kind) → Except (NameFault × String) Vocabulary
  | [] => .ok v
  | (name, kind) :: more => (v.register name kind).bind fun v => v.registerAll more

-- The vocabulary of a list of kinds. The first name that is wrong is the error.
def build (registrations : List (String × Kind)) : Except (NameFault × String) Vocabulary :=
  empty.registerAll registrations

-- The order of two values of a kind; an unknown kind has the order of all values.
def compareValues (v : Vocabulary) (name : String) (a b : Value) : Ordering :=
  match v.get? name with
  | some kind => kind.compare a b
  | none => Value.compare a b

-- The score of a value of a kind; of an unknown kind it is 1.
def scoreValue (v : Vocabulary) (name : String) (value : Value) : Score :=
  match v.get? name with
  | some kind => kind.score value
  | none => 1

end Vocabulary

end SearchQuery
