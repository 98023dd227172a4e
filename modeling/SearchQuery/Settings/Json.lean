import SearchQuery.Settings.Basic
import SearchQuery.Json.Reader
import SearchQuery.Json.Writer

-- Settings as JSON documents: an object with any of the fields, in any order, or an array
-- of the first fields in theirs. A field that is missing keeps its default. Documents are
-- read from left to right, and the first thing that is wrong is the error.

namespace SearchQuery.Settings

inductive Field
  | kinds
  | maxScore
  | simplify
  | cache
  | cacheCapacity
deriving DecidableEq, Repr

namespace Field

-- The fields in the order of the array form.
def all : List Field :=
  [kinds, maxScore, simplify, cache, cacheCapacity]

def name : Field → String
  | kinds => "kinds"
  | maxScore => "max_complexity"
  | simplify => "optimise"
  | cache => "cache"
  | cacheCapacity => "cache_capacity"

def ofName? (name : String) : Option Field :=
  all.find? fun field => field.name == name

theorem ofName?_name (field : Field) : ofName? field.name = some field := by
  cases field <;> rfl

theorem names_all : all.map name = SettingsProblem.fieldNames :=
  rfl

end Field

-- The error of a document that is not of the expected type. One that is broken is not
-- of any.
def mismatch (expected : Expected) : Document → SettingsProblem
  | .null => .invalidType .null expected
  | .boolean b => .invalidType (.boolean b) expected
  | .integer n => .invalidType (.integer n) expected
  | .float x => .invalidType (.float (Document.floatText x)) expected
  | .string text => .invalidType (.string text) expected
  | .array _ => .invalidType .sequence expected
  | .object _ _ => .invalidType .map expected
  | .broken => .malformed

def readBoolean : Document → Except SettingsProblem Bool
  | .boolean b => .ok b
  | d => .error (mismatch .boolean d)

-- A natural number below a limit.
def readBelow (limit : Nat) (expected : Expected) : Document → Except SettingsProblem Nat
  | .integer n =>
      if 0 ≤ n && n < limit then .ok n.toNat
      else .error (.invalidValue (.integer n) expected)
  | d => .error (mismatch expected d)

def readMaxScore : Document → Except SettingsProblem (Option Score)
  | .null => .ok none
  | d => (readBelow 0x100000000 .word32 d).map fun n => some (UInt32.ofNat n)

def readCapacity (d : Document) : Except SettingsProblem UInt64 :=
  (readBelow 0x10000000000000000 .word64 d).map UInt64.ofNat

def codecOf (name : String) : Except SettingsProblem Builtin :=
  match Builtin.ofName? name with
  | some builtin => .ok builtin
  | none => .error (.unknownCodec name)

-- A codec is named, on its own or as the only member of an object, which is null.
def readCodec : Document → Except SettingsProblem Builtin
  | .string name => codecOf name
  | .object ((name, contents) :: more) closed =>
      (codecOf name).bind fun builtin =>
        match contents with
        | .null => if more.isEmpty && closed then .ok builtin else .error .malformed
        | d => .error (mismatch .unit d)
  | _ => .error .malformed

def addKinds (kinds : NameMap Builtin) :
    List (String × Document) → Except SettingsProblem (NameMap Builtin)
  | [] => .ok kinds
  | (name, d) :: more => (readCodec d).bind fun builtin => addKinds (kinds.insert name builtin) more

-- The last codec of a kind counts.
def readKinds : Document → Except SettingsProblem (NameMap Builtin)
  | .object members closed =>
      (addKinds .empty members).bind fun kinds => if closed then .ok kinds else .error .malformed
  | d => .error (mismatch .map d)

-- Settings with one field read from a document.
def setField (s : Settings) (field : Field) (d : Document) : Except SettingsProblem Settings :=
  match field with
  | .kinds => (readKinds d).map fun kinds => { s with kinds := kinds }
  | .maxScore => (readMaxScore d).map fun limit => { s with maxScore := limit }
  | .simplify => (readBoolean d).map fun b => { s with simplify := b }
  | .cache => (readBoolean d).map fun b => { s with cache := b }
  | .cacheCapacity => (readCapacity d).map fun n => { s with cacheCapacity := n }

-- Fields by name; `seen` are those that were there before.
def setMembers (seen : List Field) (s : Settings) :
    List (String × Document) → Except SettingsProblem Settings
  | [] => .ok s
  | (name, d) :: more =>
      match Field.ofName? name with
      | none => .error (.unknownField name)
      | some field =>
          if seen.contains field then .error (.duplicateField name)
          else (setField s field d).bind fun s => setMembers (field :: seen) s more

-- Fields by position. There may be fewer documents than fields, but not more.
def setItems (s : Settings) : List Field → List Document → Except SettingsProblem Settings
  | _, [] => .ok s
  | [], _ :: _ => .error .malformed
  | field :: fields, d :: more => (setField s field d).bind fun s => setItems s fields more

def ofDocument : Document → Except SettingsProblem Settings
  | .object members closed =>
      (setMembers [] default members).bind fun s => if closed then .ok s else .error .malformed
  | .array items => setItems default Field.all items
  | d => .error (mismatch .settings d)

-- The settings that a text writes.
def read (text : String) : Except QueryError Settings :=
  let reading := Json.read text
  match ofDocument reading.document with
  | .error problem => .error (.settings problem)
  | .ok s => if reading.whole then .ok s else .error (.settings .malformed)

def fieldDocument (s : Settings) : Field → Document
  | .kinds =>
      .record (s.kinds.entries.map fun (name, builtin) => (name, .string builtin.name))
  | .maxScore =>
      match s.maxScore with
      | none => .null
      | some limit => .integer (UInt32.toNat limit)
  | .simplify => .boolean s.simplify
  | .cache => .boolean s.cache
  | .cacheCapacity => .integer s.cacheCapacity.toNat

-- All fields, in order.
def toDocument (s : Settings) : Document :=
  .record (Field.all.map fun field => (field.name, s.fieldDocument field))

def text (s : Settings) : String :=
  Json.write s.toDocument

end SearchQuery.Settings
