import SearchQuery.Error
import SearchQuery.NameMap

-- Settings of an engine: the kinds of condition, and how queries are compiled.

namespace SearchQuery

structure Settings where
  kinds : NameMap Builtin
  maxScore : Option Score
  simplify : Bool
  cache : Bool
  cacheCapacity : UInt64
deriving DecidableEq

namespace Settings

-- Queries that a cache holds unless settings say otherwise.
def defaultCapacity : Nat := 1024

def default : Settings :=
  { kinds := .empty
    maxScore := none
    simplify := true
    cache := true
    cacheCapacity := UInt64.ofNat defaultCapacity }

instance : Inhabited Settings :=
  ⟨default⟩

-- The kinds with their codecs.
def registrations (s : Settings) : List (String × Kind) :=
  s.kinds.entries.map fun (name, builtin) => (name, Kind.ofBuiltin builtin)

-- The vocabulary of the kinds. Names are looked at in order, so the lowest one that is
-- wrong is the error.
def vocabulary (s : Settings) : Except QueryError Vocabulary :=
  Vocabulary.ofKinds s.registrations

end Settings

end SearchQuery
