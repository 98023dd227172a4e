import SearchQuery.Cache
import SearchQuery.Condition.Query
import SearchQuery.Condition.Score
import SearchQuery.Condition.Simplify
import SearchQuery.Settings.Json

-- An engine compiles queries over its vocabulary as its settings say, and remembers what
-- they compiled to.

namespace SearchQuery

structure Engine where
  vocabulary : Vocabulary
  settings : Settings
  cache : Cache (Option Condition)

namespace Engine

-- An engine over a vocabulary; the kinds of its settings are not looked at.
def ofVocabulary (vocabulary : Vocabulary) (settings : Settings) : Engine :=
  ⟨vocabulary, settings, .ofCapacity settings.cacheCapacity.toNat⟩

-- An engine over the vocabulary of its settings.
def ofSettings (settings : Settings) : Except QueryError Engine :=
  settings.vocabulary.map fun vocabulary => ofVocabulary vocabulary settings

def read (text : String) : Except QueryError Engine :=
  (Settings.read text).bind ofSettings

-- The error of a condition that scores more than the limit.
def checkScore (limit? : Option Score) (score : Score) : Except QueryError Unit :=
  match limit? with
  | none => .ok ()
  | some limit => if limit < score then .error (.tooComplex score limit) else .ok ()

-- What a query compiles to, by a vocabulary and settings alone. The score is that of the
-- condition as it was written.
def compileFresh (vocabulary : Vocabulary) (settings : Settings) (query : String) :
    Except QueryError (Option Condition) :=
  (Condition.ofQuery vocabulary query).bind fun condition? =>
    match condition? with
    | none => .ok none
    | some condition =>
        (checkScore settings.maxScore (condition.score vocabulary)).map fun () =>
          if settings.simplify then condition.simplify vocabulary else some condition

-- What a query compiles to, and the engine that remembers it.
def compile (engine : Engine) (query : String) :
    Except QueryError (Option Condition) × Engine :=
  let fresh := compileFresh engine.vocabulary engine.settings
  if engine.settings.cache then
    let fetched := engine.cache.fetch fresh query
    (fetched.result, { engine with cache := fetched.cache })
  else (fresh query, engine)

def parse (engine : Engine) (query : String) : Except QueryError (Option Condition) :=
  Condition.ofQuery engine.vocabulary query

def clearCache (engine : Engine) : Engine :=
  { engine with cache := engine.cache.clear }

def cacheSize (engine : Engine) : Nat :=
  engine.cache.size

end Engine

end SearchQuery
