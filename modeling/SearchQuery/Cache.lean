-- A cache of what was compiled, by the text that it was compiled from. It is emptied
-- when it is full and something new comes.

namespace SearchQuery

-- The entries, the last one put in first. A capacity of 0 stores nothing.
structure Cache (α : Type) where
  capacity : Nat
  entries : List (String × α)

-- What a text stands for, the cache after it was asked for, and whether it had to be
-- compiled.
structure Fetched (ε α : Type) where
  result : Except ε α
  cache : Cache α
  compiled : Bool

namespace Cache

variable {α ε : Type}

def ofCapacity (capacity : Nat) : Cache α :=
  ⟨capacity, []⟩

def size (cache : Cache α) : Nat :=
  cache.entries.length

def get? (cache : Cache α) (text : String) : Option α :=
  cache.entries.lookup text

def clear (cache : Cache α) : Cache α :=
  { cache with entries := [] }

-- Puts in the entry of a text, in place of the one that it has, if any. A full cache is emptied
-- before a text that it has no entry for.
def store (cache : Cache α) (text : String) (value : α) : Cache α :=
  if cache.capacity = 0 then cache
  else
    let others :=
      if cache.capacity ≤ cache.size && (cache.get? text).isNone then []
      else cache.entries.filter fun entry => entry.1 != text
    { cache with entries := (text, value) :: others }

-- The entry of a text, or else what the text compiles to, which is stored. An error is
-- not stored.
def fetch (cache : Cache α) (compile : String → Except ε α) (text : String) : Fetched ε α :=
  match cache.get? text with
  | some value => ⟨.ok value, cache, false⟩
  | none =>
      match compile text with
      | .ok value => ⟨.ok value, cache.store text value, true⟩
      | .error e => ⟨.error e, cache, true⟩

end Cache

end SearchQuery
