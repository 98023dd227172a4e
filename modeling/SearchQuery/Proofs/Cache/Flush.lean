import SearchQuery.Proofs.Cache

-- How many entries a cache has, and which. Of the texts that were compiled with success
-- since it was last cleared it holds the last ones: as many as came after the last one
-- that found it full.

namespace SearchQuery.Cache

variable {α ε : Type}

-- What is done with a cache. A text may compile to something else each time.
inductive Use (ε α : Type)
  | fetch (compile : String → Except ε α) (text : String)
  | clear

-- What is seen of a use: whether a text had to be compiled, and what was answered.
inductive Event (ε α : Type)
  | fetched (text : String) (compiled : Bool) (result : Except ε α)
  | cleared

def use (cache : Cache α) : Use ε α → Event ε α × Cache α
  | .fetch compile text =>
      let fetched := cache.fetch compile text
      (.fetched text fetched.compiled fetched.result, fetched.cache)
  | .clear => (.cleared, cache.clear)

def run (cache : Cache α) : List (Use ε α) → List (Event ε α) × Cache α
  | [] => ([], cache)
  | first :: uses =>
      let (event, cache) := cache.use first
      let (events, cache) := run cache uses
      (event :: events, cache)

-- Adds to the texts that were compiled with success since the last clearing, the last one
-- first, each with what it compiled to.
def gain (gained : List (String × α)) : Event ε α → List (String × α)
  | .fetched text true (.ok value) => (text, value) :: gained
  | .fetched _ _ _ => gained
  | .cleared => []

def gains (events : List (Event ε α)) : List (String × α) :=
  events.foldl gain []

-- How many of `n` texts are held. The first one and each one that finds the cache full
-- begin to fill it.
def held (capacity n : Nat) : Nat :=
  if capacity = 0 ∨ n = 0 then 0 else (n - 1) % capacity + 1

section Held

variable {capacity n : Nat}

theorem held_of_capacity_zero (n : Nat) : held 0 n = 0 := by
  simp [held]

theorem held_none (capacity : Nat) : held capacity 0 = 0 := by
  simp [held]

theorem held_of_pos (hcapacity : 1 ≤ capacity) (n : Nat) :
    held capacity n = if n = 0 then 0 else (n - 1) % capacity + 1 := by
  have hzero : capacity ≠ 0 := by omega
  simp [held, hzero]

theorem held_le_capacity (capacity n : Nat) : held capacity n ≤ capacity := by
  by_cases h : capacity = 0
  · simp [held, h]
  · have hmod := Nat.mod_lt (n - 1) (Nat.pos_of_ne_zero h)
    unfold held
    split <;> omega

theorem held_le (capacity n : Nat) : held capacity n ≤ n := by
  by_cases h : n = 0
  · simp [held, h]
  · have hmod := Nat.mod_le (n - 1) capacity
    unfold held
    split <;> omega

theorem held_succ (hcapacity : 1 ≤ capacity) (n : Nat) :
    held capacity (n + 1) = if capacity ≤ held capacity n then 1 else held capacity n + 1 := by
  have hsucc : held capacity (n + 1) = n % capacity + 1 := by simp [held_of_pos hcapacity]
  rw [hsucc]
  cases n with
  | zero =>
      rw [held_none, Nat.zero_mod, if_neg (by omega)]
  | succ m =>
      have hheld : held capacity (m + 1) = m % capacity + 1 := by simp [held_of_pos hcapacity]
      have hlt := Nat.mod_lt m hcapacity
      have hmod : (m + 1) % capacity = (m % capacity + 1) % capacity := by simp
      rw [hheld, hmod]
      by_cases hfull : capacity ≤ m % capacity + 1
      · have hlast : m % capacity + 1 = capacity := by omega
        rw [if_pos hfull, hlast, Nat.mod_self]
      · rw [if_neg hfull, Nat.mod_eq_of_lt (by omega)]

end Held

-- What holds of a cache at any time, when these texts were compiled since it was cleared.
structure Filled (limit : Nat) (cache : Cache α) (gained : List (String × α)) : Prop where
  capacity : cache.capacity = limit
  entries : cache.entries = gained.take (held limit gained.length)
  nodup : (cache.entries.map Prod.fst).Nodup

variable {capacity : Nat} {cache : Cache α} {gained : List (String × α)}
  {compile : String → Except ε α} {text : String} {value : α}

section Entries

theorem get?_eq_none : cache.get? text = none ↔ ∀ value, (text, value) ∉ cache.entries := by
  rw [get?, List.lookup_eq_none_iff]
  constructor
  · intro h value hmem
    simpa using h _ hmem
  · intro h p hp
    have hne : text ≠ p.1 := by
      rintro rfl
      exact h p.2 hp
    simpa using hne

theorem get?_of_mem_entries (hnodup : (cache.entries.map Prod.fst).Nodup)
    (h : (text, value) ∈ cache.entries) : cache.get? text = some value :=
  lookup_of_mem hnodup h

theorem entries_store_of_full (hmiss : cache.get? text = none) (hpos : 1 ≤ cache.capacity)
    (hfull : cache.capacity ≤ cache.size) :
    (cache.store text value).entries = [(text, value)] := by
  rw [store, if_neg (by omega)]
  simp [hmiss, hfull]

theorem entries_store_of_room (hmiss : cache.get? text = none)
    (hroom : cache.size < cache.capacity) :
    (cache.store text value).entries = (text, value) :: cache.entries := by
  have hothers : (cache.entries.filter fun entry => entry.1 != text) = cache.entries := by
    rw [List.filter_eq_self]
    rintro ⟨other, found⟩ hmem
    have hne : other ≠ text := by
      rintro rfl
      exact get?_eq_none.mp hmiss found hmem
    simpa using hne
  have hnotfull : ¬cache.capacity ≤ cache.size := by omega
  rw [store, if_neg (by omega), hothers]
  simp [hnotfull]

end Entries

section Step

theorem Filled.size_eq (h : Filled capacity cache gained) :
    cache.size = held capacity gained.length := by
  rw [size, h.entries, List.length_take]
  exact Nat.min_eq_left (held_le _ _)

theorem filled_empty (capacity : Nat) : Filled capacity (ofCapacity capacity : Cache α) [] where
  capacity := rfl
  entries := List.take_nil.symm
  nodup := .nil

theorem Filled.store (h : Filled capacity cache gained) (hmiss : cache.get? text = none)
    (value : α) : Filled capacity (cache.store text value) ((text, value) :: gained) := by
  have hcap : (cache.store text value).capacity = capacity :=
    (capacity_store _ _ _).trans h.capacity
  by_cases hzero : capacity = 0
  · have hnone : (cache.store text value).entries = [] := by
      rw [store_of_capacity_zero (h.capacity.trans hzero), h.entries, hzero,
        held_of_capacity_zero, List.take_zero]
    refine ⟨hcap, ?_, ?_⟩
    · rw [hnone, hzero, held_of_capacity_zero, List.take_zero]
    · rw [hnone]
      exact .nil
  · have hpos : 1 ≤ capacity := Nat.pos_of_ne_zero hzero
    have hheld := held_succ hpos gained.length
    rw [← h.size_eq] at hheld
    by_cases hfull : capacity ≤ cache.size
    · have hone : (cache.store text value).entries = [(text, value)] :=
        entries_store_of_full hmiss (h.capacity ▸ hpos) (h.capacity ▸ hfull)
      refine ⟨hcap, ?_, ?_⟩
      · rw [hone, List.length_cons, hheld, if_pos hfull]
        rfl
      · simp [hone]
    · have hcons : (cache.store text value).entries = (text, value) :: cache.entries :=
        entries_store_of_room hmiss (by rw [h.capacity]; omega)
      refine ⟨hcap, ?_, ?_⟩
      · rw [hcons, List.length_cons, hheld, if_neg hfull, List.take_succ_cons, h.size_eq,
          ← h.entries]
      · rw [hcons, List.map_cons, List.nodup_cons]
        refine ⟨fun hmem => ?_, h.nodup⟩
        obtain ⟨⟨other, found⟩, hfound, rfl⟩ := List.mem_map.mp hmem
        exact get?_eq_none.mp hmiss found hfound

-- Only what had to be compiled, and could be, changes the cache.
theorem Filled.use (h : Filled capacity cache gained) (u : Use ε α) :
    Filled capacity (cache.use u).2 (gain gained (cache.use u).1) := by
  cases u with
  | clear => exact ⟨h.capacity, List.take_nil.symm, .nil⟩
  | fetch compile text =>
      simp only [Cache.use]
      cases hget : cache.get? text with
      | some value =>
          rw [fetch_of_hit hget]
          exact h
      | none =>
          cases hcompile : compile text with
          | error e =>
              rw [fetch_of_error hget hcompile]
              exact h
          | ok value =>
              rw [fetch_of_ok hget hcompile]
              exact h.store hget value

end Step

section Run

theorem Filled.run (h : Filled capacity cache gained) (uses : List (Use ε α)) :
    Filled capacity (cache.run uses).2 ((cache.run uses).1.foldl gain gained) := by
  induction uses generalizing cache gained with
  | nil => exact h
  | cons u uses ih => exact ih (h.use u)

theorem compiled_fetch_iff :
    (cache.fetch compile text).compiled = true ↔ cache.get? text = none := by
  cases hget : cache.get? text with
  | some value => simp [fetch_of_hit hget]
  | none => cases hcompile : compile text <;> simp [fetch, hget, hcompile]

theorem result_fetch_of_miss (hmiss : cache.get? text = none) :
    (cache.fetch compile text).result = compile text := by
  cases hcompile : compile text with
  | ok value => rw [fetch_of_ok hmiss hcompile]
  | error e => rw [fetch_of_error hmiss hcompile]

-- After any uses a cache holds the last of the texts that were compiled with success since
-- it was cleared, as they compiled. Their number goes up to the capacity and then begins
-- again, and a text is compiled exactly if it is not among them.
theorem entries_run (capacity : Nat) (uses : List (Use ε α)) :
    let events := ((ofCapacity capacity : Cache α).run uses).1
    let cache := ((ofCapacity capacity : Cache α).run uses).2
    let n := (gains events).length
    (1 ≤ capacity → cache.size = if n = 0 then 0 else (n - 1) % capacity + 1) ∧
      cache.size ≤ capacity ∧ cache.entries = (gains events).take cache.size ∧
      (cache.entries.map Prod.fst).Nodup ∧
      (∀ (compile : String → Except ε α) text,
        ((cache.fetch compile text).compiled = true ↔ ∀ value, (text, value) ∉ cache.entries) ∧
        ((cache.fetch compile text).compiled = true →
          (cache.fetch compile text).result = compile text) ∧
        ∀ value, (text, value) ∈ cache.entries →
          (cache.fetch compile text).result = .ok value) ∧
      (capacity = 0 → cache.entries = [] ∧
        ∀ (compile : String → Except ε α) text, (cache.fetch compile text).compiled = true) := by
  intro events cache n
  have h : Filled capacity cache (gains events) := (filled_empty capacity).run uses
  have hsize : cache.size = held capacity n := h.size_eq
  refine ⟨fun hpos => ?_, ?_, ?_, h.nodup, fun compile text => ⟨?_, fun hmiss => ?_, ?_⟩,
    fun hzero => ?_⟩
  · rw [hsize, held_of_pos hpos]
  · rw [hsize]
    exact held_le_capacity _ _
  · rw [hsize]
    exact h.entries
  · rw [compiled_fetch_iff, get?_eq_none]
  · exact result_fetch_of_miss (compiled_fetch_iff.mp hmiss)
  · intro value hmem
    rw [fetch_of_hit (get?_of_mem_entries h.nodup hmem)]
  · subst hzero
    have hnone : cache.entries = [] := by
      rw [h.entries, held_of_capacity_zero, List.take_zero]
    refine ⟨hnone, fun compile text => ?_⟩
    rw [compiled_fetch_iff, get?_eq_none, hnone]
    simp

end Run

-- A text that is asked for again, one that compiles only the second time and finds the cache
-- full, and a cache that holds nothing.
theorem entries_run_flushed :
    let yields (n : Nat) : String → Except String Nat := fun _ => .ok n
    let fails : String → Except String Nat := fun text => .error text
    let uses := [.fetch (yields 1) "a", .clear, .fetch (yields 2) "a", .fetch (yields 3) "b",
      .fetch (yields 4) "b", .fetch fails "c", .fetch (yields 5) "c"]
    let events := ((ofCapacity 2 : Cache Nat).run uses).1
    let cache := ((ofCapacity 2 : Cache Nat).run uses).2
    let silent := ((ofCapacity 0 : Cache Nat).run uses).2
    1 ≤ 2 ∧ gains events = [("c", 5), ("b", 3), ("a", 2)] ∧ cache.size = (3 - 1) % 2 + 1 ∧
      cache.entries = [("c", 5)] ∧ (cache.fetch fails "c").result = .ok 5 ∧
      (cache.fetch fails "a").compiled = true ∧ (cache.fetch fails "a").result = .error "a" ∧
      silent.entries = [] ∧ (silent.fetch fails "c").compiled = true := by
  intro yields fails uses events cache silent
  have hgains : gains events = [("c", 5), ("b", 3), ("a", 2)] := by decide
  obtain ⟨hsize, -, hentries, -, hfetch, -⟩ := entries_run 2 uses
  obtain ⟨-, -, -, -, -, hsilent⟩ := entries_run 0 uses
  have hone : cache.size = (3 - 1) % 2 + 1 := by
    have hlen := hsize (by decide)
    rw [hgains] at hlen
    exact hlen
  have hc : cache.entries = [("c", 5)] := by
    rw [hentries, hone, hgains]
    rfl
  have hmiss : (cache.fetch fails "a").compiled = true := by
    rw [(hfetch fails "a").1, hc]
    simp
  refine ⟨by decide, hgains, hone, hc, ?_, hmiss, (hfetch fails "a").2.1 hmiss, (hsilent rfl).1,
    (hsilent rfl).2 fails "c"⟩
  exact (hfetch fails "c").2.2 5 (by rw [hc]; simp)

end SearchQuery.Cache
