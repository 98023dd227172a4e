import Mathlib
import SearchQuery.Engine
import SearchQuery.Proofs.Cache

-- An engine answers a query as if it had no cache, whatever it was asked before: all that
-- it ever remembers is what a query compiles to.

namespace SearchQuery.Engine

-- What can be asked of an engine in between.
inductive Call
  | compile (query : String)
  | clear

def step (engine : Engine) : Call → Engine
  | .compile query => (engine.compile query).2
  | .clear => engine.clearCache

def after (engine : Engine) (calls : List Call) : Engine :=
  calls.foldl step engine

-- What the queries among some calls are answered, one after the other.
def answers (engine : Engine) : List Call → List (Except QueryError (Option Condition))
  | [] => []
  | .compile query :: calls =>
      (engine.compile query).1 :: answers (engine.step (.compile query)) calls
  | .clear :: calls => answers (engine.step .clear) calls

def queries : List Call → List String
  | [] => []
  | .compile query :: calls => query :: queries calls
  | .clear :: calls => queries calls

-- What holds of an engine at any time: it has the vocabulary, the settings and the capacity
-- that it began with, and whatever it remembers of a query is what the query compiles to.
-- An engine that is not to remember anything does not.
structure Recalls (v : Vocabulary) (s : Settings) (engine : Engine) : Prop where
  vocabulary : engine.vocabulary = v
  settings : engine.settings = s
  capacity : engine.cache.capacity = s.cacheCapacity.toNat
  entries : ∀ query answer, (query, answer) ∈ engine.cache.entries →
    compileFresh v s query = .ok answer
  empty : s.cache = false ∨ s.cacheCapacity = 0 → engine.cache.entries = []

variable {v : Vocabulary} {s : Settings} {engine : Engine} {query : String}
  {answer : Option Condition} {e : QueryError}

theorem recalls_ofVocabulary (v : Vocabulary) (s : Settings) : Recalls v s (ofVocabulary v s) where
  vocabulary := rfl
  settings := rfl
  capacity := rfl
  entries query answer h := by cases h
  empty _ := rfl

section Compile

theorem compile_of_cache_off (h : engine.settings.cache = false) :
    engine.compile query = (compileFresh engine.vocabulary engine.settings query, engine) := by
  simp [compile, h]

theorem compile_of_hit (hon : engine.settings.cache = true)
    (h : engine.cache.get? query = some answer) : engine.compile query = (.ok answer, engine) := by
  simp [compile, hon, Cache.fetch_of_hit h]

theorem compile_of_ok (hon : engine.settings.cache = true)
    (hmiss : engine.cache.get? query = none)
    (h : compileFresh engine.vocabulary engine.settings query = .ok answer) :
    engine.compile query = (.ok answer, { engine with cache := engine.cache.store query answer }) := by
  simp [compile, hon, Cache.fetch_of_ok hmiss h]

theorem compile_of_error (hmiss : engine.cache.get? query = none)
    (h : compileFresh engine.vocabulary engine.settings query = .error e) :
    engine.compile query = (.error e, engine) := by
  cases hon : engine.settings.cache with
  | false => rw [compile_of_cache_off hon, h]
  | true => simp [compile, hon, Cache.fetch_of_error hmiss h]

end Compile

section Step

theorem Recalls.compile_fst (h : Recalls v s engine) (query : String) :
    (engine.compile query).1 = compileFresh v s query := by
  obtain ⟨rfl, rfl, -, hentries, -⟩ := h
  cases hon : engine.settings.cache with
  | false => rw [compile_of_cache_off hon]
  | true =>
      cases hget : engine.cache.get? query with
      | some answer =>
          rw [compile_of_hit hon hget]
          exact (hentries query answer (Cache.mem_entries_of_get? hget)).symm
      | none =>
          cases hfresh : compileFresh engine.vocabulary engine.settings query with
          | ok answer => rw [compile_of_ok hon hget hfresh]
          | error e => rw [compile_of_error hget hfresh]

-- The engine is another one only after a query that was not remembered and compiled.
theorem Recalls.compile_snd (h : Recalls v s engine) (query : String) :
    (engine.compile query).2 = engine ∨
      s.cache = true ∧ engine.cache.get? query = none ∧
        ∃ answer, compileFresh v s query = .ok answer ∧
          (engine.compile query).2 = { engine with cache := engine.cache.store query answer } := by
  obtain ⟨rfl, rfl, -, -, -⟩ := h
  cases hon : engine.settings.cache with
  | false => exact .inl (by rw [compile_of_cache_off hon])
  | true =>
      cases hget : engine.cache.get? query with
      | some answer => exact .inl (by rw [compile_of_hit hon hget])
      | none =>
          cases hfresh : compileFresh engine.vocabulary engine.settings query with
          | ok answer =>
              exact .inr ⟨rfl, rfl, answer, rfl, by rw [compile_of_ok hon hget hfresh]⟩
          | error e => exact .inl (by rw [compile_of_error hget hfresh])

theorem Recalls.compile (h : Recalls v s engine) (query : String) :
    Recalls v s (engine.compile query).2 := by
  rcases h.compile_snd query with hsame | ⟨hon, -, answer, hfresh, hstore⟩
  · rwa [hsame]
  · rw [hstore]
    refine ⟨h.vocabulary, h.settings, ?_, ?_, ?_⟩
    · exact (Cache.capacity_store _ _ _).trans h.capacity
    · intro other found hmem
      rcases Cache.mem_entries_of_mem_store hmem with hmem | ⟨rfl, rfl⟩
      · exact h.entries other found hmem
      · exact hfresh
    · rintro (hoff | hzero)
      · rw [hon] at hoff
        cases hoff
      · have hcap : engine.cache.capacity = 0 := by
          rw [h.capacity, hzero]
          rfl
        rw [Cache.store_of_capacity_zero hcap]
        exact h.empty (.inr hzero)

theorem Recalls.step (h : Recalls v s engine) (call : Call) : Recalls v s (engine.step call) := by
  cases call with
  | compile query => exact h.compile query
  | clear =>
      refine ⟨h.vocabulary, h.settings, h.capacity, ?_, fun _ => rfl⟩
      intro query answer hmem
      cases hmem

end Step

section Run

theorem Recalls.after (h : Recalls v s engine) (calls : List Call) :
    Recalls v s (engine.after calls) := by
  induction calls generalizing engine with
  | nil => exact h
  | cons call calls ih => exact ih (h.step call)

theorem Recalls.answers_eq (h : Recalls v s engine) (calls : List Call) :
    engine.answers calls = (queries calls).map (compileFresh v s) := by
  induction calls generalizing engine with
  | nil => rfl
  | cons call calls ih =>
      have hstep := h.step call
      cases call with
      | compile query => rw [answers, queries, List.map_cons, h.compile_fst, ih hstep]
      | clear => rw [answers, queries, ih hstep]

-- What is compiled does not depend on how much is remembered.
theorem compileFresh_cache (v : Vocabulary) (s : Settings) (cache : Bool) (capacity : UInt64) :
    compileFresh v { s with cache := cache, cacheCapacity := capacity } = compileFresh v s :=
  rfl

-- The cache does not show in any answer, errors and remembered queries leave it as it
-- was, and it stays empty if it is to.
theorem answers_after (v : Vocabulary) (s : Settings) (calls : List Call) :
    let engine := (ofVocabulary v s).after calls
    (ofVocabulary v s).answers calls = (queries calls).map (compileFresh v s) ∧
      (∀ cache capacity others query,
        let other := (ofVocabulary v { s with cache := cache, cacheCapacity := capacity }).after others
        (engine.compile query).1 = (other.compile query).1) ∧
      (∀ query,
        (∃ e, (engine.compile query).1 = .error e) ∨
            (∃ answer, engine.cache.get? query = some answer) →
          (engine.compile query).2 = engine) ∧
      (s.cache = false ∨ s.cacheCapacity = 0 → engine.cache.entries = []) := by
  intro engine
  have hstart := recalls_ofVocabulary v s
  have h : Recalls v s engine := hstart.after calls
  refine ⟨hstart.answers_eq calls, fun cache capacity others query => ?_, fun query hquery => ?_,
    h.empty⟩
  · have hother := (recalls_ofVocabulary v { s with cache := cache, cacheCapacity := capacity }).after
      others
    show (engine.compile query).1 = (Engine.compile _ query).1
    rw [h.compile_fst, hother.compile_fst]
    exact (congrFun (compileFresh_cache v s cache capacity) query).symm
  · rcases h.compile_snd query with hsame | ⟨-, hmiss, answer, hfresh, -⟩
    · exact hsame
    · rcases hquery with ⟨e, he⟩ | ⟨found, hfound⟩
      · rw [h.compile_fst, hfresh] at he
        cases he
      · rw [hmiss] at hfound
        cases hfound

end Run

-- An engine that remembers the last query but one, and one that cannot.
theorem answers_after_refused :
    let v : Vocabulary := ⟨NameMap.empty.insert "b" .flag⟩
    let calls := [.compile "b -b", .clear, .compile "b", .compile "("]
    let engine := (ofVocabulary v .default).after calls
    let silent := (ofVocabulary v { Settings.default with cacheCapacity := 0 }).after calls
    (engine.compile "(").2 = engine ∧ (engine.compile "b").2 = engine ∧
      silent.cache.entries = [] := by
  intro v calls engine silent
  have hkeep := (answers_after v .default calls).2.2.1
  have hempty := (answers_after v { Settings.default with cacheCapacity := 0 } calls).2.2.2
  have hrefused : (engine.compile "(").1 = .error (.grouping .unclosed "(") := by cbv
  have hfound : engine.cache.get? "b" = some (some (.flag "b")) := by cbv
  exact ⟨hkeep "(" (.inl ⟨_, hrefused⟩), hkeep "b" (.inr ⟨_, hfound⟩), hempty (.inr rfl)⟩

end SearchQuery.Engine
