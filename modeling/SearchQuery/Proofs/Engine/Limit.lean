import SearchQuery.Proofs.Engine.Recall
import SearchQuery.Proofs.Query.Texts
import SearchQuery.Proofs.Simplify.Weight

-- The limit of an engine: what scores more is refused with its score and the limit, nothing
-- else is refused for it, and what an engine answers stays within it. A remembered answer
-- was within the limit when it was compiled, and a simplest form scores no more than the
-- condition that was measured.

namespace SearchQuery.Engine

variable {v : Vocabulary} {s : Settings} {query : String} {c : Condition}
  {limit score bound : Score}

section Fresh

theorem compileFresh_of_unlimited (h : s.maxScore = none) :
    compileFresh v s query =
      (Condition.ofQuery v query).map fun condition? =>
        condition?.bind fun c => if s.simplify then c.simplify v else some c := by
  unfold compileFresh
  rw [h]
  cases Condition.ofQuery v query with
  | error e => rfl
  | ok condition? => cases condition? <;> rfl

-- The limit is asked once, with the condition as it was written. It either refuses the
-- query or changes nothing.
theorem compileFresh_over_or_unlimited (hlimit : s.maxScore = some limit) (query : String) :
    (∃ c, Condition.ofQuery v query = .ok (some c) ∧ limit < c.score v ∧
        compileFresh v s query = .error (.tooComplex (c.score v) limit)) ∨
      (∀ c, Condition.ofQuery v query = .ok (some c) → c.score v ≤ limit) ∧
        compileFresh v s query = compileFresh v { s with maxScore := none } query := by
  unfold compileFresh
  rw [hlimit]
  cases Condition.ofQuery v query with
  | error e => exact .inr ⟨nofun, rfl⟩
  | ok condition? =>
      cases condition? with
      | none => exact .inr ⟨nofun, rfl⟩
      | some c =>
          by_cases hover : limit < c.score v
          · refine .inl ⟨c, rfl, hover, ?_⟩
            simp [Except.bind, Except.map, checkScore, hover]
          · refine .inr ⟨fun d hd => ?_, ?_⟩
            · cases hd
              exact UInt32.not_lt.mp hover
            · simp [Except.bind, Except.map, checkScore, hover]

end Fresh

section Limit

-- What is compiled is the condition that was measured or its simplest form.
theorem score_le_of_unlimited (hmax : s.maxScore = none)
    (hwithin : ∀ c, Condition.ofQuery v query = .ok (some c) → c.score v ≤ limit)
    (h : compileFresh v s query = .ok (some c)) : c.score v ≤ limit := by
  rw [compileFresh_of_unlimited hmax] at h
  obtain ⟨condition?, hquery, hc⟩ := map_eq_ok.mp h
  obtain ⟨d, rfl, hc⟩ := Option.bind_eq_some_iff.mp hc
  have hd := hwithin d hquery
  cases hsimplify : s.simplify with
  | true =>
      have hform : d.simplify v = some c := by simpa [hsimplify] using hc
      exact UInt32.le_trans (Condition.score_simplify_le hform) hd
  | false =>
      obtain rfl : d = c := by simpa [hsimplify] using hc
      exact hd

-- A query is refused for its score by the limit only, not before it has a condition.
theorem unlimited_ne_tooComplex (hmax : s.maxScore = none) :
    compileFresh v s query ≠ .error (.tooComplex score bound) := by
  intro h
  rw [compileFresh_of_unlimited hmax] at h
  rcases Condition.ofQuery_of_error (map_eq_error.mp h) with ⟨fault, excerpt, he⟩ | hword
  · cases he
  · exact hword

-- The limit is exact, the error tells the score and the limit, and a query that is not
-- refused is answered as without a limit. Every answer, simplified or not and remembered or
-- not, is within the limit, which also bounds how large it is.
theorem compile_limited (v : Vocabulary) (s : Settings) (limit : Score)
    (hlimit : s.maxScore = some limit) (calls : List Call) (query : String) :
    let engine := (ofVocabulary v s).after calls
    (∀ score bound, (engine.compile query).1 = .error (.tooComplex score bound) ↔
        ∃ c, Condition.ofQuery v query = .ok (some c) ∧ limit < c.score v ∧
          score = c.score v ∧ bound = limit) ∧
      ((¬∃ c, Condition.ofQuery v query = .ok (some c) ∧ limit < c.score v) →
        ∀ others, (engine.compile query).1 =
          (((ofVocabulary v { s with maxScore := none }).after others).compile query).1) ∧
      ∀ c, (engine.compile query).1 = .ok (some c) →
        c.score v ≤ limit ∧
          (UInt32.toNat limit < Score.greatest → c.parts.length ≤ UInt32.toNat limit + 1) := by
  intro engine
  have hfresh : (engine.compile query).1 = compileFresh v s query :=
    ((recalls_ofVocabulary v s).after calls).compile_fst query
  have hfree : ∀ others,
      (((ofVocabulary v { s with maxScore := none }).after others).compile query).1 =
        compileFresh v { s with maxScore := none } query := fun others =>
    ((recalls_ofVocabulary v _).after others).compile_fst query
  rw [hfresh]
  rcases compileFresh_over_or_unlimited hlimit query with
    ⟨c, hquery, hover, hrefused⟩ | ⟨hwithin, hsame⟩
  · refine ⟨fun score bound => ?_, fun h => absurd ⟨c, hquery, hover⟩ h, fun d hd => ?_⟩
    · rw [hrefused, hquery]
      constructor
      · intro h
        cases h
        exact ⟨c, rfl, hover, rfl, rfl⟩
      · rintro ⟨d, hd, -, rfl, rfl⟩
        cases hd
        rfl
    · rw [hrefused] at hd
      cases hd
  · refine ⟨fun score bound => ?_, fun _ others => hsame.trans (hfree others).symm,
      fun d hd => ?_⟩
    · rw [hsame]
      constructor
      · exact fun h => absurd h (unlimited_ne_tooComplex rfl)
      · rintro ⟨d, hd, hover, -, -⟩
        exact absurd hover (UInt32.not_lt.mpr (hwithin d hd))
    · rw [hsame] at hd
      have hscore := score_le_of_unlimited rfl hwithin hd
      exact ⟨hscore, Condition.length_parts_le hscore⟩

end Limit

-- A query over the limit, and a remembered one that just keeps to it.
theorem compile_limited_remembered :
    let v : Vocabulary := ⟨NameMap.empty.insert "b" .flag⟩
    let s := { Settings.default with maxScore := some 4 }
    let engine := (ofVocabulary v s).after [.compile "b b b", .compile "b b"]
    let free := (ofVocabulary v { s with maxScore := none }).after []
    s.maxScore = some 4 ∧ (engine.compile "b b b").1 = .error (.tooComplex 6 4) ∧
      engine.cache.get? "b b" = some (some (.flag "b")) ∧
      (engine.compile "b b").1 = .ok (some (.flag "b")) ∧
      (engine.compile "b b").1 = (free.compile "b b").1 ∧
      (Condition.flag "b").score v ≤ 4 ∧ (Condition.flag "b").parts.length ≤ 5 := by
  intro v s engine free
  have hlimit : s.maxScore = some 4 := rfl
  obtain ⟨hover, -, -⟩ := compile_limited v s 4 hlimit [.compile "b b b", .compile "b b"] "b b b"
  obtain ⟨-, hfree, hwithin⟩ :=
    compile_limited v s 4 hlimit [.compile "b b b", .compile "b b"] "b b"
  have hthree :
      Condition.ofQuery v "b b b" = .ok (some (.and [.flag "b", .flag "b", .flag "b"])) := by
    cbv
  have htwo : Condition.ofQuery v "b b" = .ok (some (.and [.flag "b", .flag "b"])) := by cbv
  have hkept : ¬∃ c, Condition.ofQuery v "b b" = .ok (some c) ∧ (4 : Score) < c.score v := by
    rintro ⟨c, hc, hscore⟩
    rw [htwo] at hc
    cases hc
    exact absurd hscore (by decide)
  have hcompiled : (engine.compile "b b").1 = .ok (some (.flag "b")) := by cbv
  obtain ⟨hscore, hlen⟩ := hwithin _ hcompiled
  exact ⟨hlimit, (hover 6 4).mpr ⟨_, hthree, by decide, by decide, rfl⟩, by cbv, hcompiled,
    hfree hkept [], hscore, hlen (by decide)⟩

end SearchQuery.Engine
