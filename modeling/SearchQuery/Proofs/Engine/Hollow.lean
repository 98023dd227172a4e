import SearchQuery.Proofs.Engine.Recall
import SearchQuery.Proofs.Query.Parsed
import SearchQuery.Proofs.Simplify.Basic
import SearchQuery.Proofs.Token.Hollow

-- When an engine that simplifies answers with no condition: for the queries that hold no term
-- at all. A leaf is never lost altogether.

namespace SearchQuery

namespace Condition

variable {v : Vocabulary} {query : String} {c : Condition}

theorem read_of_ofQuery {c? : Option Condition} (h : ofQuery v query = .ok c?) :
    ∃ tokens?, Token.read query = .ok tokens? := by
  obtain ⟨tokens?, hread, -⟩ := bind_eq_ok.mp h
  exact ⟨tokens?, hread⟩

theorem leaves_eq_nil_iff_hollow (h : ofQuery v query = .ok (some c)) :
    c.leaves = [] ↔ Token.Hollow (Text.words query) := by
  obtain ⟨tokens?, hread⟩ := read_of_ofQuery h
  have hlen := (spells_of_ofQuery h).length_eq
  rw [Token.hollow_iff_terms hread, ← List.length_eq_zero_iff, ← List.length_eq_zero_iff, hlen]

-- Where there is nothing to read, no kind is looked up.
theorem ofQuery_of_hollow (v : Vocabulary) (h : Token.Hollow (Text.words query)) :
    ofQuery v query = .ok none ∨ ofQuery v query = .ok (some (and [])) := by
  rcases Token.hollow_iff.mp h with hread | hread
  · rw [ofQuery, hread]
    exact .inl rfl
  · rw [ofQuery, hread]
    exact .inr rfl

end Condition

namespace Engine

variable {v : Vocabulary} {s : Settings} {query : String} {c : Condition}
  {answer : Option Condition}

theorem compileFresh_of_blank (s : Settings) (h : Condition.ofQuery v query = .ok none) :
    compileFresh v s query = .ok none := by
  rw [compileFresh, h]
  rfl

theorem compileFresh_of_simplify (hon : s.simplify = true)
    (h : Condition.ofQuery v query = .ok (some c)) :
    compileFresh v s query =
      (checkScore s.maxScore (c.score v)).map fun () => c.simplify v := by
  rw [compileFresh, h, hon]
  rfl

-- No limit is as low as the score of an empty group.
theorem checkScore_zero (limit? : Option Score) : checkScore limit? 0 = .ok () := by
  cases limit? with
  | none => rfl
  | some limit =>
      have hlow : ¬limit < 0 := UInt32.not_lt_zero
      rw [checkScore, if_neg hlow]

theorem compileFresh_of_hollow (hon : s.simplify = true) (h : Token.Hollow (Text.words query)) :
    compileFresh v s query = .ok none := by
  rcases Condition.ofQuery_of_hollow v h with hquery | hquery
  · exact compileFresh_of_blank s hquery
  · have hscore : (Condition.and []).score v = 0 := rfl
    rw [compileFresh_of_simplify hon hquery, hscore, checkScore_zero]
    rfl

theorem eq_none_iff_of_compileFresh (hon : s.simplify = true)
    (h : compileFresh v s query = .ok answer) :
    answer = none ↔ Token.Hollow (Text.words query) := by
  obtain ⟨c?, hquery, -⟩ := bind_eq_ok.mp h
  cases c? with
  | none =>
      have hwords := Text.words_eq_nil_iff.mpr (Condition.ofQuery_eq_none.mp hquery)
      rw [compileFresh_of_blank s hquery] at h
      cases h
      rw [hwords]
      exact iff_of_true rfl .nil
  | some c =>
      rw [compileFresh_of_simplify hon hquery] at h
      obtain ⟨-, -, rfl⟩ := map_eq_ok.mp h
      rw [Condition.simplify_eq_none_iff, Condition.leaves_eq_nil_iff_hollow hquery]

-- A condition comes to nothing exactly if there is no leaf in it, and a query exactly if there
-- is no term in it. The queries without terms are all accepted, whatever the limit is.
theorem compile_eq_none (v : Vocabulary) :
    (∀ c, Condition.simplify v c = none ↔ c.leaves = []) ∧
      ∀ s : Settings, s.simplify = true → ∀ calls query,
        let engine := (ofVocabulary v s).after calls
        ((engine.compile query).1 = .ok none ↔ Token.Hollow (Text.words query)) ∧
          ∀ answer, (engine.compile query).1 = .ok answer →
            (answer = none ↔ Token.terms (Text.words query) = []) := by
  refine ⟨fun c => Condition.simplify_eq_none_iff, fun s hon calls query => ?_⟩
  intro engine
  have hfresh : (engine.compile query).1 = compileFresh v s query :=
    ((recalls_ofVocabulary v s).after calls).compile_fst query
  rw [hfresh]
  refine ⟨⟨fun h => (eq_none_iff_of_compileFresh hon h).mp rfl, compileFresh_of_hollow hon⟩,
    fun answer h => ?_⟩
  obtain ⟨c?, hquery, -⟩ := bind_eq_ok.mp h
  obtain ⟨tokens?, hread⟩ := Condition.read_of_ofQuery hquery
  rw [eq_none_iff_of_compileFresh hon h, Token.hollow_iff_terms hread]

-- Dashes and empty groups under a limit that nothing else keeps to, a group in which one word is
-- left, and a condition whose groups are all empty.
theorem compile_eq_none_nested :
    let v : Vocabulary := ⟨NameMap.empty.insert "b" .flag⟩
    let s := { Settings.default with maxScore := some 0 }
    let free := { Settings.default with maxScore := none }
    let engine := (ofVocabulary v s).after [.compile "b"]
    s.simplify = true ∧ Token.Hollow ["-(", "--", "(", ")", ")", "-"] ∧
      (engine.compile "-( -- ( ) ) -").1 = .ok none ∧
      ((ofVocabulary v free).compile "( ) -( - -b )").1 = .ok (some (.flag "b")) ∧
      Token.terms (Text.words "( ) -( - -b )") ≠ [] ∧
      Condition.simplify v (.not (.or [.and [], .not (.or [])])) = none := by
  intro v s free engine
  have hon : s.simplify = true := rfl
  have hwords : Text.words "-( -- ( ) ) -" = ["-(", "--", "(", ")", ")", "-"] := by cbv
  have hgroup : Token.Hollow ("(" :: ([] ++ ")" :: [])) := .group (by decide) .nil .nil
  have hhollow : Token.Hollow ("-(" :: (["--", "(", ")"] ++ ")" :: ["-"])) :=
    .group (by decide) (.dashes (by decide) hgroup) (.dashes (by decide) .nil)
  obtain ⟨hform, hcompile⟩ := compile_eq_none v
  obtain ⟨hnone, -⟩ := hcompile s hon [.compile "b"] "-( -- ( ) ) -"
  obtain ⟨-, hsome⟩ := hcompile free rfl [] "( ) -( - -b )"
  have hb : ((ofVocabulary v free).compile "( ) -( - -b )").1 = .ok (some (.flag "b")) := by cbv
  refine ⟨hon, hhollow, hnone.mpr (hwords ▸ hhollow), hb, ?_, (hform _).mpr rfl⟩
  exact fun hterms => Option.some_ne_none _ ((hsome _ hb).mpr hterms)

end Engine

end SearchQuery
