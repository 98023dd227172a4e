import SearchQuery.Proofs.Engine.Recall
import SearchQuery.Proofs.Query.Kinds

-- What an engine answers does not depend on kinds that the query does not name: they can be
-- registered, changed or left out.

namespace SearchQuery.Engine

variable {v w : Vocabulary} {s : Settings} {query : String} {answer : Option Condition}

theorem compileFresh_congr (s : Settings) (h : v.AgreeOn w (Condition.namedKinds query)) :
    compileFresh v s query = compileFresh w s query := by
  unfold compileFresh
  rw [← Condition.ofQuery_congr h]
  cases hquery : Condition.ofQuery v query with
  | error e => rfl
  | ok condition? =>
      cases condition? with
      | none => rfl
      | some c =>
          rw [← Condition.kinds_of_ofQuery hquery] at h
          simp only [Except.bind, Condition.score_congr h, Condition.simplify_congr h]

theorem exists_ofQuery_of_compileFresh (h : compileFresh v s query = .ok answer) :
    ∃ condition?, Condition.ofQuery v query = .ok condition? := by
  obtain ⟨condition?, hquery, -⟩ := bind_eq_ok.mp h
  exact ⟨condition?, hquery⟩

-- A query names only kinds that were known when it was compiled, and they stay as they are
-- when more are registered.
theorem agreeOn_of_compileFresh {kinds more : List (String × Kind)}
    (hv : Vocabulary.build kinds = .ok v) (hw : Vocabulary.build more = .ok w)
    (hmore : kinds ⊆ more) (h : compileFresh v s query = .ok answer) :
    v.AgreeOn w (Condition.namedKinds query) := by
  intro name hname
  obtain ⟨condition?, hquery⟩ := exists_ofQuery_of_compileFresh h
  obtain ⟨kind, hkind⟩ := Condition.exists_kind_of_ofQuery hquery hname
  rw [hkind, (Vocabulary.get?_build hw).mpr (hmore ((Vocabulary.get?_build hv).mp hkind))]

-- Engines whose vocabularies agree on the kinds that a query names give it the same answer,
-- an error included, and a query that was compiled is compiled to the same when further
-- kinds are registered.
theorem compile_eq_of_agreeOn (s : Settings) (query : String) (calls others : List Call) :
    (∀ v w : Vocabulary, v.AgreeOn w (Condition.namedKinds query) →
        (((ofVocabulary v s).after calls).compile query).1 =
          (((ofVocabulary w s).after others).compile query).1) ∧
      ∀ kinds more v w, Vocabulary.build kinds = .ok v → Vocabulary.build more = .ok w →
        kinds ⊆ more → ∀ answer, (((ofVocabulary v s).after calls).compile query).1 = .ok answer →
          (((ofVocabulary w s).after others).compile query).1 = .ok answer := by
  have hfresh : ∀ (v : Vocabulary) (calls : List Call),
      (((ofVocabulary v s).after calls).compile query).1 = compileFresh v s query :=
    fun v calls => ((recalls_ofVocabulary v s).after calls).compile_fst query
  simp only [hfresh]
  refine ⟨fun v w h => compileFresh_congr s h, fun kinds more v w hv hw hmore answer h => ?_⟩
  rw [← compileFresh_congr s (agreeOn_of_compileFresh hv hw hmore h), h]

-- A vocabulary with one kind more, where one query names an unknown kind and another negates
-- the known one in both ways.
theorem compile_eq_of_agreeOn_registered :
    let kinds := [("tag", Kind.ofCodec .string)]
    let more := [("a", Kind.flag), ("tag", Kind.ofCodec .string)]
    let v : Vocabulary := ⟨NameMap.empty.insert "tag" (Kind.ofCodec .string)⟩
    let w : Vocabulary := ⟨(NameMap.empty.insert "a" Kind.flag).insert "tag" (Kind.ofCodec .string)⟩
    let s := Settings.default
    v.AgreeOn w (Condition.namedKinds "tag:x | b") ∧
      ((ofVocabulary v s).compile "tag:x | b").1 = ((ofVocabulary w s).compile "tag:x | b").1 ∧
      Vocabulary.build kinds = .ok v ∧ Vocabulary.build more = .ok w ∧ kinds ⊆ more ∧
      ((ofVocabulary v s).compile "not:tag:x -tag:y").1 =
        .ok (some (.and [.not (.leaf "tag" (.text "x")), .not (.leaf "tag" (.text "y"))])) ∧
      ((ofVocabulary w s).compile "not:tag:x -tag:y").1 =
        .ok (some (.and [.not (.leaf "tag" (.text "x")), .not (.leaf "tag" (.text "y"))])) := by
  intro kinds more v w s
  obtain ⟨hsame, -⟩ := compile_eq_of_agreeOn s "tag:x | b" [] []
  obtain ⟨-, hmore⟩ := compile_eq_of_agreeOn s "not:tag:x -tag:y" [] []
  have hagree : v.AgreeOn w (Condition.namedKinds "tag:x | b") := by
    have hnames : Condition.namedKinds "tag:x | b" = ["tag", "b"] := by cbv
    rw [hnames]
    intro name hname
    simp only [List.mem_cons, List.not_mem_nil, or_false] at hname
    rcases hname with rfl | rfl <;> rfl
  have hv : Vocabulary.build kinds = .ok v := by rfl
  have hw : Vocabulary.build more = .ok w := by rfl
  have hsub : kinds ⊆ more := by simp [kinds, more]
  have hcompiled : ((ofVocabulary v s).compile "not:tag:x -tag:y").1 =
      .ok (some (.and [.not (.leaf "tag" (.text "x")), .not (.leaf "tag" (.text "y"))])) := by
    cbv
  exact ⟨hagree, hsame v w hagree, hv, hw, hsub, hcompiled,
    hmore kinds more v w hv hw hsub _ hcompiled⟩

end SearchQuery.Engine
