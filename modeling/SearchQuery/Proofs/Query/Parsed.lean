import SearchQuery.Proofs.Query.Grouped
import SearchQuery.Proofs.Query.Texts

-- What the condition of a query looks like: its leaves are the terms of the query, and it
-- combines two or more operands at a time, unless there are no terms at all.

namespace SearchQuery.Condition

open Token (WellFormed)

variable {v : Vocabulary} {query : String} {t : Token} {ts : List Token} {c : Condition}
  {cs : List Condition}

section Operands

-- Wherever it combines conditions, it combines two or more.
def Filled (c : Condition) : Prop :=
  ∀ cs ∈ c.combinations, 2 ≤ cs.length

theorem filled_of_operands (htop : ∀ cs, c = and cs ∨ c = or cs → 2 ≤ cs.length)
    (hops : ∀ o ∈ c.operands, Filled o) : Filled c := by
  intro cs hcs
  rcases mem_combinations_iff.mp hcs with hand | hor | ⟨o, ho, hcs⟩
  · exact htop cs (.inl hand)
  · exact htop cs (.inr hor)
  · exact hops o ho cs hcs

theorem filled_leaf (kind : String) (value : Value) : Filled (leaf kind value) :=
  filled_of_operands nofun (List.forall_mem_nil _)

theorem filled_not (h : Filled c) : Filled (not c) :=
  filled_of_operands nofun (List.forall_mem_singleton.mpr h)

theorem filled_and (hlen : 2 ≤ cs.length) (h : ∀ c ∈ cs, Filled c) : Filled (and cs) := by
  refine filled_of_operands ?_ h
  rintro ds (hand | hor)
  · cases hand
    exact hlen
  · cases hor

theorem filled_or (hlen : 2 ≤ cs.length) (h : ∀ c ∈ cs, Filled c) : Filled (or cs) := by
  refine filled_of_operands ?_ h
  rintro ds (hand | hor)
  · cases hand
  · cases hor
    exact hlen

theorem filled_iterate_not (n : Nat) (h : Filled c) : Filled (not^[n] c) := by
  induction n generalizing c with
  | zero => exact h
  | succ n ih => exact ih (filled_not h)

theorem filled_of_word {text : String} (h : ofWord v text = .ok c) : Filled c := by
  obtain ⟨n, l, rfl, -⟩ := ofWord_of_ok h
  exact filled_iterate_not n (filled_leaf l.1 l.2)

-- The conditions of tokens are as many as the tokens.
theorem filled_of_tokens (hlen : 2 ≤ ts.length)
    (hts : ∀ t ∈ ts, ∀ c, ofToken v t = .ok c → Filled c) (h : ofTokens v ts = .ok cs) :
    2 ≤ cs.length ∧ ∀ c ∈ cs, Filled c := by
  have hall := forall₂_of_ofTokens h
  refine ⟨hall.length_eq ▸ hlen, fun c hc => ?_⟩
  obtain ⟨i, hi, rfl⟩ := List.getElem_of_mem hc
  have hi' : i < ts.length := hall.length_eq ▸ hi
  exact hts ts[i] (List.getElem_mem hi') _ (hall.get hi' hi)

theorem filled_of_token (ht : WellFormed t) (h : ofToken v t = .ok c) : Filled c := by
  induction ht generalizing c with
  | word hplain hbar => exact filled_of_word h
  | negatedWord hplain =>
      obtain ⟨d, hd, rfl⟩ := map_eq_ok.mp h
      exact filled_not (filled_of_word hd)
  | negated ht ih =>
      obtain ⟨d, hd, rfl⟩ := map_eq_ok.mp h
      exact filled_not (ih hd)
  | group hlen hts ih =>
      obtain ⟨cs, hcs, rfl⟩ := map_eq_ok.mp h
      obtain ⟨htwo, hall⟩ := filled_of_tokens hlen (fun t ht c => ih t ht) hcs
      exact filled_and htwo hall
  | choice hlen hts ih =>
      obtain ⟨cs, hcs, rfl⟩ := map_eq_ok.mp h
      obtain ⟨htwo, hall⟩ := filled_of_tokens hlen (fun t ht c => ih t ht) hcs
      exact filled_or htwo hall

end Operands

section Query

theorem texts_ne_nil (h : WellFormed t) : t.texts ≠ [] :=
  Token.texts_ne_nil_of_full (Token.solid_of_wellFormed h).full

theorem ofQuery_eq_none : ofQuery v query = .ok none ↔ Text.isBlank query = true := by
  rw [← Text.words_eq_nil_iff, ← Token.read_eq_none]
  unfold ofQuery
  cases Token.read query with
  | error e => simp [Except.bind]
  | ok tokens? =>
      cases tokens? with
      | none => simp [Except.bind]
      | some ts => cases hc : ofToken v (Token.gather ts) <;> simp [Except.bind, Except.map, hc]

-- Each term of a query spells the leaf that has its place.
theorem spells_of_ofQuery (h : ofQuery v query = .ok (some c)) :
    List.Forall₂ (Spells v) (Token.terms (Text.words query)) c.leaves := by
  obtain ⟨ts, hread, hc⟩ := ofQuery_eq_ok.mp h
  have hspells := forall₂_texts hc
  rwa [Token.texts_gather, Token.textsAll_of_read hread] at hspells

-- The condition of a query has the terms of the query for leaves, one for each and in their
-- order. It combines two or more conditions at a time, but a query without terms that is
-- not blank combines none at all. Only a blank query has no condition.
theorem leaves_and_operands_of_ofQuery (v : Vocabulary) (query : String) :
    (ofQuery v query = .ok none ↔ Text.isBlank query = true) ∧
      ∀ c, ofQuery v query = .ok (some c) →
        List.Forall₂ (Spells v) (Token.terms (Text.words query)) c.leaves ∧
          (Token.terms (Text.words query) ≠ [] → ∀ cs ∈ c.combinations, 2 ≤ cs.length) ∧
          (Token.terms (Text.words query) = [] → c = and []) := by
  refine ⟨ofQuery_eq_none, fun c h => ?_⟩
  obtain ⟨ts, hread, hc⟩ := ofQuery_eq_ok.mp h
  obtain ⟨-, found, hreads, hresolve⟩ := Token.read_eq_ok.mp hread
  have hwords : ∀ w ∈ Text.words query, Text.IsWord w := fun w hw => Text.isWord_of_mem_words hw
  have htexts : Token.textsAll ts = Token.terms (Text.words query) := Token.textsAll_of_read hread
  have hformed : ∀ t ∈ ts, WellFormed t :=
    Token.forall_mem_of_resolve hresolve (hreads.wellFormed hwords) (fun _ => .group)
      (fun _ => .choice)
  refine ⟨spells_of_ofQuery h, fun hterms => ?_, fun hterms => ?_⟩
  · have hne : ts ≠ [] := by
      rintro rfl
      exact hterms htexts.symm
    exact filled_of_token (Token.wellFormed_gather hne hformed) hc
  · rw [hterms, Token.textsAll_eq_flatMap, List.flatMap_eq_nil_iff] at htexts
    have hnil : ts = [] :=
      List.eq_nil_iff_forall_not_mem.mpr fun t ht => texts_ne_nil (hformed t ht) (htexts t ht)
    subst hnil
    cases hc
    rfl

end Query

-- A value that holds a colon, a word negated by `not:`, an empty group, and a query of
-- nothing but an empty group and a dash.
theorem leaves_and_operands_of_ofQuery_choice :
    let v : Vocabulary := ⟨(NameMap.empty.insert "b" .flag).insert "tag" (Kind.ofCodec .string)⟩
    let query := "-( tag:x:y | not:b ) ( ) b"
    let c := and [not (or [leaf "tag" (.text "x:y"), not (flag "b")]), flag "b"]
    ofQuery v query = .ok (some c) ∧
      List.Forall₂ (Spells v) ["tag:x:y", "not:b", "b"] c.leaves ∧
      (∀ cs ∈ c.combinations, 2 ≤ cs.length) ∧
      ofQuery v "( ) -" = .ok (some (and [])) ∧
      ∀ c, ofQuery v "( ) -" = .ok (some c) → c = and [] := by
  intro v query c
  have hc : ofQuery v query = .ok (some c) := by cbv
  have hterms : Token.terms (Text.words query) = ["tag:x:y", "not:b", "b"] := by cbv
  obtain ⟨hleaves, hfilled, -⟩ := (leaves_and_operands_of_ofQuery v query).2 c hc
  rw [hterms] at hleaves hfilled
  have hnone : Token.terms (Text.words "( ) -") = [] := by cbv
  exact ⟨hc, hleaves, hfilled (List.cons_ne_nil _ _), by cbv, fun d hd =>
    ((leaves_and_operands_of_ofQuery v "( ) -").2 d hd).2.2 hnone⟩

end SearchQuery.Condition
