import SearchQuery.Proofs.Query.Word
import SearchQuery.Proofs.Results
import SearchQuery.Proofs.Token.Texts
import SearchQuery.Proofs.Token.Written

-- What tokens ask for, text by text: each text in a token gives one leaf of its condition,
-- or else one of them is the cause of an error.

namespace SearchQuery

section Except

variable {α β ε : Type} {x : Except ε α}

-- The error of a result, if it is one.
def errorOf? : Except ε α → Option ε
  | .ok _ => none
  | .error e => some e

theorem errorOf?_map (f : α → β) (x : Except ε α) : errorOf? (x.map f) = errorOf? x := by
  cases x <;> rfl

theorem errorOf?_eq_some {e : ε} : errorOf? x = some e ↔ x = .error e := by
  cases x <;> simp [errorOf?]

theorem errorOf?_eq_none : errorOf? x = none ↔ ∃ a, x = .ok a := by
  cases x <;> simp [errorOf?]

end Except

namespace Condition

variable {v : Vocabulary} {t : Token} {ts : List Token} {c : Condition} {cs : List Condition}
  {e : QueryError}

section Tokens

theorem ofTokens_cons_eq_ok :
    ofTokens v (t :: ts) = .ok cs ↔
      ∃ c ds, ofToken v t = .ok c ∧ ofTokens v ts = .ok ds ∧ c :: ds = cs := by
  simp only [ofTokens, bind_eq_ok, map_eq_ok, exists_and_left]

theorem errorOf?_ofTokens_cons (v : Vocabulary) (t : Token) (ts : List Token) :
    errorOf? (ofTokens v (t :: ts)) = (errorOf? (ofToken v t)).or (errorOf? (ofTokens v ts)) := by
  rw [ofTokens]
  cases ofToken v t with
  | error e => rfl
  | ok c => exact errorOf?_map _ (ofTokens v ts)

-- The conditions of tokens, one by one.
theorem forall₂_of_ofTokens (h : ofTokens v ts = .ok cs) :
    List.Forall₂ (fun t c => ofToken v t = .ok c) ts cs := by
  induction ts generalizing cs with
  | nil =>
      cases h
      exact .nil
  | cons t ts ih =>
      obtain ⟨c, ds, hc, hds, rfl⟩ := ofTokens_cons_eq_ok.mp h
      exact .cons hc (ih hds)

end Tokens

section Texts

-- The error of the first of some words that is refused.
def firstError? (v : Vocabulary) (words : List String) : Option QueryError :=
  words.findSome? fun word => errorOf? (ofWord v word)

theorem firstError?_eq_some {words : List String} :
    firstError? v words = some e ↔
      ∃ before word after, words = before ++ word :: after ∧
        (∀ earlier ∈ before, ∃ c, ofWord v earlier = .ok c) ∧ ofWord v word = .error e := by
  simp only [firstError?, List.findSome?_eq_some_iff, errorOf?_eq_some, errorOf?_eq_none]
  simp only [and_comm]

theorem firstError?_eq_none {words : List String} :
    firstError? v words = none ↔ ∀ word ∈ words, ∃ c, ofWord v word = .ok c := by
  simp only [firstError?, List.findSome?_eq_none_iff, errorOf?_eq_none]

theorem errorOf?_ofTokens (h : ∀ t ∈ ts, errorOf? (ofToken v t) = firstError? v t.texts) :
    errorOf? (ofTokens v ts) = firstError? v (Token.textsAll ts) := by
  induction ts with
  | nil => rfl
  | cons t ts ih =>
      obtain ⟨ht, hts⟩ := List.forall_mem_cons.mp h
      rw [errorOf?_ofTokens_cons, ht, ih hts, Token.textsAll, firstError?, firstError?, firstError?,
        List.findSome?_append]

-- Tokens are translated in the order of their texts, so what refuses them is the first text
-- that is refused.
theorem errorOf?_ofToken (v : Vocabulary) (t : Token) :
    errorOf? (ofToken v t) = firstError? v t.texts := by
  induction t with
  | word text => exact (List.findSome?_singleton ..).symm
  | negated t ih =>
      rw [ofToken, errorOf?_map]
      exact ih
  | group ts ih =>
      rw [ofToken, errorOf?_map]
      exact errorOf?_ofTokens ih
  | choice ts ih =>
      rw [ofToken, errorOf?_map]
      exact errorOf?_ofTokens ih

theorem leaves_iterate_not (n : Nat) (c : Condition) : (not^[n] c).leaves = c.leaves := by
  induction n generalizing c with
  | zero => rfl
  | succ n ih => exact ih (not c)

theorem forall₂_textsAll
    (hts : ∀ t ∈ ts, ∀ c, ofToken v t = .ok c → List.Forall₂ (Spells v) t.texts c.leaves)
    (h : ofTokens v ts = .ok cs) :
    List.Forall₂ (Spells v) (Token.textsAll ts) (leavesAll cs) := by
  induction ts generalizing cs with
  | nil =>
      cases h
      exact .nil
  | cons t ts ih =>
      obtain ⟨c, ds, hc, hds, rfl⟩ := ofTokens_cons_eq_ok.mp h
      obtain ⟨ht, hts⟩ := List.forall_mem_cons.mp hts
      exact List.rel_append (ht c hc) (ih hts hds)

-- Each text of a token spells the leaf that has its place.
theorem forall₂_texts (h : ofToken v t = .ok c) :
    List.Forall₂ (Spells v) t.texts c.leaves := by
  induction t generalizing c with
  | word text =>
      obtain ⟨n, l, rfl, hspells⟩ := ofWord_of_ok h
      rw [leaves_iterate_not]
      exact .cons hspells .nil
  | negated t ih =>
      obtain ⟨d, hd, rfl⟩ := map_eq_ok.mp h
      have hspells := ih hd
      exact hspells
  | group ts ih =>
      obtain ⟨cs, hcs, rfl⟩ := map_eq_ok.mp h
      exact forall₂_textsAll (fun t ht c => ih t ht) hcs
  | choice ts ih =>
      obtain ⟨cs, hcs, rfl⟩ := map_eq_ok.mp h
      exact forall₂_textsAll (fun t ht c => ih t ht) hcs

end Texts

section Query

variable {query : String}

theorem read_of_error (h : Token.read query = .error e) :
    ∃ fault excerpt, e = .grouping fault excerpt := by
  unfold Token.read at h
  cases hscan : Token.scan query with
  | error found =>
      rw [hscan] at h
      cases h
      exact ⟨_, _, rfl⟩
  | ok tokens? =>
      rw [hscan] at h
      cases h

theorem ofQuery_of_read_error (v : Vocabulary) (h : Token.read query = .error e) :
    ofQuery v query = .error e := by
  rw [ofQuery, h]
  rfl

-- Once the words of a query form groups and choices, only its terms can refuse it.
theorem errorOf?_ofQuery {tokens? : Option (List Token)} (v : Vocabulary)
    (h : Token.read query = .ok tokens?) :
    errorOf? (ofQuery v query) = firstError? v (Token.terms (Text.words query)) := by
  rw [ofQuery, h]
  cases tokens? with
  | none =>
      rw [Token.read_eq_none.mp h]
      rfl
  | some ts =>
      have hmap := errorOf?_map some (ofToken v (Token.gather ts))
      rw [errorOf?_ofToken, Token.texts_gather, Token.textsAll_of_read h] at hmap
      exact hmap

-- A query is refused for its groups and choices, or for a single word.
theorem ofQuery_of_error (h : ofQuery v query = .error e) :
    (∃ fault excerpt, e = .grouping fault excerpt) ∨ e.OfWord := by
  cases hread : Token.read query with
  | error e' =>
      rw [ofQuery_of_read_error v hread] at h
      cases h
      exact .inl (read_of_error hread)
  | ok tokens? =>
      rw [← errorOf?_eq_some, errorOf?_ofQuery v hread, firstError?_eq_some] at h
      obtain ⟨before, word, after, -, -, herror⟩ := h
      exact .inr (ofWord_of_error herror)

-- What is wrong with the groups and choices of a query refuses it under any vocabulary.
-- Otherwise the query is accepted if each of its terms is, wherever it stands, and if not it
-- is refused for the first term that is not.
theorem ofQuery_eq_error_iff_first (v : Vocabulary) (query : String) :
    (∀ e, Token.read query = .error e → ofQuery v query = .error e) ∧
      ∀ tokens?, Token.read query = .ok tokens? →
        ((∃ c?, ofQuery v query = .ok c?) ↔
            ∀ word ∈ Token.terms (Text.words query), ∃ c, ofWord v word = .ok c) ∧
          ∀ e, ofQuery v query = .error e ↔
            ∃ before word after, Token.terms (Text.words query) = before ++ word :: after ∧
              (∀ earlier ∈ before, ∃ c, ofWord v earlier = .ok c) ∧
              ofWord v word = .error e := by
  refine ⟨fun e h => ofQuery_of_read_error v h, fun tokens? h => ⟨?_, fun e => ?_⟩⟩
  · rw [← errorOf?_eq_none, errorOf?_ofQuery v h, firstError?_eq_none]
  · rw [← errorOf?_eq_some, errorOf?_ofQuery v h, firstError?_eq_some]

-- The first of three words that are refused stands in a group that is a branch of a choice.
theorem ofQuery_eq_error_iff_first_nested :
    let v : Vocabulary := ⟨(NameMap.empty.insert "b" .flag).insert "n" (Kind.ofCodec .int)⟩
    let query := "b -( not:b | -( b n:x ) | c ) and"
    Token.read query = .ok (some [.word "b", .negated (.choice [.word "not:b",
      .negated (.group [.word "b", .word "n:x"]), .word "c"]), .word "and"]) ∧
      ofQuery v query = .error (.invalidValue "n:x" (.notANumber "x")) ∧
      Token.read "b )" = .error (.grouping .unopened "b )") ∧
      ofQuery v "b )" = .error (.grouping .unopened "b )") := by
  intro v query
  have hread : Token.read query = .ok (some [.word "b", .negated (.choice [.word "not:b",
      .negated (.group [.word "b", .word "n:x"]), .word "c"]), .word "and"]) := by
    cbv
  have hterms : Token.terms (Text.words query) = ["b", "not:b", "b"] ++ "n:x" :: ["c", "and"] := by
    cbv
  have hbefore : ∀ earlier ∈ ["b", "not:b", "b"], ∃ c, ofWord v earlier = .ok c := by
    intro earlier h
    simp only [List.mem_cons, List.not_mem_nil, or_false] at h
    rcases h with rfl | rfl | rfl
    · exact ⟨flag "b", by cbv⟩
    · exact ⟨not (flag "b"), by cbv⟩
    · exact ⟨flag "b", by cbv⟩
  have hunopened : Token.read "b )" = .error (.grouping .unopened "b )") := by cbv
  exact ⟨hread, (((ofQuery_eq_error_iff_first v query).2 _ hread).2 _).mpr
    ⟨_, _, _, hterms, hbefore, by cbv⟩, hunopened,
    (ofQuery_eq_error_iff_first v "b )").1 _ hunopened⟩

end Query

end Condition

end SearchQuery
