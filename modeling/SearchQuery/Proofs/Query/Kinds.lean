import SearchQuery.Proofs.Kinds
import SearchQuery.Proofs.Query.Parsed

-- The kinds that a query names. Nothing else of a vocabulary is looked up to find out what
-- the query asks for, and the leaves of its condition are of these kinds.

namespace SearchQuery.Condition

variable {v w : Vocabulary} {t : Token} {ts : List Token} {c : Condition} {word query : String}
  {cs : List Char}

section Words

-- The kind that a word names, before its first colon and after any `not:` in front.
def namedChars : List Char → String
  | 'n' :: 'o' :: 't' :: ':' :: operand => namedChars operand
  | word => nameOf word

def namedKind (word : String) : String :=
  namedChars word.toList

theorem ofKindWord_congr (h : v.get? (nameOf cs) = w.get? (nameOf cs)) :
    ofKindWord v cs = ofKindWord w cs := by
  simp only [ofKindWord]
  rw [ofList_fst_cutAt, h]

theorem ofWordChars_congr (h : v.get? (namedChars cs) = w.get? (namedChars cs)) :
    ofWordChars v cs = ofWordChars w cs := by
  fun_induction ofWordChars v cs with
  | case1 operand hblank => rw [ofWordChars, if_pos hblank]
  | case2 operand hblank ih =>
      have hoperand := ih h
      rw [ofWordChars, if_neg hblank, hoperand]
  | case3 cs hnot =>
      have hname : namedChars cs = nameOf cs := namedChars.eq_2 cs hnot
      rw [ofWordChars.eq_2 w cs hnot]
      exact ofKindWord_congr (hname ▸ h)

theorem ofWord_congr (h : v.get? (namedKind word) = w.get? (namedKind word)) :
    ofWord v word = ofWord w word :=
  ofWordChars_congr h

-- The name of a kind, alone or with a colon after it, is what a word is cut to, and the word
-- does not begin with `not:`.
theorem cutAt_append_of_names {name rest : String} {kind : Kind} (hname : v.Names name kind)
    (hrest : rest = "" ∨ ∃ ignored, rest = ":" ++ ignored) :
    (Text.cutAt ':' (name ++ rest).toList).1 = name.toList ∧
      ∀ operand, (name ++ rest).toList ≠ 'n' :: 'o' :: 't' :: ':' :: operand := by
  have hcut : (Text.cutAt ':' (name ++ rest).toList).1 = name.toList := by
    rcases hrest with rfl | ⟨ignored, rfl⟩
    · rw [String.append_empty, Text.cutAt_of_not_mem hname.no_colon]
    · rw [String.toList_append, String.toList_append]
      exact congrArg Prod.fst (Text.cutAt_append_mark hname.no_colon ignored.toList)
  refine ⟨hcut, fun operand hword => ?_⟩
  rw [hword] at hcut
  have hnot : name = "not" := String.toList_inj.mp hcut.symm
  exact hname.not_reserved (by simp [hnot, reservedNames])

theorem namedKind_append {name rest : String} {kind : Kind} (hname : v.Names name kind)
    (hrest : rest = "" ∨ ∃ ignored, rest = ":" ++ ignored) : namedKind (name ++ rest) = name := by
  obtain ⟨hcut, hnot⟩ := cutAt_append_of_names hname hrest
  rw [namedKind, namedChars.eq_2 _ hnot, nameOf, hcut, String.ofList_toList]

theorem namedKind_not (word : String) : namedKind ("not:" ++ word) = namedKind word := by
  rw [namedKind, String.toList_append]
  rfl

-- A word that spells a leaf names its kind, which is known.
theorem Spells.named {l : String × Value} (h : Spells v word l) :
    l.1 = namedKind word ∧ ∃ kind, v.get? (namedKind word) = some kind := by
  induction h with
  | flag hname hflag hrest =>
      rw [namedKind_append hname hrest]
      exact ⟨rfl, _, hname.get⟩
  | @value name text kind _ _ hname hparse htext hvalue =>
      rw [String.append_assoc, namedKind_append hname (.inr ⟨text, rfl⟩)]
      exact ⟨rfl, _, hname.get⟩
  | not h ih => rwa [namedKind_not]

end Words

section Query

-- The kinds that the terms of a query name.
def namedKinds (query : String) : List String :=
  (Token.terms (Text.words query)).map namedKind

theorem ofTokens_congr (h : ∀ t ∈ ts, ofToken v t = ofToken w t) : ofTokens v ts = ofTokens w ts := by
  induction ts with
  | nil => rfl
  | cons t ts ih =>
      obtain ⟨ht, hts⟩ := List.forall_mem_cons.mp h
      rw [ofTokens, ofTokens, ht, ih hts]

theorem ofToken_congr (h : ∀ text ∈ t.texts, ofWord v text = ofWord w text) :
    ofToken v t = ofToken w t := by
  have hmember : ∀ {ts : List Token} {t : Token}, t ∈ ts → t.texts ⊆ Token.textsAll ts := by
    intro ts t ht text htext
    rw [Token.textsAll_eq_flatMap]
    exact List.mem_flatMap.mpr ⟨t, ht, htext⟩
  induction t with
  | word text => exact h text (List.mem_singleton_self text)
  | negated t ih => rw [ofToken, ofToken, ih h]
  | group ts ih =>
      rw [ofToken, ofToken, ofTokens_congr fun t ht => ih t ht fun text htext =>
        h text (hmember ht htext)]
  | choice ts ih =>
      rw [ofToken, ofToken, ofTokens_congr fun t ht => ih t ht fun text htext =>
        h text (hmember ht htext)]

theorem ofQuery_congr (h : v.AgreeOn w (namedKinds query)) : ofQuery v query = ofQuery w query := by
  unfold ofQuery
  cases hread : Token.read query with
  | error e => rfl
  | ok tokens? =>
      cases tokens? with
      | none => rfl
      | some ts =>
          have htoken : ofToken v (Token.gather ts) = ofToken w (Token.gather ts) := by
            apply ofToken_congr
            intro text htext
            rw [Token.texts_gather, Token.textsAll_of_read hread] at htext
            exact ofWord_congr (h _ (List.mem_map_of_mem htext))
          simp only [Except.bind, htoken]

theorem map_fst_of_spells {words : List String} {ls : List (String × Value)}
    (h : List.Forall₂ (Spells v) words ls) : ls.map Prod.fst = words.map namedKind := by
  induction h with
  | nil => rfl
  | cons hword _ ih => rw [List.map_cons, List.map_cons, ih, hword.named.1]

-- The leaves of a query are of the kinds that it names.
theorem kinds_of_ofQuery (h : ofQuery v query = .ok (some c)) : c.kinds = namedKinds query :=
  map_fst_of_spells (spells_of_ofQuery h)

-- A query that is accepted names no unknown kind.
theorem exists_kind_of_ofQuery {name : String} {c? : Option Condition}
    (h : ofQuery v query = .ok c?) (hname : name ∈ namedKinds query) :
    ∃ kind, v.get? name = some kind := by
  obtain ⟨word, hword, rfl⟩ := List.mem_map.mp hname
  cases c? with
  | none =>
      rw [Text.words_eq_nil_iff.mpr (ofQuery_eq_none.mp h)] at hword
      cases hword
  | some c =>
      have hspells := spells_of_ofQuery h
      obtain ⟨i, hi, rfl⟩ := List.getElem_of_mem hword
      exact (hspells.get hi (hspells.length_eq ▸ hi)).named.2

end Query

end SearchQuery.Condition
