import SearchQuery.Proofs.Token.Terms

-- Tokens as trees: induction over the members of groups and choices, and the texts in
-- tokens. The texts in the tokens of a query are its terms.

namespace SearchQuery.Token

-- What holds of every word, and of a token whenever it holds of the tokens in it, holds of
-- all tokens.
@[elab_as_elim, induction_eliminator]
theorem memberInduction {motive : Token → Prop}
    (word : ∀ text, motive (word text))
    (negated : ∀ t, motive t → motive (negated t))
    (group : ∀ ts, (∀ t ∈ ts, motive t) → motive (group ts))
    (choice : ∀ ts, (∀ t ∈ ts, motive t) → motive (choice ts)) (t : Token) : motive t :=
  @Token.rec motive (fun ts => ∀ t ∈ ts, motive t) word negated group choice
    (List.forall_mem_nil motive) (fun _ _ ht hts => List.forall_mem_cons.mpr ⟨ht, hts⟩) t

mutual

-- The texts in a token from left to right.
def texts : Token → List String
  | word text => [text]
  | negated token => texts token
  | group tokens => textsAll tokens
  | choice branches => textsAll branches

def textsAll : List Token → List String
  | [] => []
  | token :: tokens => texts token ++ textsAll tokens

end

theorem textsAll_eq_flatMap (ts : List Token) : textsAll ts = ts.flatMap texts := by
  induction ts with
  | nil => rfl
  | cons t ts ih => rw [textsAll, ih, List.flatMap_cons]

theorem texts_gather (ts : List Token) : texts (gather ts) = textsAll ts := by
  match ts with
  | [] => rfl
  | [t] => simp [gather, textsAll]
  | _ :: _ :: _ => rfl

-- A token is empty exactly if all texts in it, at any depth, are blank.
theorem isEmpty_iff {t : Token} :
    t.isEmpty = true ↔ ∀ text ∈ t.texts, Text.isBlank text = true := by
  have hall : ∀ ts : List Token,
      (∀ t ∈ ts, t.isEmpty = true ↔ ∀ text ∈ t.texts, Text.isBlank text = true) →
      (allEmpty ts = true ↔ ∀ text ∈ textsAll ts, Text.isBlank text = true) := by
    intro ts hts
    rw [allEmpty_eq_all, List.all_eq_true, textsAll_eq_flatMap, List.forall_mem_flatMap]
    exact forall₂_congr hts
  induction t with
  | word text => rw [isEmpty, texts, List.forall_mem_singleton]
  | negated t ih => exact ih
  | group ts ih => exact hall ts ih
  | choice ts ih => exact hall ts ih

-- A token that holds a word that is not blank holds a text.
theorem texts_ne_nil_of_full {t : Token} (h : t.isEmpty = false) : t.texts ≠ [] := by
  intro hnil
  have hempty : t.isEmpty = true := isEmpty_iff.mpr (by simp [hnil])
  rw [h] at hempty
  cases hempty

theorem map_fst_signedAll {ts : List Token}
    (h : ∀ t ∈ ts, ∀ n, (signed n t).map Prod.fst = texts t) (n : Nat) :
    (signedAll n ts).map Prod.fst = textsAll ts := by
  induction ts with
  | nil => rfl
  | cons t ts ih =>
      obtain ⟨ht, hts⟩ := List.forall_mem_cons.mp h
      rw [signedAll, List.map_append, ht, ih hts, textsAll]

theorem map_fst_signed (n : Nat) (t : Token) : (signed n t).map Prod.fst = texts t := by
  induction t generalizing n with
  | word text => rfl
  | negated t ih => exact ih (n + 1)
  | group ts ih => exact map_fst_signedAll (fun t ht n => ih t ht n) n
  | choice ts ih => exact map_fst_signedAll (fun t ht n => ih t ht n) n

theorem Reads.textsAll_eq {words : List String} {found ts : List Token} (h : Reads words found)
    (hwords : ∀ w ∈ words, Text.IsWord w) (hresolve : resolve found = .ok ts) :
    textsAll ts = terms words := by
  have hsigned : (signedAll 0 ts).map Prod.fst = textsAll ts :=
    map_fst_signedAll (fun t _ n => map_fst_signed n t) 0
  rw [← hsigned, h.signedAll_eq hwords hresolve, map_fst_signedTerms]

theorem textsAll_of_read {query : String} {ts : List Token} (h : Token.read query = .ok (some ts)) :
    textsAll ts = terms (Text.words query) := by
  obtain ⟨-, found, hreads, hresolve⟩ := read_eq_ok.mp h
  exact hreads.textsAll_eq (fun w hw => Text.isWord_of_mem_words hw) hresolve

end SearchQuery.Token
