import SearchQuery.Proofs.Query.Interchangeable
import SearchQuery.Proofs.Query.Typed

-- The two ways to negate a word, by a dash and by `not:`. The dash is taken by the token of the
-- word and `not:` by its condition, which comes to the same wherever the word stands.

namespace SearchQuery.Condition

open Token (IsPlain SameWord dashed)

variable {v : Vocabulary} {text before after : String}

theorem ofWord_not (v : Vocabulary) (h : Text.isBlank text = false) :
    ofWord v ("not:" ++ text) = (ofWord v text).map not := by
  have hchars : ("not:" ++ text).toList = 'n' :: 'o' :: 't' :: ':' :: text.toList :=
    String.toList_append
  have hfull : ¬text.toList.all Text.isBlankChar = true := by
    rw [← Text.isBlank, h]
    exact Bool.false_ne_true
  rw [ofWord, hchars, ofWordChars, if_neg hfull, ofWord]

theorem isPlain_not (h : Text.IsWord text) :
    IsPlain ("not:" ++ text) ∧ "not:" ++ text ≠ "|" := by
  have hsplit : "not:" ++ text = "not" ++ (":" ++ text) := by
    rw [← String.append_assoc]
    rfl
  have hname : isKindName "not" = true := by decide
  rw [hsplit]
  exact isPlain_of_isKindName hname (not_blank_of_mem h (by simp))

theorem sameWord_not (v : Vocabulary) (h : IsPlain text) :
    SameWord v ("-" ++ text) ("not:" ++ text) := by
  obtain ⟨hnot, hbar⟩ := isPlain_not h.toIsWord
  have hdash : "-" ++ text = dashed 1 text := rfl
  have hnamed : "not:" ++ text = dashed 0 ("not:" ++ text) := (Token.dashed_zero _).symm
  have htoken : Token.Interchangeable v (.negated (.word text)) (.word ("not:" ++ text)) := by
    have hfull := Text.isBlank_of_isWord h.toIsWord
    refine ⟨hfull.trans (Text.isBlank_of_isWord hnot.toIsWord).symm, ?_, ?_⟩
    · exact (beq_eq_false_iff_ne.mpr hbar).symm
    · rw [ofToken, ofToken, ofToken, ofWord_not v hfull]
  refine .inr ⟨hdash ▸ Token.isText_dashed h 1, hnamed ▸ Token.isText_dashed hnot 0, ?_⟩
  rw [hdash, Token.dashes_dashed 1 h.no_dash, Token.withoutDashes_dashed 1 h.no_dash, hnamed,
    Token.dashes_dashed 0 hnot.no_dash, Token.withoutDashes_dashed 0 hnot.no_dash]
  exact htoken

-- Wherever a word is negated by a dash, it may be negated by `not:`. Groups and choices are
-- right or wrong in the same way and at the same words, and the query asks for the same
-- condition or is refused with the same error.
theorem ofQuery_not (v : Vocabulary) (hapart : Text.Apart before after) (h : IsPlain text) :
    let dash := before ++ ("-" ++ text) ++ after
    let named := before ++ ("not:" ++ text) ++ after
    ((∃ tokens?, Token.read named = .ok tokens?) ↔ ∃ tokens?, Token.read dash = .ok tokens?) ∧
      (∀ e, Token.read dash = .error e → ∃ found : GroupingError,
        e = .grouping found.fault (Token.excerpt (Text.words dash) found) ∧
          Token.read named =
            .error (.grouping found.fault (Token.excerpt (Text.words named) found))) ∧
      ∀ tokens?, Token.read dash = .ok tokens? → ofQuery v named = ofQuery v dash := by
  intro dash named
  have hdash : Text.words dash = Text.words before ++ ("-" ++ text) :: Text.words after :=
    Text.words_append_of_apart hapart (Token.isWord_dashed 1 h.toIsWord)
  have hnamed : Text.words named = Text.words before ++ ("not:" ++ text) :: Text.words after :=
    Text.words_append_of_apart hapart (isPlain_not h.toIsWord).1.toIsWord
  have hwords : List.Forall₂ (SameWord v) (Text.words dash) (Text.words named) := by
    rw [hdash, hnamed]
    exact Token.forall₂_sameWord (sameWord_not v h) _ _
  rcases read_eq_error_or_ofQuery_eq hwords with
    ⟨found, hread, hother⟩ | ⟨⟨tokens?, others?, hread, hother⟩, hquery⟩
  · rw [hread, hother]
    refine ⟨iff_of_false nofun nofun, fun e he => ?_, nofun⟩
    cases he
    exact ⟨found, rfl, rfl⟩
  · rw [hread, hother]
    exact ⟨iff_of_true ⟨_, rfl⟩ ⟨_, rfl⟩, nofun, fun _ _ => hquery.symm⟩

-- A word that is negated already, in a branch of a choice, a value that cannot be read, and a bar
-- that is none in a query whose group is not begun.
theorem ofQuery_not_nested :
    let v : Vocabulary := ⟨(NameMap.empty.insert "b" .flag).insert "n" (Kind.ofCodec .int)⟩
    let c := or [flag "b", not (and [not (not (flag "b")), flag "b"])]
    Text.Apart "b | -( " "\tb )" ∧ IsPlain "not:b" ∧ IsPlain "n:x" ∧
      ofQuery v "b | -( -not:b\tb )" = .ok (some c) ∧
      ofQuery v "b | -( not:not:b\tb )" = .ok (some c) ∧
      ofQuery v "b | -( -n:x\tb )" = .error (.invalidValue "n:x" (.notANumber "x")) ∧
      ofQuery v "b | -( not:n:x\tb )" = .error (.invalidValue "n:x" (.notANumber "x")) ∧
      Text.Apart "" " )" ∧ IsPlain "|" ∧
      Token.read "-| )" = .error (.grouping .unopened "-| )") ∧
      ∃ excerpt, Token.read "not:| )" = .error (.grouping .unopened excerpt) := by
  intro v c
  have hapart : Text.Apart "b | -( " "\tb )" := ⟨by decide, by decide⟩
  have hends : Text.Apart "" " )" := ⟨by decide, by decide⟩
  have hb : IsPlain "not:b" := by decide
  have hn : IsPlain "n:x" := by decide
  have hbar : IsPlain "|" := by decide
  have hread : Token.read "b | -( -not:b\tb )" = .ok (some [.choice [.word "b",
      .negated (.group [.negated (.word "not:b"), .word "b"])]]) := by
    cbv
  have hvalue : Token.read "b | -( -n:x\tb )" = .ok (some [.choice [.word "b",
      .negated (.group [.negated (.word "n:x"), .word "b"])]]) := by
    cbv
  have hrefused : Token.read "-| )" = .error (.grouping .unopened "-| )") := by cbv
  have hc : ofQuery v "b | -( -not:b\tb )" = .ok (some c) := by cbv
  have herror : ofQuery v "b | -( -n:x\tb )" = .error (.invalidValue "n:x" (.notANumber "x")) := by
    cbv
  obtain ⟨-, -, hsame⟩ := ofQuery_not v hapart hb
  obtain ⟨-, -, hwrong⟩ := ofQuery_not v hapart hn
  obtain ⟨-, hfault, -⟩ := ofQuery_not v hends hbar
  obtain ⟨found, he, hother⟩ := hfault _ hrefused
  have hunopened : found.fault = .unopened := (QueryError.grouping.inj he).1.symm
  rw [hunopened] at hother
  exact ⟨hapart, hb, hn, hc, (hsame _ hread).trans hc, herror, (hwrong _ hvalue).trans herror,
    hends, hbar, hrefused, _, hother⟩

end SearchQuery.Condition
