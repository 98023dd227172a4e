import SearchQuery.Codec.Compared

-- Values with operators as they are written. An operator, put before a text, is found there unless
-- the text makes it a longer one, and the text is left for the codec of bare values.

namespace SearchQuery

variable {cs : List Char} {text : String}

-- Only `<` and `>` could take a sign of equality from the text that follows them.
theorem Operator.splitChars_symbol (op : Operator)
    (h : op = less ∨ op = greater → cs.head? ≠ some '=') :
    splitChars (op.symbol.toList ++ cs) = (op, cs) := by
  cases op with
  | less =>
      have hne := h (.inl rfl)
      show splitChars ('<' :: cs) = _
      rw [splitChars]
      rintro rest rfl
      exact hne rfl
  | greater =>
      have hne := h (.inr rfl)
      show splitChars ('>' :: cs) = _
      rw [splitChars]
      rintro rest rfl
      exact hne rfl
  | equal => rfl
  | notEqual => rfl
  | atMost => rfl
  | atLeast => rfl

theorem Operator.split_symbol (op : Operator)
    (h : op = less ∨ op = greater → text.toList.head? ≠ some '=') :
    split (op.symbol ++ text) = (op, text) := by
  rw [split, String.toList_append, splitChars_symbol op h]
  exact congrArg (Prod.mk op) String.ofList_toList

-- An operator and what follows it are one operator and what it leaves: `<` and `>` before a sign of
-- equality are the longer operators that they begin.
theorem Operator.exists_symbol_append (op : Operator) (cs : List Char) :
    ∃ (whole : Operator) (rest : List Char),
      op.symbol.toList ++ cs = whole.symbol.toList ++ rest ∧
        (whole = less ∨ whole = greater → rest.head? ≠ some '=') := by
  by_cases hcut : (op = less ∨ op = greater) ∧ cs.head? = some '='
  · obtain ⟨hop, hhead⟩ := hcut
    obtain ⟨rest, rfl⟩ := List.head?_eq_some_iff.mp hhead
    rcases hop with rfl | rfl
    · exact ⟨atMost, rest, rfl, by simp⟩
    · exact ⟨atLeast, rest, rfl, by simp⟩
  · exact ⟨op, cs, rfl, fun hop hhead => hcut ⟨hop, hhead⟩⟩

theorem Operator.splitChars_of_absent (h : ∀ op : Operator, ¬op.symbol.toList <+: cs) :
    splitChars cs = (equal, cs) := by
  unfold splitChars
  split
  · exact absurd (List.prefix_append _ _) (h notEqual)
  · exact absurd (List.prefix_append _ _) (h atMost)
  · exact absurd (List.prefix_append _ _) (h atLeast)
  · exact absurd (List.prefix_append _ _) (h equal)
  · exact absurd (List.prefix_append _ _) (h less)
  · exact absurd (List.prefix_append _ _) (h greater)
  · rfl

theorem Operator.split_of_absent (h : ∀ op : Operator, ¬op.symbol.toList <+: text.toList) :
    split text = (equal, text) := by
  rw [split, splitChars_of_absent h]
  exact congrArg (Prod.mk equal) String.ofList_toList

-- A text is split in one way only: behind the operator that it begins with, or not at all.
theorem Operator.split_eq_iff {op : Operator} {rest : String} :
    split text = (op, rest) ↔
      (text = op.symbol ++ rest ∧ (op = less ∨ op = greater → rest.toList.head? ≠ some '=')) ∨
        (op = equal ∧ rest = text ∧ ∀ o : Operator, ¬o.symbol.toList <+: text.toList) := by
  constructor
  · intro hsplit
    by_cases hstart : ∃ o : Operator, o.symbol.toList <+: text.toList
    · obtain ⟨o, cs, hcs⟩ := hstart
      obtain ⟨whole, left, hwhole, hcut⟩ := exists_symbol_append o cs
      have htext : text = whole.symbol ++ String.ofList left := by
        rw [← String.toList_inj, ← hcs, hwhole, String.toList_append, String.toList_ofList]
      have hleft : whole = less ∨ whole = greater → (String.ofList left).toList.head? ≠ some '=' := by
        rwa [String.toList_ofList]
      rw [htext, split_symbol whole hleft] at hsplit
      cases hsplit
      exact .inl ⟨htext, hleft⟩
    · have habsent : ∀ o : Operator, ¬o.symbol.toList <+: text.toList := not_exists.mp hstart
      rw [split_of_absent habsent] at hsplit
      cases hsplit
      exact .inr ⟨rfl, rfl, habsent⟩
  · rintro (⟨rfl, h⟩ | ⟨rfl, rfl, habsent⟩)
    · exact split_symbol op h
    · exact split_of_absent habsent

theorem Codec.parseLiteral_symbol (base : Codec) (op : Operator)
    (h : op = .less ∨ op = .greater → text.toList.head? ≠ some '=') :
    base.parseLiteral (op.symbol ++ text) = (base.parse text).map fun v => (op, v) := by
  rw [parseLiteral, Operator.split_symbol op h]

-- Operators are split off in one way, and the text after an operator is read as the codec of bare
-- values reads it.
theorem Codec.split_eq_iff_and_parse_withOperator :
    (∀ (text : String) (op : Operator) (rest : String),
        Operator.split text = (op, rest) ↔
          (text = op.symbol ++ rest ∧
              (op = .less ∨ op = .greater → rest.toList.head? ≠ some '=')) ∨
            (op = .equal ∧ rest = text ∧ ∀ o : Operator, ¬o.symbol.toList <+: text.toList)) ∧
      ∀ (base : Codec) (op : Operator) (text : String),
        (op = .less ∨ op = .greater → text.toList.head? ≠ some '=') →
          base.withOperator.parse (op.symbol ++ text) =
            (base.parse text).map fun v => .comparison op v := by
  refine ⟨fun text op rest => Operator.split_eq_iff, fun base op text h => ?_⟩
  show (base.parseLiteral (op.symbol ++ text)).map _ = _
  rw [parseLiteral_symbol base op h]
  cases base.parse text <;> rfl

theorem Codec.split_eq_iff_and_parse_withOperator_overlaps :
    Operator.split "<==7" = (.atMost, "=7") ∧ Operator.split "! 7" = (.equal, "! 7") ∧
      string.withOperator.parse "<-7" = .ok (.comparison .less (.text "-7")) ∧
      int.withOperator.parse "!==7" = .error (.notANumber "=7") := by
  obtain ⟨hsplit, hparse⟩ := split_eq_iff_and_parse_withOperator
  have habsent : ∀ o : Operator, ¬o.symbol.toList <+: "! 7".toList := by
    intro o
    cases o <;> decide
  have hvalue : int.parse "=7" = .error (.notANumber "=7") := rfl
  have hrefused := hparse int .notEqual "=7" (by decide)
  rw [hvalue] at hrefused
  exact ⟨(hsplit _ _ _).mpr (.inl ⟨by decide, by decide⟩),
    (hsplit _ _ _).mpr (.inr ⟨rfl, rfl, habsent⟩),
    hparse string .less "-7" (by decide), hrefused⟩

end SearchQuery
