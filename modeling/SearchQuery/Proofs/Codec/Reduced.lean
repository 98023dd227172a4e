import Mathlib.Order.Lattice
import SearchQuery.Proofs.Codec.Literal
import SearchQuery.Proofs.Numeral.Written

-- What reduced comparisons say. A bound that is moved by a step and an opposite that is negated
-- both say the same as the comparison that was written. A step fails only where there is no
-- integer to move to.

namespace SearchQuery

-- What an operator says of two things of an ordered type.
def Operator.Relates {α : Type} [LE α] [LT α] : Operator → α → α → Prop
  | equal, x, y => x = y
  | notEqual, x, y => x ≠ y
  | less, x, y => x < y
  | atMost, x, y => x ≤ y
  | atLeast, x, y => y ≤ x
  | greater, x, y => y < x

-- What a reduced comparison says. A flag that is set turns it into its opposite.
def StrictOperator.Says {α : Type} [LE α] [LT α] (op : StrictOperator) (negated : Option Bool)
    (x y : α) : Prop :=
  if negated = some true then ¬op.widen.Relates x y else op.widen.Relates x y

namespace Codec

open SearchQuery.Text SearchQuery.Numeral

-- An integer with no neighbour on the side to which the operator moves it.
def Outermost (op : Operator) (n : Int64) : Prop :=
  op = .atLeast ∧ n = Int64.minValue ∨ op = .atMost ∧ n = Int64.maxValue

section Steps

-- A step leads to an integer at that distance, if there is one.
theorem stepInt_cases (n : Int64) (diff : Int) :
    (∃ m : Int64, m.toInt = n.toInt + diff ∧ stepInt (.integer n) diff = .ok (.integer m)) ∨
      (¬(-0x8000000000000000 ≤ n.toInt + diff ∧ n.toInt + diff < 0x8000000000000000) ∧
        ∃ what, stepInt (.integer n) diff = .error (.outOfRange what)) := by
  simp only [stepInt]
  split
  · next hrange =>
    simp only [Bool.and_eq_true, decide_eq_true_eq] at hrange
    exact .inl ⟨_, Int64.toInt_ofInt_of_le hrange.1 hrange.2, rfl⟩
  · next hrange =>
    simp only [Bool.and_eq_true, decide_eq_true_eq] at hrange
    exact .inr ⟨hrange, _, rfl⟩

-- Next to an integer there is nothing that the moved and strict comparison could tell apart
-- from the one that was written.
theorem reduce_stepInt_cases (op : Operator) (n : Int64) :
    (Outermost op n ∧
        ∃ what, reduce (some stepInt) op (.integer n) = .error (.outOfRange what)) ∨
      (¬Outermost op n ∧
        ∃ strict m, reduce (some stepInt) op (.integer n) = .ok (.reduced strict (.integer m) none) ∧
          ∀ x : Int64, strict.Says none x m ↔ op.Relates x n) := by
  have hlow := n.le_toInt
  have hhigh := n.toInt_lt
  cases op with
  | atLeast =>
      rcases stepInt_cases n (-1) with ⟨m, hm, hstep⟩ | ⟨hrange, what, hstep⟩
      · refine .inr ⟨?_, .greater, m, by rw [reduce, hstep]; rfl, fun x => ?_⟩
        · rintro (⟨-, rfl⟩ | ⟨hop, -⟩)
          · have hleast := m.le_toInt
            rw [Int64.toInt_minValue] at hm
            omega
          · cases hop
        · show m < x ↔ n ≤ x
          rw [Int64.lt_iff_toInt_lt, Int64.le_iff_toInt_le]
          omega
      · refine .inl ⟨.inl ⟨rfl, ?_⟩, what, by rw [reduce, hstep]; rfl⟩
        rw [← Int64.toInt_inj, Int64.toInt_minValue]
        omega
  | atMost =>
      rcases stepInt_cases n 1 with ⟨m, hm, hstep⟩ | ⟨hrange, what, hstep⟩
      · refine .inr ⟨?_, .less, m, by rw [reduce, hstep]; rfl, fun x => ?_⟩
        · rintro (⟨hop, -⟩ | ⟨-, rfl⟩)
          · cases hop
          · have hgreatest := m.toInt_lt
            rw [Int64.toInt_maxValue] at hm
            omega
        · show x < m ↔ x ≤ n
          rw [Int64.lt_iff_toInt_lt, Int64.le_iff_toInt_le]
          omega
      · refine .inl ⟨.inr ⟨rfl, ?_⟩, what, by rw [reduce, hstep]; rfl⟩
        rw [← Int64.toInt_inj, Int64.toInt_maxValue]
        omega
  | equal => exact .inr ⟨by simp [Outermost], .equal, n, rfl, fun _ => Iff.rfl⟩
  | notEqual => exact .inr ⟨by simp [Outermost], .notEqual, n, rfl, fun _ => Iff.rfl⟩
  | less => exact .inr ⟨by simp [Outermost], .less, n, rfl, fun _ => Iff.rfl⟩
  | greater => exact .inr ⟨by simp [Outermost], .greater, n, rfl, fun _ => Iff.rfl⟩

end Steps

section Flags

-- In a total order the opposite of being below is being at least.
theorem reduce_none (op : Operator) (value : Value) :
    ∃ strict negated, reduce none op value = .ok (.reduced strict value (some negated)) ∧
      ∀ {α : Type} [LinearOrder α] (x y : α), strict.Says (some negated) x y ↔ op.Relates x y := by
  cases op with
  | atLeast => exact ⟨.less, true, rfl, fun x y => not_lt⟩
  | atMost => exact ⟨.greater, true, rfl, fun x y => not_lt⟩
  | equal => exact ⟨.equal, false, rfl, fun _ _ => Iff.rfl⟩
  | notEqual => exact ⟨.notEqual, false, rfl, fun _ _ => Iff.rfl⟩
  | less => exact ⟨.less, false, rfl, fun _ _ => Iff.rfl⟩
  | greater => exact ⟨.greater, false, rfl, fun _ _ => Iff.rfl⟩

end Flags

section Text

theorem parse_int_toString (n : Int64) : int.parse (toString n) = .ok (.integer n) := by
  have htext : (toString n).toList = integerText n.toInt := toList_toString n.toInt
  have hblank := not_blank_of_writesInteger (writesInteger_integerText n.toInt)
  show (parseInt64 (toString n)).map Value.integer = _
  rw [parseInt64, htext, trimChars_of_not_blank hblank, readInt64_integerText]
  rfl

theorem head?_toString_ne (n : Int64) : (toString n).toList.head? ≠ some '=' := by
  have htext : (toString n).toList = integerText n.toInt := toList_toString n.toInt
  intro hhead
  rw [htext] at hhead
  rcases eq_minus_or_isDigit_of_mem_integerText (List.mem_of_head? hhead) with h | h
  · cases h
  · cases h

theorem parse_withReducedOperator (base : Codec) (step? : Option Step) (input : String) :
    (base.withReducedOperator step?).parse input =
      (base.parseLiteral input).bind fun (op, v) => reduce step? op v :=
  rfl

theorem parse_reduced_toString (op : Operator) (n : Int64) :
    (int.withReducedOperator (some stepInt)).parse (op.symbol ++ toString n) =
      reduce (some stepInt) op (.integer n) := by
  rw [parse_withReducedOperator, parseLiteral_symbol int op fun _ => head?_toString_ne n,
    parse_int_toString]
  rfl

end Text

-- An operator before the text of an integer is refused only if it would move the outermost
-- integer outwards. Otherwise, and for values of any sort that stay where they are, what is read
-- says the same as the operator, of integers in the one case and in any total order of values, or
-- of what they are ordered by, in the other.
theorem says_iff_relates (op : Operator) :
    (∀ n : Int64,
        let outcome := (int.withReducedOperator (some stepInt)).parse (op.symbol ++ toString n)
        (Outermost op n → ∃ what, outcome = .error (.outOfRange what)) ∧
          (¬Outermost op n →
            ∃ strict m, outcome = .ok (.reduced strict (.integer m) none) ∧
              ∀ x : Int64, strict.Says none x m ↔ op.Relates x n)) ∧
      ∀ value : Value,
        ∃ strict negated, reduce none op value = .ok (.reduced strict value (some negated)) ∧
          ∀ (α : Type) [LinearOrder α] (key : Value → α) (x : Value),
            strict.Says (some negated) (key x) (key value) ↔ op.Relates (key x) (key value) := by
  constructor
  · intro n outcome
    have houtcome : outcome = reduce (some stepInt) op (.integer n) := parse_reduced_toString op n
    rw [houtcome]
    rcases reduce_stepInt_cases op n with ⟨houter, hfail⟩ | ⟨hinner, hok⟩
    · exact ⟨fun _ => hfail, fun h => absurd houter h⟩
    · exact ⟨fun h => absurd h hinner, fun _ => hok⟩
  · intro value
    obtain ⟨strict, negated, hreduce, hsays⟩ := reduce_none op value
    exact ⟨strict, negated, hreduce, fun α _ key x => hsays (key x) (key value)⟩

-- The two ends of the integers.
theorem says_iff_relates_ends :
    Outermost .atMost Int64.maxValue ∧ ¬Outermost .atLeast Int64.maxValue ∧
      (∃ what, (int.withReducedOperator (some stepInt)).parse "<=9223372036854775807" =
        .error (.outOfRange what)) ∧
      ∃ strict m, (int.withReducedOperator (some stepInt)).parse ">=9223372036854775807" =
          .ok (.reduced strict (.integer m) none) ∧
        ∀ x : Int64, strict.Says none x m ↔ Int64.maxValue ≤ x := by
  have houter : Outermost .atMost Int64.maxValue := .inr ⟨rfl, rfl⟩
  have hinner : ¬Outermost .atLeast Int64.maxValue := by
    unfold Outermost
    decide
  exact ⟨houter, hinner, ((says_iff_relates .atMost).1 Int64.maxValue).1 houter,
    ((says_iff_relates .atLeast).1 Int64.maxValue).2 hinner⟩

end Codec

end SearchQuery
