import Mathlib.Algebra.Group.Nat.Even
import Mathlib.Logic.Function.Iterate
import SearchQuery.Proofs.Simplify.Canonical

-- What negations come to in simplest forms. Every leaf that is left has the sign that it had,
-- and of negations on top of each other only the parity shows.

namespace SearchQuery.Condition

variable {v : Vocabulary} {c c' : Condition}

-- A simplest form has leaves, all of them leaves of the condition with their kinds, their values
-- and their signs, in the order in which they were.
theorem signedLeaves_of_simplify (h : simplify v c = some c') :
    signedLeaves false c' ≠ [] ∧ (signedLeaves false c').Sublist (signedLeaves false c) := by
  refine ⟨fun hnil => ?_, signedLeaves_simplify h false⟩
  have hleaves : c'.leaves = [] := by
    rw [← map_fst_signedLeaves false, hnil]
    rfl
  have hfixed := simplify_of_canonical (canonical_of_simplify h)
  rw [simplify_eq_none_iff.mpr hleaves] at hfixed
  cases hfixed

-- A negation of a group of which one operand is left, a negation itself, and a leaf beside its
-- own negation.
theorem signedLeaves_of_simplify_lifted :
    let v : Vocabulary := ⟨NameMap.empty.insert "n" (Kind.ofCodec .int)⟩
    let n := leaf "n" (.integer 7)
    let c := and [not (and [not n, or [], not n]), flag "b", not (not (not (flag "b")))]
    let c' := and [n, flag "b", not (flag "b")]
    simplify v c = some c' ∧
      signedLeaves false c' = [(("n", .integer 7), false), (("b", .unit), false),
        (("b", .unit), true)] ∧
      (signedLeaves false c').Sublist (signedLeaves false c) ∧
      (signedLeaves false c).length = 4 := by
  intro v n c c'
  have hsimplify : simplify v c = some c' := rfl
  exact ⟨hsimplify, rfl, (signedLeaves_of_simplify hsimplify).2, rfl⟩

section Stacked

-- A negation that is left has none under it, so to negate twice gives the same again.
theorem negate_negate (h : Settled v c) : negate (negate c) = c := by
  cases c with
  | not c => exact negate_of_settled h
  | and cs => rfl
  | or cs => rfl
  | leaf kind value => rfl

theorem simplify_not_not (v : Vocabulary) (c : Condition) :
    simplify v (not (not c)) = simplify v c := by
  rw [simplify, simplify, Option.map_map]
  cases h : simplify v c with
  | none => rfl
  | some c' =>
      have hsettled : Settled v c' := (canonical_iff.mp (canonical_of_simplify h)).1
      exact congrArg some (negate_negate hsettled)

-- However many negations there are on top of a condition, it is simplified as if there were
-- none or one.
theorem simplify_iterate_not (v : Vocabulary) (c : Condition) (n : Nat) :
    simplify v (not^[n] c) = if Even n then simplify v c else simplify v (not c) := by
  induction n with
  | zero => rfl
  | succ n ih =>
      rw [Function.iterate_succ_apply', simplify, ih]
      by_cases heven : Even n
      · have hodd : ¬Even (n + 1) := Nat.even_add_one.not.mpr (not_not.mpr heven)
        rw [if_pos heven, if_neg hodd, simplify]
      · rw [if_neg heven, if_pos (Nat.even_add_one.mpr heven), ← simplify, simplify_not_not]

-- What is under the negations may come to a negation itself, or to nothing.
example : simplify .empty (not^[5] (or [not (flag "a")])) = some (flag "a") ∧
    simplify .empty (not^[4] (or [and []])) = none :=
  ⟨rfl, rfl⟩

end Stacked

end SearchQuery.Condition
