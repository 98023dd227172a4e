import Mathlib.Data.List.Induction
import SearchQuery.Condition.Simplify
import SearchQuery.Proofs.Tree

-- What is left of the operands of a condition in its simplest form: some of them, at least
-- one, and one for each that was left out.

namespace SearchQuery.Condition

section Distinct

variable {v : Vocabulary} {c k : Condition} {cs kept : List Condition}

theorem distinct_concat (v : Vocabulary) (cs : List Condition) (c : Condition) :
    distinct v (cs ++ [c]) = addDistinct v (distinct v cs) c := by
  simp [distinct, List.foldl_append]

theorem addDistinct_of_equal (h : kept.any (fun earlier => equal v c earlier) = true) :
    addDistinct v kept c = kept := by
  simp only [addDistinct, h, if_true]

theorem addDistinct_of_not_equal (h : kept.any (fun earlier => equal v c earlier) = false) :
    addDistinct v kept c = kept ++ [c] := by
  simp [addDistinct, h]

theorem subset_addDistinct (v : Vocabulary) (kept : List Condition) (c : Condition) :
    kept ⊆ addDistinct v kept c := by
  cases h : kept.any (fun earlier => equal v c earlier) with
  | true => simp [addDistinct_of_equal h]
  | false => simp [addDistinct_of_not_equal h]

-- A condition is there after it was added, or else one that it equals.
theorem mem_addDistinct_or_equal (v : Vocabulary) (kept : List Condition) (c : Condition) :
    c ∈ addDistinct v kept c ∨ ∃ k ∈ kept, equal v c k = true := by
  cases hany : kept.any (fun earlier => equal v c earlier) with
  | true => exact .inr (List.any_eq_true.mp hany)
  | false =>
      rw [addDistinct_of_not_equal hany]
      exact .inl (by simp)

theorem addDistinct_sublist (v : Vocabulary) (kept : List Condition) (c : Condition) :
    (addDistinct v kept c).Sublist (kept ++ [c]) := by
  cases h : kept.any (fun earlier => equal v c earlier) with
  | true =>
      rw [addDistinct_of_equal h]
      exact List.sublist_append_left kept [c]
  | false => simp [addDistinct_of_not_equal h]

theorem distinct_sublist (v : Vocabulary) (cs : List Condition) :
    (distinct v cs).Sublist cs := by
  induction cs using List.reverseRecOn with
  | nil => exact .slnil
  | append_singleton cs c ih =>
      rw [distinct_concat]
      exact (addDistinct_sublist v _ c).trans (ih.append_right [c])

theorem distinct_subset (v : Vocabulary) (cs : List Condition) : distinct v cs ⊆ cs :=
  (distinct_sublist v cs).subset

theorem mem_distinct_or_equal (h : c ∈ cs) :
    c ∈ distinct v cs ∨ ∃ k ∈ distinct v cs, equal v c k = true := by
  induction cs using List.reverseRecOn with
  | nil => cases h
  | append_singleton cs last ih =>
      rw [distinct_concat]
      have hsub := subset_addDistinct v (distinct v cs) last
      rcases List.mem_append.mp h with h | h
      · rcases ih h with hc | ⟨k, hk, heq⟩
        · exact .inl (hsub hc)
        · exact .inr ⟨k, hsub hk, heq⟩
      · obtain rfl : c = last := List.mem_singleton.mp h
        rcases mem_addDistinct_or_equal v (distinct v cs) c with hc | ⟨k, hk, heq⟩
        · exact .inl hc
        · exact .inr ⟨k, hsub hk, heq⟩

theorem distinct_eq_nil_iff : distinct v cs = [] ↔ cs = [] := by
  constructor
  · intro hnil
    refine List.eq_nil_iff_forall_not_mem.mpr fun c hc => ?_
    rcases mem_distinct_or_equal (v := v) hc with hc | ⟨k, hk, -⟩
    · exact List.ne_nil_of_mem hc hnil
    · exact List.ne_nil_of_mem hk hnil
  · rintro rfl
    rfl

end Distinct

section Combine

variable {node : List Condition → Condition} {c : Condition} {ks : List Condition}

theorem combine_eq_none_iff : combine node ks = none ↔ ks = [] := by
  match ks with
  | [] => exact iff_of_true rfl rfl
  | [k] => exact iff_of_false (Option.some_ne_none k) (List.cons_ne_nil _ _)
  | k :: l :: ks => exact iff_of_false (Option.some_ne_none _) (List.cons_ne_nil _ _)

-- A single operand stands for itself, and two or more are combined.
theorem eq_of_combine (h : combine node ks = some c) :
    ks = [c] ∨ c = node ks ∧ 2 ≤ ks.length := by
  cases ks with
  | nil => cases h
  | cons k ks =>
      cases ks with
      | nil =>
          cases h
          exact .inl rfl
      | cons l ks =>
          cases h
          exact .inr ⟨rfl, by simp⟩

end Combine

section Simplify

variable {v : Vocabulary} {c c' : Condition} {cs : List Condition}
  {node : List Condition → Condition}

theorem mem_simplifyAll : c' ∈ simplifyAll v cs ↔ ∃ c ∈ cs, simplify v c = some c' := by
  rw [simplifyAll_eq_filterMap, List.mem_filterMap]

theorem combine_distinct_eq_none_iff :
    combine node (distinct v (simplifyAll v cs)) = none ↔ ∀ c ∈ cs, simplify v c = none := by
  rw [combine_eq_none_iff, distinct_eq_nil_iff, simplifyAll_eq_filterMap,
    List.filterMap_eq_nil_iff]

-- Absence goes up from operands only if it is theirs all.
theorem simplify_eq_none_iff : simplify v c = none ↔ c.leaves = [] := by
  induction c with
  | not c ih =>
      rw [simplify, Option.map_eq_none_iff, ih]
      rfl
  | and cs ih =>
      rw [simplify, combine_distinct_eq_none_iff, leaves, leavesAll_eq_nil_iff]
      exact forall₂_congr ih
  | or cs ih =>
      rw [simplify, combine_distinct_eq_none_iff, leaves, leavesAll_eq_nil_iff]
      exact forall₂_congr ih
  | leaf kind value => exact iff_of_false (Option.some_ne_none _) (List.cons_ne_nil _ _)

section Leaves

variable {odd : Bool} {ks : List Condition}

theorem signedLeaves_negate (odd : Bool) (c : Condition) :
    signedLeaves odd (negate c) = signedLeaves (!odd) c := by
  cases c with
  | not c => rw [negate, signedLeaves, Bool.not_not]
  | and cs => rfl
  | or cs => rfl
  | leaf kind value => rfl

theorem signedLeavesAll_sublist (odd : Bool) (h : ks.Sublist cs) :
    (signedLeavesAll odd ks).Sublist (signedLeavesAll odd cs) := by
  induction h with
  | slnil => exact .slnil
  | cons c _ ih => exact ih.trans (List.sublist_append_right _ _)
  | cons_cons c _ ih => exact ih.append_left _

theorem signedLeavesAll_simplifyAll
    (h : ∀ c ∈ cs, ∀ c', simplify v c = some c' →
      (signedLeaves odd c').Sublist (signedLeaves odd c)) :
    (signedLeavesAll odd (simplifyAll v cs)).Sublist (signedLeavesAll odd cs) := by
  induction cs with
  | nil => exact .slnil
  | cons c cs ih =>
      obtain ⟨hc, hcs⟩ := List.forall_mem_cons.mp h
      rw [simplifyAll]
      cases hsimplify : simplify v c with
      | none => exact (ih hcs).trans (List.sublist_append_right _ _)
      | some c' => exact (hc c' hsimplify).append (ih hcs)

theorem signedLeaves_combine (hnode : ∀ ks, signedLeaves odd (node ks) = signedLeavesAll odd ks)
    (hcs : ∀ c ∈ cs, ∀ c', simplify v c = some c' →
      (signedLeaves odd c').Sublist (signedLeaves odd c))
    (h : combine node (distinct v (simplifyAll v cs)) = some c') :
    (signedLeaves odd c').Sublist (signedLeavesAll odd cs) := by
  have hkept : signedLeaves odd c' = signedLeavesAll odd (distinct v (simplifyAll v cs)) := by
    rcases eq_of_combine h with hone | ⟨rfl, -⟩
    · rw [hone, signedLeavesAll, signedLeavesAll, List.append_nil]
    · exact hnode _
  have hdistinct := signedLeavesAll_sublist odd (distinct_sublist v (simplifyAll v cs))
  rw [hkept]
  exact hdistinct.trans (signedLeavesAll_simplifyAll hcs)

-- By induction on the condition, with either sign: the negation that goes away takes one
-- more with it.
theorem signedLeaves_simplify (h : simplify v c = some c') (odd : Bool) :
    (signedLeaves odd c').Sublist (signedLeaves odd c) := by
  induction c generalizing c' odd with
  | not c ih =>
      obtain ⟨o, ho, rfl⟩ := Option.map_eq_some_iff.mp h
      rw [signedLeaves_negate]
      exact ih ho (!odd)
  | and cs ih => exact signedLeaves_combine (fun _ => rfl) (fun o ho _ hform => ih o ho hform odd) h
  | or cs ih => exact signedLeaves_combine (fun _ => rfl) (fun o ho _ hform => ih o ho hform odd) h
  | leaf kind value =>
      cases h
      exact List.Sublist.refl _

-- No leaf appears that was not there.
theorem leaves_simplify (h : simplify v c = some c') : c'.leaves ⊆ c.leaves := by
  rw [← map_fst_signedLeaves false c, ← map_fst_signedLeaves false c']
  exact List.map_subset _ (signedLeaves_simplify h false).subset

theorem leavesAll_simplifyAll_subset (v : Vocabulary) (cs : List Condition) :
    leavesAll (simplifyAll v cs) ⊆ leavesAll cs := by
  intro l hl
  rw [leavesAll_eq_flatMap, List.mem_flatMap] at hl ⊢
  obtain ⟨c', hc', hl⟩ := hl
  obtain ⟨c, hc, hcc'⟩ := mem_simplifyAll.mp hc'
  exact ⟨c, hc, leaves_simplify hcc' hl⟩

end Leaves

end Simplify

end SearchQuery.Condition
