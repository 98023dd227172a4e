import SearchQuery.Proofs.Order.Oriented

-- When the order of operands matters. Operands in another arrangement can be paired off with
-- themselves, but each takes the first partner that it is level with, and may so take one
-- that another operand needs. No arrangement ever fails exactly if being level is
-- transitive among the operands.

namespace SearchQuery.Condition

variable {v : Vocabulary} {a b c : Condition} {xs ys ops : List Condition}

section Operands

-- Conditions that are made of some leaves turn over where these leaves do.
theorem oriented_leaves {ls : List (String × Value)}
    (hleaf : ∀ kind, OrientedOn (v.compareValues kind) fun x => (kind, x) ∈ ls) :
    OrientedOn (compare v) fun c => c.leaves ⊆ ls := by
  apply oriented_compare
  · intro c hc o ho
    exact List.Subset.trans (leaves_operand_subset ho) hc
  · exact fun kind => (hleaf kind).mono fun x hx => hx List.mem_cons_self

theorem oriented_operands
    (hleaf : ∀ kind, OrientedOn (v.compareValues kind) fun x => (kind, x) ∈ leavesAll ops) :
    OrientedOn (compare v) fun c => c ∈ ops :=
  (oriented_leaves hleaf).mono fun _ h => leaves_subset_leavesAll h

end Operands

section Arrangements

-- Where being level is transitive, no operand takes a partner that another one needs.
theorem sameElements_of_perm (hor : OrientedOn (compare v) fun c => c ∈ xs)
    (htrans : ∀ a ∈ xs, ∀ b ∈ xs, ∀ c ∈ xs,
      compare v a b = .eq → compare v b c = .eq → compare v a c = .eq)
    (h : xs.Perm ys) : sameElements (equal v) xs ys = true := by
  have hmem : ∀ y ∈ ys, y ∈ xs := fun y hy => h.mem_iff.mpr hy
  apply sameElements_of_rel
  · intro a ha b hb c hc d hd had hac hbc
    rw [equal_iff] at had hac hbc ⊢
    have hca := hor.eq_symm ha (hmem c hc) hac
    have hba := htrans b hb c (hmem c hc) a ha hbc hca
    exact htrans b hb a ha d (hmem d hd) hba had
  · rw [← Multiset.coe_eq_coe.mpr h]
    exact Multiset.rel_refl_of_refl_on fun a ha => equal_iff.mpr (hor.self (Multiset.mem_coe.mp ha))

-- If `a` and `c` are level with `b` but not with each other, `a` takes `b` and leaves `b` with
-- `c`, and `c` finds nothing but `a`.
theorem not_sameElements_reversed (hab : equal v a b = true) (hbc : equal v b c = true)
    (hac : equal v a c = false) (hca : equal v c a = false) :
    sameElements (equal v) [a, b, c] [c, b, a] = false := by
  simp [sameElements, takeEach, takeFirst, hab, hbc, hac, hca]

theorem equal_of_reversed (hor : OrientedOn (compare v) fun c => c ∈ ops) (ha : a ∈ ops)
    (hc : c ∈ ops) (hab : equal v a b = true) (hbc : equal v b c = true)
    (h : compare v (and [a, b, c]) (and [c, b, a]) = .eq) : equal v a c = true := by
  by_contra hac
  rw [Bool.not_eq_true] at hac
  have hca : equal v c a = false := by
    rw [← Bool.not_eq_true, equal_iff] at hac ⊢
    exact fun heq => hac (hor.eq_symm hc ha heq)
  have hother := not_sameElements_reversed hab hbc hac hca
  -- then the two lists are as their first operands are, which are not level
  rw [compare, compareOperands_orders, hother] at h
  simp only [Bool.false_eq_true, if_false, List.length_cons, List.length_nil, if_true] at h
  rw [← equal_iff, hac] at h
  cases h

-- Lists of some operands are level with all their arrangements exactly if being level is
-- transitive among these operands.
theorem equal_arrangements_iff_trans
    (hleaf : ∀ kind, OrientedOn (v.compareValues kind) fun x => (kind, x) ∈ leavesAll ops) :
    (∀ xs ys, xs ⊆ ops → xs.Perm ys →
        compare v (and xs) (and ys) = .eq ∧ compare v (or xs) (or ys) = .eq) ↔
      ∀ a ∈ ops, ∀ b ∈ ops, ∀ c ∈ ops,
        equal v a b = true → equal v b c = true → equal v a c = true := by
  have hor := oriented_operands hleaf
  constructor
  · intro h a ha b hb c hc hab hbc
    have hsub : [a, b, c] ⊆ ops := by simp [ha, hb, hc]
    have hperm : [a, b, c].Perm [c, b, a] := (List.reverse_perm [a, b, c]).symm
    exact equal_of_reversed hor ha hc hab hbc (h _ _ hsub hperm).1
  · intro htrans xs ys hsub hperm
    have hsame : sameElements (equal v) xs ys = true := by
      refine sameElements_of_perm (hor.mono fun a ha => hsub ha) ?_ hperm
      intro a ha b hb c hc hab hbc
      rw [← equal_iff] at hab hbc ⊢
      exact htrans a (hsub ha) b (hsub hb) c (hsub hc) hab hbc
    constructor
    · rw [compare, compareOperands_orders, hsame, if_pos rfl]
    · rw [compare, compareOperands_orders, hsame, if_pos rfl]

-- Operands that are level with each other, some of them twice.
theorem equal_arrangements_iff_trans_repeated :
    let v := Vocabulary.ofFlags ["a", "b"]
    let ops := [flag "a", or [flag "a", flag "b"], flag "a", or [flag "b", flag "a"]]
    (∀ kind, OrientedOn (v.compareValues kind) fun x => (kind, x) ∈ leavesAll ops) ∧
      compare v (and ops) (and ops.reverse) = .eq ∧ compare v (or ops) (or ops.reverse) = .eq := by
  intro v ops
  have hleaf : ∀ kind, OrientedOn (v.compareValues kind) fun x => (kind, x) ∈ leavesAll ops := by
    intro kind
    refine (Vocabulary.preorderOn_ofFlags _ kind fun x hx => ?_).toOrientedOn
    simp only [ops, leaves, leavesAll, flag, List.append_nil, List.cons_append, List.nil_append,
      List.mem_cons, List.not_mem_nil, Prod.mk.injEq, or_false] at hx
    tauto
  have htrans : ∀ a ∈ ops, ∀ b ∈ ops, ∀ c ∈ ops,
      equal v a b = true → equal v b c = true → equal v a c = true := by
    decide
  exact ⟨hleaf, (equal_arrangements_iff_trans hleaf).mpr htrans ops ops.reverse
    (List.Subset.refl _) (List.reverse_perm ops).symm⟩

end Arrangements

-- The group in the middle is level with both of its neighbours, which are not level with each
-- other. In the reverse order it is the first to be taken.
theorem not_equal_arrangements :
    ¬∀ (v : Vocabulary) (xs ys : List Condition),
      (∀ kind, PreorderOn (v.compareValues kind) fun x => (kind, x) ∈ leavesAll xs) →
      xs.Perm ys → compare v (and xs) (and ys) = .eq ∧ compare v (or xs) (or ys) = .eq := by
  intro h
  let ops := [and [flag "b", flag "c"], and [flag "b", flag "a"], and [flag "a", flag "b"]]
  have hleaf : ∀ kind, PreorderOn ((Vocabulary.ofFlags ["a", "b", "c"]).compareValues kind)
      fun x => (kind, x) ∈ leavesAll ops := by
    intro kind
    refine Vocabulary.preorderOn_ofFlags _ kind fun x hx => ?_
    simp only [ops, leaves, leavesAll, flag, List.append_nil, List.cons_append, List.nil_append,
      List.mem_cons, List.not_mem_nil, Prod.mk.injEq, or_false] at hx
    tauto
  have hlevel := (h _ ops ops.reverse hleaf (List.reverse_perm ops).symm).1
  exact absurd hlevel (by decide)

end SearchQuery.Condition
