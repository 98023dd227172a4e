import SearchQuery.Proofs.Simplify.Canonical

-- Which operands are kept. Each is compared with those that are kept before it and with no
-- others, whatever the orders of the kinds are: being level need not be transitive, and an
-- operand that is left out keeps no other one out.

namespace SearchQuery.Condition

-- The positions of the conditions that are kept of a list, in order. A condition is kept
-- exactly if it equals none that is kept before it.
structure KeptAt (v : Vocabulary) (cs : List Condition) (is : List Nat) : Prop where
  ordered : is.Pairwise (· < ·)
  within : ∀ i ∈ is, i < cs.length
  mem_iff : ∀ i c, cs[i]? = some c →
    (i ∈ is ↔ ∀ j ∈ is, j < i → ∀ d, cs[j]? = some d → equal v c d = false)

-- Whether the condition at a position is kept, told by what is kept of those before it.
def isKept (v : Vocabulary) (cs : List Condition) (i : Nat) : Bool :=
  cs[i]?.any fun c => !(distinct v (cs.take i)).any (equal v c)

def keptUpTo (v : Vocabulary) (cs : List Condition) (n : Nat) : List Nat :=
  (List.range n).filter (isKept v cs)

variable {v : Vocabulary} {c d : Condition} {cs kept : List Condition} {i j n : Nat}
  {node : List Condition → Condition}

section Positions

theorem isKept_iff (h : cs[i]? = some c) :
    isKept v cs i = true ↔ ∀ d ∈ distinct v (cs.take i), equal v c d = false := by
  simp [isKept, h]

theorem mem_keptUpTo : i ∈ keptUpTo v cs n ↔ i < n ∧ isKept v cs i = true := by
  rw [keptUpTo, List.mem_filter, List.mem_range]

-- By induction on the number of conditions that have been looked at: the next one is added
-- where its position is.
theorem distinct_take (v : Vocabulary) (hn : n ≤ cs.length) :
    distinct v (cs.take n) = (keptUpTo v cs n).filterMap fun i => cs[i]? := by
  induction n with
  | zero => rfl
  | succ n ih =>
      have hlast : cs[n]? = some cs[n] := List.getElem?_eq_getElem hn
      rw [List.take_succ_eq_append_getElem hn, distinct_concat, keptUpTo, List.range_succ,
        List.filter_append, List.filterMap_append, ← keptUpTo, ← ih (Nat.le_of_succ_le hn)]
      cases hany : (distinct v (cs.take n)).any (equal v cs[n]) with
      | true =>
          have hkept : isKept v cs n = false := by simp [isKept, hlast, hany]
          rw [addDistinct_of_equal hany]
          simp [hkept]
      | false =>
          have hkept : isKept v cs n = true := by simp [isKept, hlast, hany]
          rw [addDistinct_of_not_equal hany]
          simp [hkept, hlast]

theorem mem_distinct_take (hn : n ≤ cs.length) :
    d ∈ distinct v (cs.take n) ↔ ∃ j < n, isKept v cs j = true ∧ cs[j]? = some d := by
  simp only [distinct_take v hn, List.mem_filterMap, mem_keptUpTo, and_assoc]

theorem keptAt_keptUpTo (v : Vocabulary) (cs : List Condition) :
    KeptAt v cs (keptUpTo v cs cs.length) where
  ordered := List.pairwise_lt_range.filter _
  within i hi := (mem_keptUpTo.mp hi).1
  mem_iff i c hc := by
    have hi : i < cs.length := (List.getElem?_eq_some_iff.mp hc).1
    rw [mem_keptUpTo, isKept_iff hc]
    constructor
    · rintro ⟨-, h⟩ j hj hji d hd
      exact h d ((mem_distinct_take (Nat.le_of_lt hi)).mpr ⟨j, hji, (mem_keptUpTo.mp hj).2, hd⟩)
    · intro h
      refine ⟨hi, fun d hd => ?_⟩
      obtain ⟨j, hji, hj, hjd⟩ := (mem_distinct_take (Nat.le_of_lt hi)).mp hd
      exact h j (mem_keptUpTo.mpr ⟨Nat.lt_trans hji hi, hj⟩) hji d hjd

theorem distinct_eq_filterMap (v : Vocabulary) (cs : List Condition) :
    distinct v cs = (keptUpTo v cs cs.length).filterMap fun i => cs[i]? := by
  rw [← distinct_take v (Nat.le_refl _), List.take_length]

end Positions

section First

-- There is nothing that the first condition could equal.
theorem head?_addDistinct (v : Vocabulary) (kept : List Condition) (c : Condition) :
    (addDistinct v kept c).head? = (kept ++ [c]).head? := by
  cases kept with
  | nil => rfl
  | cons k kept =>
      cases hany : (k :: kept).any (fun earlier => equal v c earlier) with
      | true =>
          rw [addDistinct_of_equal hany]
          rfl
      | false => rw [addDistinct_of_not_equal hany]

theorem head?_distinct (v : Vocabulary) (cs : List Condition) :
    (distinct v cs).head? = cs.head? := by
  induction cs using List.reverseRecOn with
  | nil => rfl
  | append_singleton cs c ih =>
      rw [distinct_concat, head?_addDistinct, List.head?_append, List.head?_append, ih]

end First

theorem simplify_node (h : node ∈ [and, or]) :
    simplify v (node cs) = combine node (distinct v (simplifyAll v cs)) := by
  simp only [List.mem_cons, List.not_mem_nil, or_false] at h
  rcases h with rfl | rfl
  · rw [simplify]
  · rw [simplify]

-- Of the simplest forms of the operands, each is kept that equals none that is kept before it,
-- in their order and the first one always. What they are combined to depends on whether they
-- are none, one or more.
theorem simplify_operands (v : Vocabulary) (cs : List Condition) :
    let forms := cs.filterMap (simplify v)
    let kept := distinct v (simplifyAll v cs)
    (kept.Sublist forms ∧ kept.head? = forms.head? ∧
        ∃ is, KeptAt v forms is ∧ kept = is.filterMap fun i => forms[i]?) ∧
      ∀ node ∈ [and, or],
        (kept = [] → simplify v (node cs) = none) ∧
          (∀ c, kept = [c] → simplify v (node cs) = some c) ∧
          (2 ≤ kept.length → simplify v (node cs) = some (node kept)) := by
  intro forms kept
  have hforms : simplifyAll v cs = forms := simplifyAll_eq_filterMap v cs
  have hkept : kept = distinct v forms := by rw [← hforms]
  constructor
  · rw [hkept]
    exact ⟨distinct_sublist v forms, head?_distinct v forms, _, keptAt_keptUpTo v forms,
      distinct_eq_filterMap v forms⟩
  · intro node hnode
    have hcombine : simplify v (node cs) = combine node kept := simplify_node hnode
    rw [hcombine]
    refine ⟨fun h => ?_, fun c h => ?_, combine_of_two_le⟩
    · rw [h]
      rfl
    · rw [h]
      rfl

-- Numbers of which each is level with the one before it and with no other, not even itself. The
-- third is kept because the second is not, and the first is kept twice.
theorem simplify_operands_chain :
    let order : ValueOrder := fun a b =>
      if (a, b) ∈ [(.integer 2, .integer 1), (.integer 3, .integer 2)] then .eq else .lt
    let v : Vocabulary := ⟨NameMap.empty.insert "n" (Kind.flag.withOrder order)⟩
    let n (k : Int64) := leaf "n" (.integer k)
    let cs := [n 1, and [], not (not (n 2)), n 3, n 1]
    let forms := [n 1, n 2, n 3, n 1]
    cs.filterMap (simplify v) = forms ∧ distinct v (simplifyAll v cs) = [n 1, n 3, n 1] ∧
      [n 1, n 3, n 1].Sublist forms ∧
      (∃ is, KeptAt v forms is ∧ [n 1, n 3, n 1] = is.filterMap fun i => forms[i]?) ∧
      or ∈ [and, or] ∧ simplify v (or cs) = some (or [n 1, n 3, n 1]) := by
  intro order v n cs forms
  have hforms : cs.filterMap (simplify v) = forms := rfl
  have hkept : distinct v (simplifyAll v cs) = [n 1, n 3, n 1] := rfl
  obtain ⟨⟨hsublist, -, hpositions⟩, hnode⟩ := simplify_operands v cs
  rw [hforms, hkept] at hsublist hpositions
  have hor : or ∈ [and, or] := List.mem_cons_of_mem _ (List.mem_singleton_self _)
  obtain ⟨-, -, hmany⟩ := hnode or hor
  rw [hkept] at hmany
  exact ⟨hforms, hkept, hsublist, hpositions, hor, hmany (by decide)⟩

end SearchQuery.Condition
