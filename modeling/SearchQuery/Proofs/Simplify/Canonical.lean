import SearchQuery.Proofs.Simplify.Basic

-- What simplest forms look like, whatever the orders of the kinds are. Nothing in them is
-- left to simplify, and a condition in which nothing is left to simplify is its own
-- simplest form.

namespace SearchQuery.Condition

-- No operand equals an earlier one. Equality need not be symmetric, so it is the later
-- operand that is compared with the earlier one.
def Distinct (v : Vocabulary) (cs : List Condition) : Prop :=
  cs.Pairwise fun earlier later => equal v later earlier = false

-- A condition that is not to be simplified at the top.
def Settled (v : Vocabulary) : Condition → Prop
  | not (not _) => False
  | not _ => True
  | and cs => 2 ≤ cs.length ∧ Distinct v cs
  | or cs => 2 ≤ cs.length ∧ Distinct v cs
  | leaf _ _ => True

def Canonical (v : Vocabulary) (c : Condition) : Prop :=
  ∀ s ∈ c.parts, Settled v s

section Decidable

variable {v : Vocabulary}

instance (cs : List Condition) : Decidable (Distinct v cs) :=
  inferInstanceAs (Decidable (cs.Pairwise _))

instance : DecidablePred (Settled v)
  | not (not _) => inferInstanceAs (Decidable False)
  | not (and _) => inferInstanceAs (Decidable True)
  | not (or _) => inferInstanceAs (Decidable True)
  | not (leaf _ _) => inferInstanceAs (Decidable True)
  | and cs => inferInstanceAs (Decidable (2 ≤ cs.length ∧ Distinct v cs))
  | or cs => inferInstanceAs (Decidable (2 ≤ cs.length ∧ Distinct v cs))
  | leaf _ _ => inferInstanceAs (Decidable True)

instance (c : Condition) : Decidable (Canonical v c) :=
  inferInstanceAs (Decidable (∀ s ∈ c.parts, Settled v s))

end Decidable

section Distinct

variable {v : Vocabulary} {cs : List Condition} {c : Condition}

theorem distinct_append_singleton :
    Distinct v (cs ++ [c]) ↔ Distinct v cs ∧ cs.any (fun earlier => equal v c earlier) = false := by
  simp [Distinct, List.pairwise_append]

theorem distinct_addDistinct (h : Distinct v cs) : Distinct v (addDistinct v cs c) := by
  cases hany : cs.any (fun earlier => equal v c earlier) with
  | true => rwa [addDistinct_of_equal hany]
  | false =>
      rw [addDistinct_of_not_equal hany]
      exact distinct_append_singleton.mpr ⟨h, hany⟩

-- Induction from the end: what is kept of the operands up to some point depends on nothing
-- that comes later.
theorem distinct_distinct (v : Vocabulary) (cs : List Condition) : Distinct v (distinct v cs) := by
  induction cs using List.reverseRecOn with
  | nil => exact .nil
  | append_singleton cs c ih =>
      rw [distinct_concat]
      exact distinct_addDistinct ih

theorem distinct_eq_self (h : Distinct v cs) : distinct v cs = cs := by
  induction cs using List.reverseRecOn with
  | nil => rfl
  | append_singleton cs c ih =>
      obtain ⟨hcs, hany⟩ := distinct_append_singleton.mp h
      rw [distinct_concat, ih hcs, addDistinct_of_not_equal hany]

end Distinct

section Canonical

variable {v : Vocabulary} {c c' : Condition} {cs : List Condition}
  {node : List Condition → Condition}

theorem canonical_iff :
    Canonical v c ↔ Settled v c ∧ ∀ o ∈ c.operands, Canonical v o := by
  constructor
  · intro h
    exact ⟨h c (self_mem_parts c), fun o ho s hs => h s (mem_parts_of_operand ho hs)⟩
  · rintro ⟨hc, hops⟩ s hs
    rcases mem_parts_iff.mp hs with rfl | ⟨o, ho, hs⟩
    · exact hc
    · exact hops o ho s hs

theorem negate_of_settled (h : Settled v (not c)) : negate c = not c := by
  cases c with
  | not c => exact absurd h id
  | and cs => rfl
  | or cs => rfl
  | leaf kind value => rfl

-- Taking a negation off leaves its operand, and putting one on is only done where there
-- is none.
theorem canonical_negate (h : Canonical v c) : Canonical v (negate c) := by
  cases c with
  | not c => exact (canonical_iff.mp h).2 c (List.mem_singleton_self c)
  | and cs => exact canonical_iff.mpr ⟨trivial, List.forall_mem_singleton.mpr h⟩
  | or cs => exact canonical_iff.mpr ⟨trivial, List.forall_mem_singleton.mpr h⟩
  | leaf kind value => exact canonical_iff.mpr ⟨trivial, List.forall_mem_singleton.mpr h⟩

-- A single operand that is lifted brings its own form along.
theorem canonical_combine (node : List Condition → Condition)
    (hops : ∀ ks, (node ks).operands = ks)
    (hnode : ∀ ks, 2 ≤ ks.length ∧ Distinct v ks → Settled v (node ks))
    (hcs : ∀ c ∈ cs, Canonical v c) (h : combine node (distinct v cs) = some c') :
    Canonical v c' := by
  have hkept : ∀ c ∈ distinct v cs, Canonical v c := fun c hc => hcs c (distinct_subset v cs hc)
  rcases eq_of_combine h with hone | ⟨rfl, hlen⟩
  · exact hkept c' (by simp [hone])
  · refine canonical_iff.mpr ⟨hnode _ ⟨hlen, distinct_distinct v cs⟩, ?_⟩
    rwa [hops]

theorem canonical_of_simplify (h : simplify v c = some c') : Canonical v c' := by
  induction c generalizing c' with
  | not c ih =>
      obtain ⟨o, ho, rfl⟩ := Option.map_eq_some_iff.mp h
      exact canonical_negate (ih ho)
  | and cs ih =>
      refine canonical_combine and (fun _ => rfl) (fun _ hks => hks) ?_ h
      intro o' ho'
      obtain ⟨o, ho, hsimplify⟩ := mem_simplifyAll.mp ho'
      exact ih o ho hsimplify
  | or cs ih =>
      refine canonical_combine or (fun _ => rfl) (fun _ hks => hks) ?_ h
      intro o' ho'
      obtain ⟨o, ho, hsimplify⟩ := mem_simplifyAll.mp ho'
      exact ih o ho hsimplify
  | leaf kind value =>
      cases h
      exact canonical_iff.mpr ⟨trivial, List.forall_mem_nil _⟩

theorem simplifyAll_eq_self (h : ∀ c ∈ cs, simplify v c = some c) : simplifyAll v cs = cs := by
  induction cs with
  | nil => rfl
  | cons c cs ih =>
      obtain ⟨hc, hcs⟩ := List.forall_mem_cons.mp h
      rw [simplifyAll, hc, ih hcs]
      rfl

theorem combine_of_two_le (h : 2 ≤ cs.length) : combine node cs = some (node cs) := by
  match cs, h with
  | _ :: _ :: _, _ => rfl

theorem combine_of_distinct (hlen : 2 ≤ cs.length) (hdistinct : Distinct v cs)
    (h : ∀ c ∈ cs, simplify v c = some c) :
    combine node (distinct v (simplifyAll v cs)) = some (node cs) := by
  rw [simplifyAll_eq_self h, distinct_eq_self hdistinct, combine_of_two_le hlen]

theorem simplify_of_canonical (h : Canonical v c) : simplify v c = some c := by
  induction c with
  | not c ih =>
      obtain ⟨hset, hops⟩ := canonical_iff.mp h
      rw [simplify, ih (hops c (List.mem_singleton_self c)), Option.map_some,
        negate_of_settled hset]
  | and cs ih =>
      obtain ⟨⟨hlen, hdistinct⟩, hops⟩ := canonical_iff.mp h
      exact combine_of_distinct hlen hdistinct fun o ho => ih o ho (hops o ho)
  | or cs ih =>
      obtain ⟨⟨hlen, hdistinct⟩, hops⟩ := canonical_iff.mp h
      exact combine_of_distinct hlen hdistinct fun o ho => ih o ho (hops o ho)
  | leaf kind value => rfl

-- The simplest forms are just the conditions in which nothing, at any depth, is left to
-- simplify.
theorem exists_simplify_iff_canonical (v : Vocabulary) (c' : Condition) :
    (∃ c, simplify v c = some c') ↔ Canonical v c' := by
  constructor
  · rintro ⟨c, h⟩
    exact canonical_of_simplify h
  · intro h
    exact ⟨c', simplify_of_canonical h⟩

-- Groups that begin alike are level, so they do not stand side by side in a simplest form.
example : Canonical .empty (or [not (and [flag "a", flag "b"]), and [flag "a", flag "b"]]) ∧
    ¬Canonical .empty (or [and [flag "a", flag "c"], and [flag "a", flag "b"]]) := by decide

end Canonical

end SearchQuery.Condition
