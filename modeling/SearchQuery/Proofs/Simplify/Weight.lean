import SearchQuery.Proofs.Score
import SearchQuery.Proofs.Simplify.Basic

-- To simplify a condition is to make it lighter. Whatever is done to it, at any depth, takes
-- away an operand or a step down to one, so a simplest form that is not the condition itself
-- weighs less, and it scores less unless the score is at its end.

namespace SearchQuery.Condition

-- What stays as it is or weighs less than before.
def Lightens {α : Type} (weigh : α → Nat) (a b : α) : Prop :=
  a = b ∨ weigh a < weigh b

section Lightens

variable {α : Type} {weigh : α → Nat} {a b c : α}

theorem Lightens.le (h : Lightens weigh a b) : weigh a ≤ weigh b := by
  rcases h with rfl | hlt
  · exact Nat.le_refl _
  · exact Nat.le_of_lt hlt

theorem Lightens.trans (hab : Lightens weigh a b) (hbc : Lightens weigh b c) :
    Lightens weigh a c := by
  rcases hab with rfl | hlt
  · exact hbc
  · exact .inr (Nat.lt_of_lt_of_le hlt hbc.le)

end Lightens

variable {v : Vocabulary} {c c' : Condition} {cs ks : List Condition}
  {node : List Condition → Condition}

-- An operand that is missing is missed in the load.
theorem lightens_sublist (v : Vocabulary) (h : ks.Sublist cs) : Lightens (load v) ks cs := by
  induction h with
  | slnil => exact .inl rfl
  | cons c _ ih =>
      have hle := ih.le
      rw [Lightens, load_cons]
      omega
  | cons_cons c _ ih =>
      rcases ih with rfl | hlt
      · exact .inl rfl
      · rw [Lightens, load_cons, load_cons]
        omega

theorem lightens_simplifyAll
    (h : ∀ c ∈ cs, ∀ c', simplify v c = some c' → Lightens (weight v) c' c) :
    Lightens (load v) (simplifyAll v cs) cs := by
  induction cs with
  | nil => exact .inl rfl
  | cons c cs ih =>
      obtain ⟨hc, hcs⟩ := List.forall_mem_cons.mp h
      have hrest := ih hcs
      rw [simplifyAll]
      cases hsimplify : simplify v c with
      | none =>
          have hle := hrest.le
          rw [Option.toList_none, List.nil_append, Lightens, load_cons]
          omega
      | some c' =>
          rw [Option.toList_some, List.singleton_append, Lightens, load_cons, load_cons]
          rcases hc c' hsimplify with rfl | hlt
          · rcases hrest with hsame | hlt
            · exact .inl (by rw [hsame])
            · omega
          · have hle := hrest.le
            omega

-- Two negations that cancel were two steps.
theorem lightens_negate (v : Vocabulary) (c : Condition) :
    Lightens (weight v) (negate c) (not c) := by
  cases c with
  | not c =>
      rw [negate, Lightens, weight_not, weight_not]
      omega
  | and cs => exact .inl rfl
  | or cs => exact .inl rfl
  | leaf kind value => exact .inl rfl

-- A single operand weighs less than what it is lifted out of, by the step down to it.
theorem lightens_combine (hnode : ∀ ks, weight v (node ks) = load v ks)
    (hks : Lightens (load v) ks cs) (h : combine node ks = some c') :
    Lightens (weight v) c' (node cs) := by
  rcases eq_of_combine h with rfl | ⟨rfl, -⟩
  · have hle := hks.le
    rw [load_cons] at hle
    rw [Lightens, hnode]
    omega
  · rcases hks with rfl | hlt
    · exact .inl rfl
    · rw [Lightens, hnode, hnode]
      exact .inr hlt

-- By induction on the condition: what happens to an operand shows in the weight of the whole.
theorem lightens_simplify (h : simplify v c = some c') : Lightens (weight v) c' c := by
  have hkept : ∀ cs, (∀ c ∈ cs, ∀ c', simplify v c = some c' → Lightens (weight v) c' c) →
      Lightens (load v) (distinct v (simplifyAll v cs)) cs := fun cs hcs =>
    (lightens_sublist v (distinct_sublist v _)).trans (lightens_simplifyAll hcs)
  induction c generalizing c' with
  | not c ih =>
      obtain ⟨o, ho, rfl⟩ := Option.map_eq_some_iff.mp h
      refine (lightens_negate v o).trans ?_
      rcases ih ho with rfl | hlt
      · exact .inl rfl
      · rw [Lightens, weight_not, weight_not]
        omega
  | and cs ih => exact lightens_combine (weight_and v) (hkept cs fun o ho _ => ih o ho) h
  | or cs ih => exact lightens_combine (weight_or v) (hkept cs fun o ho _ => ih o ho) h
  | leaf kind value =>
      cases h
      exact .inl rfl

theorem score_simplify_le (h : simplify v c = some c') : score v c' ≤ score v c :=
  score_le_score (lightens_simplify h).le

-- A simplest form never scores more, and one that differs from the condition at all scores
-- less. Only where the score has come to its end does the difference not show.
theorem score_le_and_lt_of_simplify (h : simplify v c = some c') :
    score v c' ≤ score v c ∧
      (c' ≠ c → UInt32.toNat (score v c) < Score.greatest → score v c' < score v c) := by
  refine ⟨score_simplify_le h, fun hne hend => ?_⟩
  rcases lightens_simplify h with rfl | hlt
  · exact absurd rfl hne
  · exact score_lt_score hlt hend

-- A kind whose values score nothing at all, and a score one short of the greatest.
theorem score_le_and_lt_of_simplify_free :
    let v : Vocabulary := ⟨(NameMap.empty.insert "free" (Kind.flag.withScore fun _ => 0)).insert
      "dear" (Kind.flag.withScore fun _ => 0xFFFFFFF9)⟩
    let c := and [not (not (flag "dear")), flag "free", flag "free"]
    let c' := and [flag "dear", flag "free"]
    simplify v c = some c' ∧ score v c' ≤ score v c ∧ c' ≠ c ∧
      UInt32.toNat (score v c) = 0xFFFFFFFE ∧ score v c' < score v c := by
  intro v c c'
  have hsimplify : simplify v c = some c' := rfl
  have hne : c' ≠ c := by simp [c, c']
  have hscore : UInt32.toNat (score v c) = 0xFFFFFFFE := by decide
  obtain ⟨hle, hlt⟩ := score_le_and_lt_of_simplify hsimplify
  exact ⟨hsimplify, hle, hne, hscore, hlt hne (by rw [hscore]; decide)⟩

end SearchQuery.Condition
