import SearchQuery.Condition.Basic

-- Conditions as trees: induction over operands, the parts of a condition and its leaves.

namespace SearchQuery.Condition

-- What holds of every leaf, and of a condition whenever it holds of its operands, holds of
-- all conditions.
@[elab_as_elim, induction_eliminator]
theorem operandInduction {motive : Condition → Prop}
    (not : ∀ c, motive c → motive (not c))
    (and : ∀ cs, (∀ c ∈ cs, motive c) → motive (and cs))
    (or : ∀ cs, (∀ c ∈ cs, motive c) → motive (or cs))
    (leaf : ∀ kind value, motive (leaf kind value)) (c : Condition) : motive c :=
  @Condition.rec motive (fun cs => ∀ c ∈ cs, motive c) not and or leaf
    (List.forall_mem_nil motive) (fun _ _ hc hcs => List.forall_mem_cons.mpr ⟨hc, hcs⟩) c

def operands : Condition → List Condition
  | not c => [c]
  | and cs => cs
  | or cs => cs
  | leaf _ _ => []

-- A property that operands take over from what they are operands of.
def Hereditary (S : Condition → Prop) : Prop :=
  ∀ c, S c → ∀ o ∈ c.operands, S o

theorem sizeOf_operand {c o : Condition} (h : o ∈ c.operands) : sizeOf o < sizeOf c := by
  cases c with
  | not c =>
      obtain rfl : o = c := List.mem_singleton.mp h
      simp
  | and cs =>
      have hlt : sizeOf o < sizeOf cs := List.sizeOf_lt_of_mem h
      simp only [and.sizeOf_spec]
      omega
  | or cs =>
      have hlt : sizeOf o < sizeOf cs := List.sizeOf_lt_of_mem h
      simp only [or.sizeOf_spec]
      omega
  | leaf kind value => cases h

mutual

-- A condition and all that it is made of.
def parts : Condition → List Condition
  | not c => not c :: parts c
  | and cs => and cs :: partsAll cs
  | or cs => or cs :: partsAll cs
  | leaf kind value => [leaf kind value]

def partsAll : List Condition → List Condition
  | [] => []
  | c :: cs => parts c ++ partsAll cs

end

mutual

-- The leaves of a condition from left to right, each as its kind and its value.
def leaves : Condition → List (String × Value)
  | not c => leaves c
  | and cs => leavesAll cs
  | or cs => leavesAll cs
  | leaf kind value => [(kind, value)]

def leavesAll : List Condition → List (String × Value)
  | [] => []
  | c :: cs => leaves c ++ leavesAll cs

end

mutual

-- The leaves with their signs: whether each is under an odd number of negations, given
-- whether the condition is.
def signedLeaves (odd : Bool) : Condition → List ((String × Value) × Bool)
  | not c => signedLeaves (!odd) c
  | and cs => signedLeavesAll odd cs
  | or cs => signedLeavesAll odd cs
  | leaf kind value => [((kind, value), odd)]

def signedLeavesAll (odd : Bool) : List Condition → List ((String × Value) × Bool)
  | [] => []
  | c :: cs => signedLeaves odd c ++ signedLeavesAll odd cs

end

theorem partsAll_eq_flatMap (cs : List Condition) : partsAll cs = cs.flatMap parts := by
  induction cs with
  | nil => rfl
  | cons c cs ih => rw [partsAll, ih, List.flatMap_cons]

theorem leavesAll_eq_flatMap (cs : List Condition) : leavesAll cs = cs.flatMap leaves := by
  induction cs with
  | nil => rfl
  | cons c cs ih => rw [leavesAll, ih, List.flatMap_cons]

theorem leavesAll_eq_nil_iff {cs : List Condition} :
    leavesAll cs = [] ↔ ∀ c ∈ cs, c.leaves = [] := by
  rw [leavesAll_eq_flatMap, List.flatMap_eq_nil_iff]

theorem map_fst_signedLeavesAll {odd : Bool} {cs : List Condition}
    (h : ∀ c ∈ cs, (signedLeaves odd c).map Prod.fst = c.leaves) :
    (signedLeavesAll odd cs).map Prod.fst = leavesAll cs := by
  induction cs with
  | nil => rfl
  | cons c cs ih =>
      obtain ⟨hc, hcs⟩ := List.forall_mem_cons.mp h
      rw [signedLeavesAll, List.map_append, hc, ih hcs, leavesAll]

theorem map_fst_signedLeaves (odd : Bool) (c : Condition) :
    (signedLeaves odd c).map Prod.fst = c.leaves := by
  induction c generalizing odd with
  | not c ih => exact ih (!odd)
  | and cs ih => exact map_fst_signedLeavesAll fun c hc => ih c hc odd
  | or cs ih => exact map_fst_signedLeavesAll fun c hc => ih c hc odd
  | leaf kind value => rfl

theorem leaves_subset_leavesAll {c : Condition} {cs : List Condition} (h : c ∈ cs) :
    c.leaves ⊆ leavesAll cs := by
  intro l hl
  rw [leavesAll_eq_flatMap]
  exact List.mem_flatMap.mpr ⟨c, h, hl⟩

theorem leaves_operand_subset {c o : Condition} (h : o ∈ c.operands) : o.leaves ⊆ c.leaves := by
  cases c with
  | not c =>
      obtain rfl : o = c := List.mem_singleton.mp h
      exact List.Subset.refl _
  | and cs => exact leaves_subset_leavesAll h
  | or cs => exact leaves_subset_leavesAll h
  | leaf kind value => cases h

theorem self_mem_parts (c : Condition) : c ∈ c.parts := by
  cases c <;> simp [parts]

-- The parts of an operand are parts of the condition.
theorem mem_parts_of_operand {c o s : Condition} (ho : o ∈ c.operands) (hs : s ∈ o.parts) :
    s ∈ c.parts := by
  cases c with
  | not c =>
      obtain rfl : o = c := List.mem_singleton.mp ho
      exact List.mem_cons_of_mem _ hs
  | and cs =>
      rw [parts, partsAll_eq_flatMap]
      exact List.mem_cons_of_mem _ (List.mem_flatMap.mpr ⟨o, ho, hs⟩)
  | or cs =>
      rw [parts, partsAll_eq_flatMap]
      exact List.mem_cons_of_mem _ (List.mem_flatMap.mpr ⟨o, ho, hs⟩)
  | leaf kind value => cases ho

-- A part is the condition itself or a part of one of its operands.
theorem mem_parts_iff {c s : Condition} :
    s ∈ c.parts ↔ s = c ∨ ∃ o ∈ c.operands, s ∈ o.parts := by
  cases c with
  | not c => simp [parts, operands]
  | and cs => simp [parts, partsAll_eq_flatMap, operands]
  | or cs => simp [parts, partsAll_eq_flatMap, operands]
  | leaf kind value => simp [parts, operands]

-- The operands of a part are parts.
theorem hereditary_parts (c : Condition) : Hereditary fun s => s ∈ c.parts := by
  intro s hs o ho
  induction c with
  | not c ih =>
      rcases List.mem_cons.mp hs with rfl | hs
      · exact mem_parts_of_operand ho (self_mem_parts o)
      · exact List.mem_cons_of_mem _ (ih hs)
  | and cs ih =>
      rcases List.mem_cons.mp hs with rfl | hs
      · exact mem_parts_of_operand ho (self_mem_parts o)
      · rw [partsAll_eq_flatMap] at hs
        obtain ⟨c, hc, hsc⟩ := List.mem_flatMap.mp hs
        exact mem_parts_of_operand (c := and cs) hc (ih c hc hsc)
  | or cs ih =>
      rcases List.mem_cons.mp hs with rfl | hs
      · exact mem_parts_of_operand ho (self_mem_parts o)
      · rw [partsAll_eq_flatMap] at hs
        obtain ⟨c, hc, hsc⟩ := List.mem_flatMap.mp hs
        exact mem_parts_of_operand (c := or cs) hc (ih c hc hsc)
  | leaf kind value =>
      obtain rfl : s = leaf kind value := List.mem_singleton.mp hs
      cases ho

-- The lists of operands that a condition combines, at any depth.
def combinations (c : Condition) : List (List Condition) :=
  c.parts.filterMap fun s =>
    match s with
    | and cs => some cs
    | or cs => some cs
    | _ => none

theorem mem_combinations_and (cs : List Condition) : cs ∈ (and cs).combinations :=
  List.mem_filterMap.mpr ⟨and cs, self_mem_parts _, rfl⟩

theorem mem_combinations_or (cs : List Condition) : cs ∈ (or cs).combinations :=
  List.mem_filterMap.mpr ⟨or cs, self_mem_parts _, rfl⟩

-- A combination is what a condition itself combines, or one of an operand.
theorem mem_combinations_iff {c : Condition} {cs : List Condition} :
    cs ∈ c.combinations ↔ c = and cs ∨ c = or cs ∨ ∃ o ∈ c.operands, cs ∈ o.combinations := by
  constructor
  · intro h
    obtain ⟨s, hs, hcs⟩ := List.mem_filterMap.mp h
    rcases mem_parts_iff.mp hs with rfl | ⟨o, ho, hs⟩
    · cases s with
      | and ds =>
          obtain rfl : ds = cs := Option.some.inj hcs
          exact .inl rfl
      | or ds =>
          obtain rfl : ds = cs := Option.some.inj hcs
          exact .inr (.inl rfl)
      | _ => cases hcs
    · exact .inr (.inr ⟨o, ho, List.mem_filterMap.mpr ⟨s, hs, hcs⟩⟩)
  · rintro (rfl | rfl | ⟨o, ho, h⟩)
    · exact mem_combinations_and cs
    · exact mem_combinations_or cs
    · obtain ⟨s, hs, hcs⟩ := List.mem_filterMap.mp h
      exact List.mem_filterMap.mpr ⟨s, mem_parts_of_operand ho hs, hcs⟩

end SearchQuery.Condition
