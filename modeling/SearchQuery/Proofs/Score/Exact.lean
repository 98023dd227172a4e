import Mathlib.Logic.Relation
import SearchQuery.Proofs.Places
import SearchQuery.Proofs.Score

-- A score told by what it counts, with numbers that have no end: the steps from a part of the
-- condition to an operand of that part, and what each leaf scores. Neither looks at the order
-- of operands.

namespace SearchQuery.Condition

-- The steps of a condition, each from a part to one of its operands.
def steps (c : Condition) : List (Condition × Condition) :=
  c.parts.flatMap fun s => s.operands.map fun o => (s, o)

-- What a value scores: what its kind gives it, and 1 if the kind is unknown or gives no scores.
def leafScore (v : Vocabulary) (kind : String) (value : Value) : Nat :=
  match (v.get? kind).bind Kind.score? with
  | some scoreOf => UInt32.toNat (scoreOf value)
  | none => 1

-- The second condition is the first one with the operands of one part arranged anew.
def Rearranges (c d : Condition) : Prop :=
  ∃ place s os, c.partAt? place = some s ∧ s.operands.Perm os ∧
    d = c.replaceAt (s.withOperands os) place

variable {v : Vocabulary} {c d s : Condition} {cs os : List Condition}

section Steps

theorem parts_eq (c : Condition) : c.parts = c :: partsAll c.operands := by
  cases c with
  | not c => rw [parts, operands, partsAll, partsAll, List.append_nil]
  | and cs => rfl
  | or cs => rfl
  | leaf kind value => rfl

-- One step leads to each operand, and the others are within the operands.
theorem length_stepsAll (h : ∀ c ∈ cs, c.steps.length + 1 = c.parts.length) :
    cs.length + ((partsAll cs).flatMap fun s => s.operands.map fun o => (s, o)).length =
      (partsAll cs).length := by
  induction cs with
  | nil => rfl
  | cons c cs ih =>
      obtain ⟨hc, hcs⟩ := List.forall_mem_cons.mp h
      have hrest := ih hcs
      rw [steps] at hc
      rw [partsAll, List.flatMap_append, List.length_append, List.length_append, List.length_cons]
      omega

theorem length_steps_of_operands (h : ∀ o ∈ c.operands, o.steps.length + 1 = o.parts.length) :
    c.steps.length + 1 = c.parts.length := by
  have hall := length_stepsAll h
  rw [steps, parts_eq, List.flatMap_cons, List.length_append, List.length_map, hall,
    List.length_cons]

-- A tree has one node more than it has edges.
theorem length_steps_add_one (c : Condition) : c.steps.length + 1 = c.parts.length := by
  induction c with
  | not c ih => exact length_steps_of_operands (List.forall_mem_singleton.mpr ih)
  | and cs ih => exact length_steps_of_operands ih
  | or cs ih => exact length_steps_of_operands ih
  | leaf kind value => rfl

theorem edges_eq (c : Condition) : c.edges = c.steps.length := by
  have hnodes := length_steps_add_one c
  rw [edges]
  omega

theorem leafScore_eq (v : Vocabulary) (kind : String) (value : Value) :
    leafScore v kind value = UInt32.toNat (v.scoreValue kind value) := by
  rw [leafScore, Vocabulary.scoreValue]
  cases v.get? kind with
  | none => rfl
  | some k => cases h : k.score? <;> simp [Kind.score, h]

theorem leafScores_eq (v : Vocabulary) (ls : List (String × Value)) :
    leafScores v ls = (ls.map fun l => leafScore v l.1 l.2).sum := by
  simp only [leafScores, leafScore_eq]

end Steps

section Rearranges

theorem load_perm (v : Vocabulary) (h : cs.Perm os) : load v cs = load v os :=
  (h.map _).sum_nat

theorem load_congr (h : os.map (weight v) = cs.map (weight v)) : load v os = load v cs := by
  have hmap := congrArg (List.map fun n => n + 1) h
  rw [List.map_map, List.map_map] at hmap
  exact congrArg List.sum hmap

-- Of its operands, a condition feels nothing but their number and the load that they are.
theorem weight_withOperands (hlen : os.length = c.operands.length)
    (hload : load v os = load v c.operands) : weight v (c.withOperands os) = weight v c := by
  cases c with
  | not c =>
      obtain ⟨o, rfl⟩ := List.length_eq_one_iff.mp hlen
      rw [operands, load_cons, load_cons] at hload
      rw [withOperands, weight_not, weight_not]
      omega
  | and cs => rw [withOperands, weight_and, weight_and, hload, operands]
  | or cs => rw [withOperands, weight_or, weight_or, hload, operands]
  | leaf kind value => cases os <;> rfl

theorem weight_of_rearranges (h : Rearranges c d) : weight v d = weight v c := by
  obtain ⟨place, s, os, hpart, hperm, rfl⟩ := h
  refine view_replaceAt (fun c os h => ?_) place hpart ?_
  · have hlen : os.length = c.operands.length := by simpa using congrArg List.length h
    exact weight_withOperands hlen (load_congr h)
  · exact weight_withOperands hperm.length_eq.symm (load_perm v hperm).symm

end Rearranges

-- A score is the exact count, cut off at the greatest word and not before, whatever is cut off
-- on the way. To arrange operands anew, at any part and time after time, makes no difference.
theorem toNat_score_and_rearranged (v : Vocabulary) (c : Condition) :
    UInt32.toNat (score v c) =
        min (2 ^ 32 - 1) (c.steps.length + (c.leaves.map fun l => leafScore v l.1 l.2).sum) ∧
      c.steps.length = c.parts.length - 1 ∧
      ∀ d, Relation.ReflTransGen Rearranges c d → score v d = score v c := by
  refine ⟨?_, (edges_eq c).symm, fun d h => ?_⟩
  · rw [score_eq_ofCount, Score.toNat_ofCount, weight, edges_eq, leafScores_eq, Nat.min_comm]
    rfl
  · rw [score_eq_ofCount, score_eq_ofCount]
    refine congrArg _ ?_
    induction h with
    | refl => rfl
    | tail _ hstep ih => rw [weight_of_rearranges hstep, ih]

-- A count that is beyond the words although no score in it is, with operands that change places
-- at two depths.
theorem toNat_score_and_rearranged_beyond :
    let v : Vocabulary := ⟨NameMap.empty.insert "dear" (Kind.flag.withScore fun _ => 0x80000000)⟩
    let c := and [or [flag "dear", flag "other"], not (flag "dear")]
    let d := and [not (flag "dear"), or [flag "other", flag "dear"]]
    c.steps.length = 5 ∧ (c.leaves.map fun l => leafScore v l.1 l.2) = [2 ^ 31, 1, 2 ^ 31] ∧
      UInt32.toNat (score v c) = 2 ^ 32 - 1 ∧ Relation.ReflTransGen Rearranges c d ∧
      score v d = score v c := by
  intro v c d
  have hinner : Rearranges c (and [or [flag "other", flag "dear"], not (flag "dear")]) :=
    ⟨[0], or [flag "dear", flag "other"], _, rfl, .swap (flag "other") (flag "dear") [], rfl⟩
  have houter : Rearranges (and [or [flag "other", flag "dear"], not (flag "dear")]) d :=
    ⟨[], _, _, rfl, .swap (not (flag "dear")) (or [flag "other", flag "dear"]) [], rfl⟩
  have hrearranged : Relation.ReflTransGen Rearranges c d :=
    (Relation.ReflTransGen.single hinner).tail houter
  obtain ⟨hscore, -, hsame⟩ := toNat_score_and_rearranged v c
  exact ⟨rfl, by decide, hscore.trans (by decide), hrearranged, hsame d hrearranged⟩

end SearchQuery.Condition
