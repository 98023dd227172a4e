import Mathlib.Algebra.BigOperators.Group.List.Basic
import Mathlib.Algebra.GroupWithZero.Nat
import SearchQuery.Condition.Score
import SearchQuery.Proofs.Tree

-- What a score counts: the steps from a condition to an operand, and on top of them what
-- the leaves score. A score is right as long as the count is within the range of scores.

namespace SearchQuery

namespace Score

variable {m n : Nat}

theorem add_ofCount (m n : Nat) : add (ofCount m) (ofCount n) = ofCount (m + n) := by
  apply UInt32.toNat_inj.mp
  rw [toNat_add, toNat_ofCount, toNat_ofCount, toNat_ofCount]
  omega

theorem ofCount_toNat (a : Score) : ofCount (UInt32.toNat a) = a := by
  apply UInt32.toNat_inj.mp
  rw [toNat_ofCount]
  exact Nat.min_eq_left (toNat_le a)

theorem ofCount_le_ofCount (h : m ≤ n) : ofCount m ≤ ofCount n := by
  rw [UInt32.le_iff_toNat_le, toNat_ofCount, toNat_ofCount]
  omega

end Score

namespace Condition

-- The number of steps from a condition to one of its operands, at any depth. Every part but
-- the condition itself is an operand once.
def edges (c : Condition) : Nat :=
  c.parts.length - 1

def leafScores (v : Vocabulary) (ls : List (String × Value)) : Nat :=
  (ls.map fun l => UInt32.toNat (v.scoreValue l.1 l.2)).sum

-- What a condition would score if scores had no greatest one.
def weight (v : Vocabulary) (c : Condition) : Nat :=
  c.edges + leafScores v c.leaves

variable {v : Vocabulary} {c : Condition} {cs : List Condition}

theorem length_parts_pos (c : Condition) : 0 < c.parts.length :=
  List.length_pos_of_mem (self_mem_parts c)

theorem leafScores_append (v : Vocabulary) (ls ms : List (String × Value)) :
    leafScores v (ls ++ ms) = leafScores v ls + leafScores v ms := by
  simp [leafScores]

theorem weight_add_one (v : Vocabulary) (c : Condition) :
    weight v c + 1 = c.parts.length + leafScores v c.leaves := by
  have hpos := length_parts_pos c
  rw [weight, edges]
  omega

theorem weight_not (v : Vocabulary) (c : Condition) : weight v (not c) = weight v c + 1 := by
  rw [weight_add_one]
  rfl

-- What operands add to a condition: their weights, and 1 each for the step down to it.
def load (v : Vocabulary) (cs : List Condition) : Nat :=
  (cs.map fun c => weight v c + 1).sum

theorem load_cons (v : Vocabulary) (c : Condition) (cs : List Condition) :
    load v (c :: cs) = weight v c + 1 + load v cs := by
  rw [load, List.map_cons, List.sum_cons, load]

theorem load_eq (v : Vocabulary) (cs : List Condition) :
    load v cs = (partsAll cs).length + leafScores v (leavesAll cs) := by
  induction cs with
  | nil => rfl
  | cons c cs ih =>
      rw [load_cons, ih, weight_add_one, partsAll, leavesAll, List.length_append,
        leafScores_append]
      omega

theorem weight_and (v : Vocabulary) (cs : List Condition) : weight v (and cs) = load v cs := by
  rw [load_eq]
  rfl

theorem weight_or (v : Vocabulary) (cs : List Condition) : weight v (or cs) = load v cs := by
  rw [load_eq]
  rfl

theorem weight_leaf (v : Vocabulary) (kind : String) (value : Value) :
    weight v (leaf kind value) = UInt32.toNat (v.scoreValue kind value) := by
  simp [weight, edges, parts, leaves, leafScores]

theorem scoreAll_ofCount (h : ∀ c ∈ cs, score v c = .ofCount (weight v c)) (n : Nat) :
    scoreAll v (.ofCount n) cs = .ofCount (n + (cs.map (weight v)).sum) := by
  induction cs generalizing n with
  | nil => rfl
  | cons c cs ih =>
      obtain ⟨hc, hcs⟩ := List.forall_mem_cons.mp h
      rw [scoreAll, hc, Score.add_ofCount, ih hcs, List.map_cons, List.sum_cons, Nat.add_assoc]

theorem scoreAll_length (h : ∀ c ∈ cs, score v c = .ofCount (weight v c)) :
    scoreAll v (.ofCount cs.length) cs = .ofCount (load v cs) := by
  rw [scoreAll_ofCount h, load, List.sum_map_add, List.map_const', List.sum_replicate, Nat.add_comm]
  simp

-- Scores are cut off where they would leave their range, and nowhere else: adding up
-- scores that were cut off comes to the same as cutting off the sum.
theorem score_eq_ofCount (v : Vocabulary) (c : Condition) :
    score v c = .ofCount (weight v c) := by
  induction c with
  | not c ih =>
      have hone : (1 : Score) = .ofCount 1 := rfl
      rw [score, ih, hone, Score.add_ofCount, weight_not]
  | and cs ih => rw [score, scoreAll_length ih, weight_and]
  | or cs ih => rw [score, scoreAll_length ih, weight_or]
  | leaf kind value => rw [score, weight_leaf, Score.ofCount_toNat]

theorem score_le_score {d : Condition} (h : weight v c ≤ weight v d) : score v c ≤ score v d := by
  rw [score_eq_ofCount, score_eq_ofCount]
  exact Score.ofCount_le_ofCount h

-- Scores are ordered like weights as long as the greater score is not at its end.
theorem score_lt_score {d : Condition} (h : weight v c < weight v d)
    (hend : UInt32.toNat (score v d) < Score.greatest) : score v c < score v d := by
  rw [score_eq_ofCount, Score.toNat_ofCount] at hend
  rw [score_eq_ofCount, score_eq_ofCount, UInt32.lt_iff_toNat_lt, Score.toNat_ofCount,
    Score.toNat_ofCount]
  omega

-- A score below the greatest one bounds the size of the condition.
theorem length_parts_le {limit : Score} (h : score v c ≤ limit)
    (hlimit : UInt32.toNat limit < Score.greatest) : c.parts.length ≤ UInt32.toNat limit + 1 := by
  rw [score_eq_ofCount, UInt32.le_iff_toNat_le, Score.toNat_ofCount] at h
  have hweight := weight_add_one v c
  omega

end Condition

end SearchQuery
