import SearchQuery.Proofs.Score
import SearchQuery.Proofs.Simplify.Basic
import SearchQuery.Proofs.Vocabulary

-- The kinds of a condition are those of its leaves. Its score, its place in the order and its
-- simplest form are the same under vocabularies that agree on them.

namespace SearchQuery.Condition

variable {v w : Vocabulary} {c : Condition} {cs : List Condition}

def kinds (c : Condition) : List String :=
  c.leaves.map Prod.fst

def kindsAll (cs : List Condition) : List String :=
  (leavesAll cs).map Prod.fst

theorem kinds_subset_kindsAll (h : c ∈ cs) : c.kinds ⊆ kindsAll cs :=
  List.map_subset _ (leaves_subset_leavesAll h)

theorem score_congr (h : v.AgreeOn w c.kinds) : c.score v = c.score w := by
  have hleaves : leafScores v c.leaves = leafScores w c.leaves := by
    unfold leafScores
    congr 1
    apply List.map_congr_left
    intro l hl
    rw [h.scoreValue (List.mem_map_of_mem hl)]
  rw [score_eq_ofCount, score_eq_ofCount, weight, weight, hleaves]

theorem orders_congr (h : ∀ c ∈ cs, compare v c = compare w c) : orders v cs = orders w cs := by
  rw [orders_eq_map, orders_eq_map]
  exact List.map_congr_left h

-- Values are only compared where both leaves have the same kind, so the kinds of one side are
-- enough.
theorem compare_congr (h : v.AgreeOn w c.kinds) : compare v c = compare w c := by
  induction c with
  | not c ih =>
      funext d
      cases d with
      | not d => exact congrFun (ih h) d
      | _ => rfl
  | and cs ih =>
      have horders := orders_congr fun c hc => ih c hc (h.mono (kinds_subset_kindsAll hc))
      funext d
      cases d with
      | and ds => rw [compare, compare, horders]
      | _ => rfl
  | or cs ih =>
      have horders := orders_congr fun c hc => ih c hc (h.mono (kinds_subset_kindsAll hc))
      funext d
      cases d with
      | or ds => rw [compare, compare, horders]
      | _ => rfl
  | leaf kind value =>
      funext d
      cases d with
      | leaf l y => rw [compare, compare, h.compareValues List.mem_cons_self]
      | _ => rfl

theorem distinct_congr (h : v.AgreeOn w (kindsAll cs)) : distinct v cs = distinct w cs := by
  apply List.foldl_ext
  intro kept c hc
  unfold addDistinct equal
  rw [compare_congr (h.mono (kinds_subset_kindsAll hc))]

-- Simplest forms have no leaves of their own, so they are compared by the kinds that there
-- were before.
theorem distinct_simplifyAll_congr (h : v.AgreeOn w (kindsAll cs))
    (hsimplify : ∀ c ∈ cs, simplify v c = simplify w c) :
    distinct v (simplifyAll v cs) = distinct w (simplifyAll w cs) := by
  have hforms : simplifyAll v cs = simplifyAll w cs := by
    rw [simplifyAll_eq_filterMap, simplifyAll_eq_filterMap]
    exact List.filterMap_congr hsimplify
  have hleaves := leavesAll_simplifyAll_subset v cs
  rw [← hforms]
  exact distinct_congr (h.mono (List.map_subset _ hleaves))

theorem simplify_congr (h : v.AgreeOn w c.kinds) : c.simplify v = c.simplify w := by
  induction c with
  | not c ih => rw [simplify, simplify, ih h]
  | and cs ih =>
      have hforms := fun c hc => ih c hc (h.mono (kinds_subset_kindsAll hc))
      rw [simplify, simplify, distinct_simplifyAll_congr h hforms]
  | or cs ih =>
      have hforms := fun c hc => ih c hc (h.mono (kinds_subset_kindsAll hc))
      rw [simplify, simplify, distinct_simplifyAll_congr h hforms]
  | leaf kind value => rfl

end SearchQuery.Condition
