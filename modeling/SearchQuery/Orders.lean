-- Orders given by comparisons.

namespace SearchQuery

-- Comparing the other way round turns the answer over.
theorem swap_compare {α : Type} [Ord α] [Std.OrientedOrd α] (a b : α) :
    (Ord.compare a b).swap = Ord.compare b a :=
  Std.OrientedCmp.eq_swap.symm

end SearchQuery
