import SearchQuery.Cache
import SearchQuery.Proofs.NameMap

-- What a cache holds after it was asked for a text.

namespace SearchQuery.Cache

variable {α ε : Type} {cache : Cache α} {compile : String → Except ε α} {text other : String}
  {value found : α} {e : ε}

theorem mem_entries_of_get? (h : cache.get? text = some value) : (text, value) ∈ cache.entries :=
  mem_of_lookup h

theorem capacity_store (cache : Cache α) (text : String) (value : α) :
    (cache.store text value).capacity = cache.capacity := by
  unfold store
  by_cases hzero : cache.capacity = 0
  · rw [if_pos hzero]
  · rw [if_neg hzero]

theorem store_of_capacity_zero (h : cache.capacity = 0) (text : String) (value : α) :
    cache.store text value = cache := by
  rw [store, if_pos h]

-- Whether the cache is emptied first or not, nothing is in it that was neither there nor
-- has come now.
theorem mem_entries_of_mem_store (h : (other, found) ∈ (cache.store text value).entries) :
    (other, found) ∈ cache.entries ∨ other = text ∧ found = value := by
  unfold store at h
  by_cases hzero : cache.capacity = 0
  · rw [if_pos hzero] at h
    exact .inl h
  · rw [if_neg hzero, List.mem_cons, Prod.mk.injEq] at h
    refine h.symm.imp_left fun hother => ?_
    split at hother
    · cases hother
    · exact (List.mem_filter.mp hother).1

theorem fetch_of_hit (h : cache.get? text = some value) :
    cache.fetch compile text = ⟨.ok value, cache, false⟩ := by
  simp only [fetch, h]

theorem fetch_of_ok (hmiss : cache.get? text = none) (h : compile text = .ok value) :
    cache.fetch compile text = ⟨.ok value, cache.store text value, true⟩ := by
  simp only [fetch, hmiss, h]

theorem fetch_of_error (hmiss : cache.get? text = none) (h : compile text = .error e) :
    cache.fetch compile text = ⟨.error e, cache, true⟩ := by
  simp only [fetch, hmiss, h]

end SearchQuery.Cache
