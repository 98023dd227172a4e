import SearchQuery.NameMap

-- The entries of maps from names. A name is found with what it stands for just if they are an
-- entry together.

namespace SearchQuery

variable {α : Type} {name : String} {value : α} {entries : List (String × α)}

theorem mem_of_lookup (h : entries.lookup name = some value) : (name, value) ∈ entries := by
  obtain ⟨before, after, hentries, -⟩ := List.lookup_eq_some_iff.mp h
  rw [hentries]
  simp

theorem lookup_of_mem (hnodup : (entries.map Prod.fst).Nodup) (h : (name, value) ∈ entries) :
    entries.lookup name = some value := by
  obtain ⟨before, after, hentries⟩ := List.mem_iff_append.mp h
  refine List.lookup_eq_some_iff.mpr ⟨before, after, hentries, fun p hp => ?_⟩
  rw [hentries, List.map_append, List.map_cons, List.nodup_append] at hnodup
  have hne := hnodup.2.2 p.1 (List.mem_map_of_mem hp) name (by simp)
  simpa using Ne.symm hne

namespace NameMap

variable {m : NameMap α}

theorem pairwise_names (m : NameMap α) : m.names.Pairwise (· < ·) :=
  List.pairwise_map.mpr m.sorted

theorem nodup_names (m : NameMap α) : m.names.Nodup := by
  apply m.pairwise_names.imp
  rintro name other hlt rfl
  exact String.lt_irrefl name hlt

theorem get?_eq_some_iff : m.get? name = some value ↔ (name, value) ∈ m.entries :=
  ⟨mem_of_lookup, lookup_of_mem m.nodup_names⟩

theorem mem_names_iff : name ∈ m.names ↔ ∃ value, m.get? name = some value := by
  simp [names, get?_eq_some_iff]

theorem get?_insert_eq_none {other : String} :
    (m.insert name value).get? other = none ↔ other ≠ name ∧ m.get? other = none := by
  rw [get?_insert]
  by_cases h : other = name <;> simp [h]

theorem insertEntry_of_forall_lt (h : ∀ e ∈ entries, e.1 < name) :
    insertEntry name value entries = entries ++ [(name, value)] := by
  induction entries with
  | nil => rfl
  | cons first rest ih =>
      have hfirst : first.1 < name := h first (by simp)
      have hnot : ¬name < first.1 := String.lt_asymm hfirst
      have hne : name ≠ first.1 := fun heq => hnot (heq ▸ hfirst)
      rw [insertEntry, if_neg hnot, if_neg hne, ih fun e he => h e (List.mem_cons_of_mem _ he)]
      rfl

end NameMap

end SearchQuery
