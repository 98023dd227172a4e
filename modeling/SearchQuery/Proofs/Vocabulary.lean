import SearchQuery.Vocabulary

-- What vocabularies hold: the kinds that were registered, under their names. Two of them
-- agree on a name if they have the same kind under it or none.

namespace SearchQuery.Vocabulary

section Registered

variable {v w : Vocabulary} {name : String} {kind : Kind} {kinds : List (String × Kind)}

theorem nameFault?_eq_none :
    v.nameFault? name = none ↔ name ∉ reservedNames ∧ isKindName name = true ∧ v.get? name = none := by
  have hcontains : v.contains name = (v.get? name).isSome := rfl
  unfold nameFault?
  by_cases hreserved : name ∈ reservedNames
  · simp [hreserved]
  · by_cases hname : isKindName name = true
    · simp [hreserved, hname, hcontains]
    · simp [hreserved, hname]

theorem nameFault?_of_register (h : v.register name kind = .ok w) : v.nameFault? name = none := by
  unfold register at h
  cases hfault : v.nameFault? name with
  | none => rfl
  | some fault =>
      rw [hfault] at h
      cases h

-- A kind is registered under a name that was free, and the others stay as they are.
theorem get?_register (h : v.register name kind = .ok w) :
    v.get? name = none ∧
      ∀ other, w.get? other = if other = name then some kind else v.get? other := by
  have hfault := nameFault?_of_register h
  rw [register, hfault] at h
  cases h
  exact ⟨(nameFault?_eq_none.mp hfault).2.2, fun other => NameMap.get?_insert v.kinds name other kind⟩

theorem get?_registerAll (h : v.registerAll kinds = .ok w) :
    w.get? name = some kind ↔ v.get? name = some kind ∨ (name, kind) ∈ kinds := by
  induction kinds generalizing v with
  | nil =>
      cases h
      simp
  | cons first kinds ih =>
      obtain ⟨n, k⟩ := first
      cases hfirst : v.register n k with
      | error e =>
          rw [registerAll, hfirst] at h
          cases h
      | ok u =>
          rw [registerAll, hfirst] at h
          obtain ⟨hfree, hget⟩ := get?_register hfirst
          rw [ih h, hget name]
          by_cases hname : name = n
          · subst hname
            simp [hfree, eq_comm]
          · simp [hname]

theorem get?_build (h : build kinds = .ok v) : v.get? name = some kind ↔ (name, kind) ∈ kinds := by
  have hget : v.get? name = some kind ↔ empty.get? name = some kind ∨ (name, kind) ∈ kinds :=
    get?_registerAll h
  have hnone : empty.get? name = none := rfl
  simpa [hnone] using hget

theorem name_of_registerAll (h : v.registerAll kinds = .ok w) (hmem : (name, kind) ∈ kinds) :
    name ∉ reservedNames ∧ isKindName name = true := by
  induction kinds generalizing v with
  | nil => cases hmem
  | cons first kinds ih =>
      obtain ⟨n, k⟩ := first
      cases hfirst : v.register n k with
      | error e =>
          rw [registerAll, hfirst] at h
          cases h
      | ok u =>
          rw [registerAll, hfirst] at h
          rcases List.mem_cons.mp hmem with heq | hmem
          · obtain ⟨rfl, rfl⟩ := Prod.mk.inj heq
            obtain ⟨hreserved, hname, -⟩ := nameFault?_eq_none.mp (nameFault?_of_register hfirst)
            exact ⟨hreserved, hname⟩
          · exact ih h hmem

-- What is registered has the name of a kind, and no condition that combines others has it.
theorem name_of_build (h : build kinds = .ok v) (hget : v.get? name = some kind) :
    name ∉ reservedNames ∧ isKindName name = true :=
  name_of_registerAll h ((get?_build h).mp hget)

end Registered

-- The same kind under each of some names, or none under either.
def AgreeOn (v w : Vocabulary) (names : List String) : Prop :=
  ∀ name ∈ names, v.get? name = w.get? name

section Agreement

variable {v w : Vocabulary} {names : List String} {name : String}

theorem AgreeOn.mono {fewer : List String} (h : v.AgreeOn w names) (hsub : fewer ⊆ names) :
    v.AgreeOn w fewer :=
  fun name hname => h name (hsub hname)

theorem AgreeOn.compareValues (h : v.AgreeOn w names) (hname : name ∈ names) :
    v.compareValues name = w.compareValues name := by
  unfold Vocabulary.compareValues
  rw [h name hname]

theorem AgreeOn.scoreValue (h : v.AgreeOn w names) (hname : name ∈ names) :
    v.scoreValue name = w.scoreValue name := by
  unfold Vocabulary.scoreValue
  rw [h name hname]

end Agreement

end SearchQuery.Vocabulary
