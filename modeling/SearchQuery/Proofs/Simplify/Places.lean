import SearchQuery.Proofs.Places
import SearchQuery.Proofs.Simplify.Canonical

-- To put the simplest form of a part into the place of the part changes nothing about the
-- simplest form of the whole.

namespace SearchQuery.Condition

variable {v : Vocabulary} {c : Condition}

-- Of its operands, a condition in its simplest form shows nothing but their simplest forms.
theorem simplify_withOperands (c : Condition) (os : List Condition)
    (h : os.map (simplify v) = c.operands.map (simplify v)) :
    simplify v (c.withOperands os) = simplify v c := by
  have hall : simplifyAll v os = simplifyAll v c.operands := by
    have hfound := congrArg (List.filterMap id) h
    rwa [List.filterMap_map, List.filterMap_map, Function.id_comp, ← simplifyAll_eq_filterMap,
      ← simplifyAll_eq_filterMap] at hfound
  cases c with
  | not c =>
      have hlen : os.length = 1 := by simpa [operands] using congrArg List.length h
      obtain ⟨o, rfl⟩ := List.length_eq_one_iff.mp hlen
      have ho : simplify v o = simplify v c := by simpa [operands] using h
      rw [withOperands, simplify, simplify, ho]
  | and cs =>
      have hcs : simplifyAll v os = simplifyAll v cs := hall
      rw [withOperands, simplify, simplify, hcs]
  | or cs =>
      have hcs : simplifyAll v os = simplifyAll v cs := hall
      rw [withOperands, simplify, simplify, hcs]
  | leaf kind value => cases os <;> rfl

theorem simplify_replaceAt {s s' : Condition} (place : List Nat) (hs : c.partAt? place = some s)
    (h : simplify v s' = simplify v s) : simplify v (c.replaceAt s' place) = simplify v c :=
  view_replaceAt simplify_withOperands place hs h

-- Parts may be simplified early, at any place, and what is simplified stays as it is.
theorem simplify_early (v : Vocabulary) (c : Condition) :
    (∀ place s s', c.partAt? place = some s → simplify v s = some s' →
        (c.replaceAt s' place).partAt? place = some s' ∧
          simplify v (c.replaceAt s' place) = simplify v c) ∧
      ∀ c', simplify v c = some c' → simplify v c' = some c' := by
  have hfixed : ∀ s s', simplify v s = some s' → simplify v s' = some s' := fun s s' h =>
    simplify_of_canonical (canonical_of_simplify h)
  refine ⟨fun place s s' hs h => ⟨partAt?_replaceAt s' place hs, ?_⟩, hfixed c⟩
  exact simplify_replaceAt place hs ((hfixed s s' h).trans h.symm)

-- A part that comes to a negation under a negation, beside conditions of a kind that is
-- never level with itself.
theorem simplify_early_negation :
    let v : Vocabulary := ⟨NameMap.empty.insert "x" (Kind.flag.withOrder fun _ _ => .lt)⟩
    let s := or [not (flag "x"), and []]
    let c := and [not s, flag "x", not (not (flag "y")), flag "y"]
    let c' := and [flag "x", flag "x", flag "y"]
    c.partAt? [0, 0] = some s ∧ simplify v s = some (not (flag "x")) ∧
      simplify v (c.replaceAt (not (flag "x")) [0, 0]) = simplify v c ∧
      simplify v c = some c' ∧ simplify v c' = some c' := by
  intro v s c c'
  have hpart : c.partAt? [0, 0] = some s := rfl
  have hs : simplify v s = some (not (flag "x")) := rfl
  have hc : simplify v c = some c' := rfl
  obtain ⟨hplace, hfixed⟩ := simplify_early v c
  exact ⟨hpart, hs, (hplace [0, 0] s _ hpart hs).2, hc, hfixed c' hc⟩

end SearchQuery.Condition
