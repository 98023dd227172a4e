import SearchQuery.Proofs.Tree

-- The places of a condition, and what is put into them.

namespace SearchQuery.Condition

-- The part at a place. A place is told by the position of the operand to go on with, from
-- the top down.
def partAt? (c : Condition) : List Nat → Option Condition
  | [] => some c
  | i :: place => c.operands[i]?.bind fun o => o.partAt? place

def withOperands : Condition → List Condition → Condition
  | not _, [o] => not o
  | and _, os => and os
  | or _, os => or os
  | c, _ => c

-- The condition with another part at a place.
def replaceAt (c new : Condition) : List Nat → Condition
  | [] => new
  | i :: place => c.withOperands (c.operands.modify i fun o => o.replaceAt new place)

variable {c o s s' : Condition} {os : List Condition} {i : Nat}

theorem operands_withOperands (h : os.length = c.operands.length) :
    (c.withOperands os).operands = os := by
  cases c with
  | not c =>
      obtain ⟨o, rfl⟩ := List.length_eq_one_iff.mp h
      rfl
  | and cs => rfl
  | or cs => rfl
  | leaf kind value =>
      obtain rfl : os = [] := List.length_eq_zero_iff.mp h
      rfl

-- What is put into a place is found there.
theorem partAt?_replaceAt {s : Condition} (new : Condition) (place : List Nat)
    (h : c.partAt? place = some s) : (c.replaceAt new place).partAt? place = some new := by
  induction place generalizing c with
  | nil => rfl
  | cons i place ih =>
      obtain ⟨o, ho, hpart⟩ := Option.bind_eq_some_iff.mp h
      rw [replaceAt, partAt?, operands_withOperands (List.length_modify ..),
        List.getElem?_modify_eq, ho]
      exact ih hpart

section View

variable {β : Type} {view : Condition → β}

theorem map_modify {f : Condition → Condition} (ho : os[i]? = some o)
    (h : view (f o) = view o) : (os.modify i f).map view = os.map view := by
  apply List.ext_getElem?
  intro j
  rw [List.getElem?_map, List.getElem?_map, List.getElem?_modify]
  by_cases hij : i = j
  · subst hij
    simp [ho, h]
  · simp [hij]

-- By induction on the place. A view of conditions that shows nothing of operands but the same
-- view of them stays as it is on the whole way up from a part.
theorem view_replaceAt
    (hview : ∀ (c : Condition) (os : List Condition), os.map view = c.operands.map view →
      view (c.withOperands os) = view c)
    (place : List Nat) (hs : c.partAt? place = some s) (h : view s' = view s) :
    view (c.replaceAt s' place) = view c := by
  induction place generalizing c with
  | nil =>
      obtain rfl : c = s := Option.some.inj hs
      exact h
  | cons i place ih =>
      obtain ⟨o, ho, hpart⟩ := Option.bind_eq_some_iff.mp hs
      exact hview c _ (map_modify ho (ih hpart))

end View

end SearchQuery.Condition
