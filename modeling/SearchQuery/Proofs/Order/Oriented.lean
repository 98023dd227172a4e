import SearchQuery.Proofs.Matching
import SearchQuery.Proofs.Order.Laws
import SearchQuery.Proofs.Tree

-- Comparing two conditions the other way round turns the answer over, however deep they
-- are, if comparing the values of leaves does.

namespace SearchQuery

namespace Condition

variable {v : Vocabulary} {S : Condition → Prop} {as bs : List Condition}

theorem equal_iff {a b : Condition} : equal v a b = true ↔ compare v a b = .eq := by
  simp [equal]

-- Equality is a matching, and a matching does not say whose operands take their partners.
theorem sameElements_equal_comm
    (h : ∀ a ∈ as, ∀ b ∈ bs, (compare v a b).swap = compare v b a) :
    sameElements (equal v) as bs = sameElements (equal v) bs as := by
  rw [sameElements_swap]
  apply sameElements_congr
  intro b hb a ha
  have hs := h a ha b hb
  rw [equal, equal, ← hs]
  cases compare v a b <;> rfl

theorem compareOperands_swap (h : ∀ a ∈ as, ∀ b ∈ bs, (compare v a b).swap = compare v b a) :
    (compareOperands (orders v as) bs).swap = compareOperands (orders v bs) as := by
  rw [compareOperands_orders, compareOperands_orders, sameElements_equal_comm h]
  by_cases hsame : sameElements (equal v) bs as = true
  · simp [hsame]
  by_cases hlen : as.length = bs.length
  · rw [if_neg hsame, if_neg hsame, if_pos hlen, if_pos hlen.symm]
    cases as with
    | nil => cases bs <;> rfl
    | cons a as =>
        cases bs with
        | nil => rfl
        | cons b bs => exact h a (by simp) b (by simp)
  · rw [if_neg hsame, if_neg hsame, if_neg hlen, if_neg (Ne.symm hlen)]
    exact swap_compare _ _

theorem oriented_compare (hS : Hereditary S)
    (hleaf : ∀ kind, OrientedOn (v.compareValues kind) fun x => S (leaf kind x)) :
    OrientedOn (compare v) S := by
  refine ⟨fun a b ha hb => ?_⟩
  induction a generalizing b with
  | not a ih =>
      cases b with
      | not b => exact ih b (hS _ ha a (by simp [operands])) (hS _ hb b (by simp [operands]))
      | and bs => exact swap_compare _ _
      | or bs => exact swap_compare _ _
      | leaf l y => rfl
  | and as ih =>
      cases b with
      | not b => exact swap_compare _ _
      | and bs =>
          exact compareOperands_swap fun a hma b hmb => ih a hma b (hS _ ha a hma) (hS _ hb b hmb)
      | or bs => exact swap_compare _ _
      | leaf l y => rfl
  | or as ih =>
      cases b with
      | not b => exact swap_compare _ _
      | and bs => exact swap_compare _ _
      | or bs =>
          exact compareOperands_swap fun a hma b hmb => ih a hma b (hS _ ha a hma) (hS _ hb b hmb)
      | leaf l y => rfl
  | leaf k x =>
      cases b with
      | not b => rfl
      | and bs => rfl
      | or bs => rfl
      | leaf l y =>
          by_cases hkl : k = l
          · subst hkl
            simp only [compare, if_true]
            exact (hleaf k).swap x y ha hb
          · simp only [compare, hkl, Ne.symm hkl, if_false]
            exact swap_compare k l

end Condition

namespace Vocabulary

-- The orders that kinds bring along give the reverse answer for reversed arguments.
def Oriented (v : Vocabulary) : Prop :=
  ∀ name kind order, v.get? name = some kind → kind.order? = some order →
    ∀ x y, (order x y).swap = order y x

-- The order of all values, which stands in for a missing one, always turns over.
theorem Oriented.compareValues {v : Vocabulary} (h : v.Oriented) (name : String)
    (P : Value → Prop) : OrientedOn (v.compareValues name) P := by
  refine ⟨fun x y _ _ => ?_⟩
  simp only [Vocabulary.compareValues]
  cases hk : v.get? name with
  | none => exact Value.compare_swap x y
  | some kind =>
      simp only [Kind.compare]
      cases ho : kind.order? with
      | none => exact Value.compare_swap x y
      | some order => exact h name kind order hk ho x y

-- Kinds without values.
def ofFlags (names : List String) : Vocabulary :=
  ⟨names.foldr (fun name kinds => kinds.insert name .flag) .empty⟩

theorem get?_ofFlags (names : List String) (name : String) :
    (ofFlags names).get? name = if name ∈ names then some .flag else none := by
  induction names with
  | nil => rfl
  | cons first names ih =>
      have hget : (ofFlags (first :: names)).get? name =
          if name = first then some .flag else (ofFlags names).get? name :=
        NameMap.get?_insert _ _ _ _
      rw [hget, ih]
      by_cases h : name = first <;> simp [h]

theorem compareValues_ofFlags (names : List String) (name : String) (x y : Value) :
    (ofFlags names).compareValues name x y = x.compare y := by
  rw [Vocabulary.compareValues, get?_ofFlags]
  by_cases h : name ∈ names
  · rw [if_pos h]
    rfl
  · rw [if_neg h]

-- Conditions without values are all level.
theorem preorderOn_ofFlags (names : List String) (name : String) {P : Value → Prop}
    (h : ∀ x, P x → x = .unit) : PreorderOn ((ofFlags names).compareValues name) P := by
  refine preorderOn_of_eq fun x y hx hy => ?_
  rw [h x hx, h y hy]
  exact compareValues_ofFlags names name .unit .unit

end Vocabulary

namespace Condition

-- Every condition is level with itself, and comparing two the other way round turns the
-- answer over.
theorem compare_self_and_swap (v : Vocabulary) (h : v.Oriented) (a b : Condition) :
    compare v a a = .eq ∧ compare v a b = (compare v b a).swap ∧ equal v a b = equal v b a := by
  have hor : OrientedOn (compare v) fun _ => True :=
    oriented_compare (fun _ _ _ _ => trivial) fun kind => h.compareValues kind _
  have hswap := hor.swap b a trivial trivial
  refine ⟨hor.self trivial, hswap.symm, ?_⟩
  rw [equal, equal, ← hswap]
  cases compare v b a <;> rfl

-- Conditions with a kind that orders its values, an unknown kind, a kind named like a
-- combination and an empty combination.
theorem compare_self_and_swap_nested :
    let v : Vocabulary := ⟨NameMap.empty.insert "tag" (Kind.ofCodec .string)⟩
    let a := and [or [leaf "tag" (.text "x"), not (and [])], flag "not"]
    let b := and [flag "not", or [not (and []), leaf "tag" (.text "y"), flag "unknown"]]
    v.Oriented ∧ compare v a a = .eq ∧ compare v a b = (compare v b a).swap ∧
      equal v a b = equal v b a := by
  intro v a b
  have h : v.Oriented := by
    intro name kind order hk ho x y
    have hget := NameMap.get?_insert .empty "tag" name (Kind.ofCodec .string)
    rw [NameMap.get?_empty] at hget
    obtain ⟨-, rfl⟩ : name = "tag" ∧ Kind.ofCodec .string = kind := by
      simpa [v, Vocabulary.get?, hget] using hk
    cases ho
    simp only [← Value.compareTexts?_swap x y]
    cases Value.compareTexts? x y <;> rfl
  exact ⟨h, compare_self_and_swap v h a b⟩

end Condition

end SearchQuery
