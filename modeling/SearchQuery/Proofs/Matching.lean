import Mathlib.Data.Multiset.ZeroCons
import SearchQuery.Condition.Order

-- The matching of two lists without regard to order, in which each element of one list
-- takes the first partner that is left in the other. It does not matter whose elements do
-- the taking, since the same pairs are made, and where related elements can stand in for each
-- other, no element takes a partner that another one needs.

namespace SearchQuery

section TakeFirst

variable {β : Type} {test : β → Bool} {ys rest : List β}

theorem takeFirst_cons_of_not (test : β → Bool) {y : β} (h : test y = false) :
    takeFirst test (y :: ys) = (takeFirst test ys).map fun rest => y :: rest := by
  simp [takeFirst, h]

theorem length_of_takeFirst (h : takeFirst test ys = some rest) :
    ys.length = rest.length + 1 := by
  induction ys generalizing rest with
  | nil => cases h
  | cons y ys ih =>
      cases hy : test y with
      | true =>
          obtain rfl : ys = rest := by simpa [takeFirst, hy] using h
          rfl
      | false =>
          rw [takeFirst_cons_of_not test hy] at h
          obtain ⟨rest', hr, rfl⟩ := Option.map_eq_some_iff.mp h
          simp [ih hr]

-- What is left is the list without an element that passes the test.
theorem exists_cons_of_takeFirst (h : takeFirst test ys = some rest) :
    ∃ y, test y = true ∧ (ys : Multiset β) = y ::ₘ rest := by
  induction ys generalizing rest with
  | nil => cases h
  | cons y ys ih =>
      cases hy : test y with
      | true =>
          obtain rfl : ys = rest := by simpa [takeFirst, hy] using h
          exact ⟨y, hy, rfl⟩
      | false =>
          rw [takeFirst_cons_of_not test hy] at h
          obtain ⟨rest', hr, rfl⟩ := Option.map_eq_some_iff.mp h
          obtain ⟨z, hz, hys⟩ := ih hr
          refine ⟨z, hz, ?_⟩
          rw [← Multiset.cons_coe, hys, Multiset.cons_swap, Multiset.cons_coe]

theorem subset_of_takeFirst (h : takeFirst test ys = some rest) : rest ⊆ ys := by
  obtain ⟨y, -, hys⟩ := exists_cons_of_takeFirst h
  intro z hz
  rw [← Multiset.mem_coe, hys]
  exact Multiset.mem_cons_of_mem (Multiset.mem_coe.mpr hz)

theorem exists_takeFirst_of_mem {y : β} (hy : y ∈ ys) (ht : test y = true) :
    ∃ rest, takeFirst test ys = some rest := by
  induction ys with
  | nil => cases hy
  | cons z ys ih =>
      cases hz : test z with
      | true => exact ⟨ys, by simp [takeFirst, hz]⟩
      | false =>
          have hne : y ≠ z := by
            rintro rfl
            simp [ht] at hz
          obtain ⟨rest, hr⟩ := ih ((List.mem_cons.mp hy).resolve_left hne)
          exact ⟨z :: rest, by simp [takeFirst, hz, hr]⟩

theorem takeFirst_congr {test' : β → Bool} (h : ∀ y ∈ ys, test y = test' y) :
    takeFirst test ys = takeFirst test' ys := by
  induction ys with
  | nil => rfl
  | cons y ys ih =>
      obtain ⟨hy, hys⟩ := List.forall_mem_cons.mp h
      simp [takeFirst, hy, ih hys]

end TakeFirst

section TakeEach

variable {α β : Type}

theorem takeEach_cons (test : β → Bool) (tests : List (β → Bool)) (ys : List β) :
    takeEach (test :: tests) ys = (takeFirst test ys).any (takeEach tests) := by
  cases h : takeFirst test ys <;> simp [takeEach, h]

theorem takeEach_congr {eq eq' : α → β → Bool} {xs : List α} {ys : List β}
    (h : ∀ x ∈ xs, ∀ y ∈ ys, eq x y = eq' x y) :
    takeEach (xs.map eq) ys = takeEach (xs.map eq') ys := by
  induction xs generalizing ys with
  | nil => rfl
  | cons x xs ih =>
      obtain ⟨hx, hxs⟩ := List.forall_mem_cons.mp h
      simp only [List.map_cons, takeEach_cons, takeFirst_congr hx]
      cases hr : takeFirst (eq' x) ys with
      | none => rfl
      | some rest =>
          exact ih fun z hz y hy => hxs z hz y (subset_of_takeFirst hr hy)

end TakeEach

section Couples

open scoped List

variable {α β : Type}

-- The pair that an element makes with the first partner that it finds, if there is one.
def couple (eq : α → β → Bool) (x : α) (ys : List β) : List (α × β) :=
  ((ys.find? (eq x)).map fun y => (x, y)).toList

-- The pairs that are made when each element of one list in turn takes the first partner that
-- is left in the other. An element that finds none stays alone.
def couples (eq : α → β → Bool) : List α → List β → List (α × β)
  | [], _ => []
  | x :: xs, ys => couple eq x ys ++ couples eq xs (ys.eraseP (eq x))

variable {eq : α → β → Bool} {x : α} {xs : List α} {y : β} {ys : List β}

theorem couples_nil (eq : α → β → Bool) (xs : List α) : couples eq xs [] = [] := by
  induction xs with
  | nil => rfl
  | cons x xs ih => exact ih

theorem couples_cons_of_related (h : eq x y = true) (xs : List α) (ys : List β) :
    couples eq (x :: xs) (y :: ys) = (x, y) :: couples eq xs ys := by
  simp [couples, couple, h]

theorem couples_cons_of_not (h : eq x y = false) (xs : List α) (ys : List β) :
    couples eq (x :: xs) (y :: ys) =
      couple eq x ys ++ couples eq xs (y :: ys.eraseP (eq x)) := by
  simp [couples, couple, h]

-- If `x` and `y` come first and are not related, each has its partner in the rest of the other
-- list, and neither choice touches the other. So either of them can choose first.
theorem couples_swap_of_not (hxy : eq x y = false)
    (hswap : ∀ xs' ys', xs'.length + ys'.length ≤ xs.length + ys.length + 1 →
      couples (fun y x => eq x y) ys' xs' ~ (couples eq xs' ys').map Prod.swap) :
    couples (fun y x => eq x y) (y :: ys) (x :: xs) ~
      (couples eq (x :: xs) (y :: ys)).map Prod.swap := by
  have hxs : (xs.eraseP fun x => eq x y).length ≤ xs.length := List.length_eraseP_le
  have hys : (ys.eraseP (eq x)).length ≤ ys.length := List.length_eraseP_le
  rw [couples_cons_of_not hxy, couples_cons_of_not (by exact hxy), List.map_append]
  generalize hxs' : (xs.eraseP fun x => eq x y) = xs' at hxs ⊢
  generalize hys' : ys.eraseP (eq x) = ys' at hys ⊢
  have hleft := hswap (x :: xs') ys (by simp; omega)
  have hright := hswap xs (y :: ys') (by simp; omega)
  have hrest := hswap xs' ys' (by omega)
  rw [couples, hys', List.map_append] at hleft
  rw [couples, hxs'] at hright
  calc couple (fun y x => eq x y) y xs ++ couples (fun y x => eq x y) ys (x :: xs')
    _ ~ couple (fun y x => eq x y) y xs ++
        ((couple eq x ys).map Prod.swap ++ (couples eq xs' ys').map Prod.swap) :=
      hleft.append_left _
    _ ~ (couple eq x ys).map Prod.swap ++
        (couple (fun y x => eq x y) y xs ++ (couples eq xs' ys').map Prod.swap) :=
      List.perm_append_comm_assoc _ _ _
    _ ~ (couple eq x ys).map Prod.swap ++
        (couple (fun y x => eq x y) y xs ++ couples (fun y x => eq x y) ys' xs') :=
      (hrest.symm.append_left _).append_left _
    _ ~ (couple eq x ys).map Prod.swap ++ (couples eq xs (y :: ys')).map Prod.swap :=
      hright.append_left _

-- Whichever side does the taking, the same pairs are made. By induction on both lengths, since
-- the lists that are left are shorter from the one side or from the other.
theorem couples_swap (eq : α → β → Bool) (xs : List α) (ys : List β) :
    couples (fun y x => eq x y) ys xs ~ (couples eq xs ys).map Prod.swap := by
  induction hn : xs.length + ys.length using Nat.strongRecOn generalizing xs ys with
  | ind n ih =>
      cases xs with
      | nil => rw [couples_nil, couples, List.map_nil]
      | cons x xs =>
          cases ys with
          | nil => rw [couples_nil, couples, List.map_nil]
          | cons y ys =>
              simp only [List.length_cons] at hn
              by_cases hxy : eq x y = true
              · rw [couples_cons_of_related hxy, couples_cons_of_related (by exact hxy)]
                exact (ih _ (by omega) xs ys rfl).cons _
              · apply couples_swap_of_not (Bool.not_eq_true _ ▸ hxy)
                intro xs' ys' hle
                exact ih _ (by omega) xs' ys' rfl

theorem map_fst_couples_sublist (eq : α → β → Bool) (xs : List α) (ys : List β) :
    (couples eq xs ys).map Prod.fst <+ xs := by
  induction xs generalizing ys with
  | nil => simp [couples]
  | cons x xs ih =>
      rw [couples, couple, List.map_append]
      cases ys.find? (eq x) with
      | none => exact (ih _).cons x
      | some y => exact (ih _).cons_cons x

theorem takeFirst_eq (test : β → Bool) (ys : List β) :
    takeFirst test ys = (ys.find? test).map fun _ => ys.eraseP test := by
  induction ys with
  | nil => rfl
  | cons y ys ih =>
      by_cases hy : test y = true
      · simp [takeFirst, hy]
      · simp [takeFirst, hy, ih, Function.comp_def]

-- Each element finds a partner just if all of them are in pairs.
theorem takeEach_iff (eq : α → β → Bool) (xs : List α) (ys : List β) :
    takeEach (xs.map eq) ys = true ↔ (couples eq xs ys).map Prod.fst = xs := by
  induction xs generalizing ys with
  | nil => simp [couples, takeEach]
  | cons x xs ih =>
      rw [List.map_cons, takeEach_cons, takeFirst_eq, couples, couple]
      cases h : ys.find? (eq x) with
      | none =>
          have hle := (map_fst_couples_sublist eq xs (ys.eraseP (eq x))).length_le
          simp only [Option.map_none, Option.any_none, Option.toList_none, List.nil_append,
            Bool.false_eq_true, false_iff]
          intro hall
          rw [hall, List.length_cons] at hle
          omega
      | some y => simp [ih]

end Couples

section SameElements

variable {α β : Type} {eq : α → β → Bool} {xs : List α} {ys : List β}

theorem length_of_sameElements (h : sameElements eq xs ys = true) : xs.length = ys.length := by
  simp only [sameElements, Bool.and_eq_true, beq_iff_eq] at h
  exact h.1

theorem sameElements_cons_of_takeFirst {x : α} {rest : List β} (h : takeFirst (eq x) ys = some rest) :
    sameElements eq (x :: xs) ys = sameElements eq xs rest := by
  rw [sameElements, sameElements, List.map_cons, takeEach_cons, h, Option.any_some,
    length_of_takeFirst h]
  simp

theorem sameElements_congr {eq' : α → β → Bool} (h : ∀ x ∈ xs, ∀ y ∈ ys, eq x y = eq' x y) :
    sameElements eq xs ys = sameElements eq' xs ys := by
  simp only [sameElements, takeEach_congr h]

theorem sameElements_iff_couples (eq : α → β → Bool) (xs : List α) (ys : List β) :
    sameElements eq xs ys = true ↔
      xs.length = ys.length ∧ (couples eq xs ys).map Prod.fst = xs := by
  rw [sameElements, Bool.and_eq_true, beq_iff_eq, takeEach_iff]

theorem sameElements_of_swap (h : sameElements eq xs ys = true) :
    sameElements (fun y x => eq x y) ys xs = true := by
  obtain ⟨hlen, hall⟩ := (sameElements_iff_couples eq xs ys).mp h
  have hcouples := (couples_swap eq xs ys).length_eq
  have hall := congrArg List.length hall
  rw [List.length_map] at hcouples hall
  apply (sameElements_iff_couples _ ys xs).mpr
  refine ⟨hlen.symm, (map_fst_couples_sublist _ ys xs).eq_of_length ?_⟩
  rw [List.length_map]
  omega

-- Whose elements take their partners does not matter, for any relation at all.
theorem sameElements_swap (eq : α → β → Bool) (xs : List α) (ys : List β) :
    sameElements eq xs ys = sameElements (fun y x => eq x y) ys xs :=
  Bool.eq_iff_iff.mpr ⟨sameElements_of_swap, sameElements_of_swap⟩

theorem rel_of_takeEach (hlen : xs.length = ys.length) (h : takeEach (xs.map eq) ys = true) :
    Multiset.Rel (fun x y => eq x y = true) (xs : Multiset α) (ys : Multiset β) := by
  induction xs generalizing ys with
  | nil =>
      obtain rfl : ys = [] := List.length_eq_zero_iff.mp hlen.symm
      exact .zero
  | cons x xs ih =>
      rw [List.map_cons, takeEach_cons] at h
      cases hr : takeFirst (eq x) ys with
      | none => simp [hr] at h
      | some rest =>
          have hl := length_of_takeFirst hr
          obtain ⟨y, hy, hys⟩ := exists_cons_of_takeFirst hr
          rw [← Multiset.cons_coe, hys]
          simp only [List.length_cons] at hlen
          exact .cons hy (ih (by omega) (by simpa [hr] using h))

-- A matching pairs the elements of the two lists off.
theorem rel_of_sameElements (h : sameElements eq xs ys = true) :
    Multiset.Rel (fun x y => eq x y = true) (xs : Multiset α) (ys : Multiset β) := by
  refine rel_of_takeEach (length_of_sameElements h) ?_
  simp only [sameElements, Bool.and_eq_true] at h
  exact h.2

-- `x` may take another partner `y` than the `z` that it is paired off with. The element
-- `w` that loses `y` then gets `z`, which is why `w` has to be related to `z`.
theorem takeEach_of_rel
    (hzag : ∀ x ∈ xs, ∀ w ∈ xs, ∀ y ∈ ys, ∀ z ∈ ys,
      eq x z = true → eq x y = true → eq w y = true → eq w z = true)
    (h : Multiset.Rel (fun x y => eq x y = true) (xs : Multiset α) (ys : Multiset β)) :
    takeEach (xs.map eq) ys = true := by
  induction xs generalizing ys with
  | nil => rfl
  | cons x xs ih =>
      rw [← Multiset.cons_coe, Multiset.rel_cons_left] at h
      obtain ⟨z, zs, hz, hxs, hys⟩ := h
      have hzmem : z ∈ ys := by
        rw [← Multiset.mem_coe, hys]
        exact Multiset.mem_cons_self z zs
      obtain ⟨rest, hr⟩ := exists_takeFirst_of_mem hzmem hz
      obtain ⟨y, hy, hys'⟩ := exists_cons_of_takeFirst hr
      have hsub := subset_of_takeFirst hr
      rw [List.map_cons, takeEach_cons, hr, Option.any_some]
      apply ih
      · intro a ha w hw b hb c hc
        exact hzag a (by simp [ha]) w (by simp [hw]) b (hsub hb) c (hsub hc)
      · rcases Multiset.cons_eq_cons.mp (hys'.symm.trans hys) with ⟨-, hrest⟩ | ⟨-, cs, hrest, hzs⟩
        · rw [hrest]
          exact hxs
        · rw [hzs] at hxs
          obtain ⟨w, ws, hw, hws, hxw⟩ := Multiset.rel_cons_right.mp hxs
          have hwmem : w ∈ xs := by
            rw [← Multiset.mem_coe, hxw]
            exact Multiset.mem_cons_self w ws
          have hymem : y ∈ ys := by
            rw [← Multiset.mem_coe, hys']
            exact Multiset.mem_cons_self y _
          rw [hrest, hxw]
          exact .cons (hzag x (by simp) w (by simp [hwmem]) y hymem z hzmem hz hy hw) hws

-- Where related elements can stand in for each other, lists match if their elements can be
-- paired off at all.
theorem sameElements_of_rel
    (hzag : ∀ x ∈ xs, ∀ w ∈ xs, ∀ y ∈ ys, ∀ z ∈ ys,
      eq x z = true → eq x y = true → eq w y = true → eq w z = true)
    (h : Multiset.Rel (fun x y => eq x y = true) (xs : Multiset α) (ys : Multiset β)) :
    sameElements eq xs ys = true := by
  have hlen : xs.length = ys.length := by simpa using Multiset.card_eq_card_of_rel h
  simp only [sameElements, Bool.and_eq_true, beq_iff_eq]
  exact ⟨hlen, takeEach_of_rel hzag h⟩

-- From either side the answer is the same, and so are the pairs, whether or not all elements
-- find a partner. The answer is that they all do.
theorem sameElements_and_couples_swap (eq : α → β → Bool) (xs : List α) (ys : List β) :
    sameElements eq xs ys = sameElements (fun y x => eq x y) ys xs ∧
      (couples (fun y x => eq x y) ys xs).Perm ((couples eq xs ys).map Prod.swap) ∧
      (sameElements eq xs ys = true ↔
        xs.length = ys.length ∧ (couples eq xs ys).map Prod.fst = xs) :=
  ⟨sameElements_swap eq xs ys, couples_swap eq xs ys, sameElements_iff_couples eq xs ys⟩

end SameElements

section Comparisons

variable {α β : Type} {eq eq' : α → β → Bool} {xs : List α} {ys : List β}

-- Of the elements that are asked for, the last one passes, if any does.
theorem filter_askedFirst (test : β → Bool) (ys : List β) :
    (askedFirst test ys).filter test = (ys.find? test).toList := by
  induction ys with
  | nil => rfl
  | cons y ys ih =>
      by_cases hy : test y = true
      · simp [askedFirst, hy]
      · simp [askedFirst, hy, ih]

theorem filter_map_askedFirst (eq : α → β → Bool) (x : α) (ys : List β) :
    ((askedFirst (eq x) ys).map fun y => (x, y)).filter (fun p => eq p.1 p.2) = couple eq x ys := by
  rw [List.filter_map, couple, Option.toList_map, ← filter_askedFirst]
  rfl

-- The comparisons that succeed make the pairs, until an element finds no partner.
theorem takeEach_iff_comparisons (eq : α → β → Bool) (xs : List α) (ys : List β) :
    takeEach (xs.map eq) ys = true ↔
      ((comparisons.go eq xs ys).filter fun p => eq p.1 p.2).map Prod.fst = xs := by
  induction xs generalizing ys with
  | nil => simp [comparisons.go, takeEach]
  | cons x xs ih =>
      rw [List.map_cons, takeEach_cons, comparisons.go, List.filter_append, filter_map_askedFirst,
        couple, takeFirst_eq]
      cases h : ys.find? (eq x) with
      | none => simp
      | some y => simp [ih]

theorem askedFirst_congr {test test' : β → Bool}
    (h : ∀ y ∈ askedFirst test ys, test y = test' y) :
    askedFirst test ys = askedFirst test' ys ∧ takeFirst test ys = takeFirst test' ys := by
  induction ys with
  | nil => exact ⟨rfl, rfl⟩
  | cons y ys ih =>
      cases hy : test y with
      | true =>
          have hy' : test' y = true := (h y (by simp [askedFirst, hy])).symm.trans hy
          simp [askedFirst, takeFirst, hy, hy']
      | false =>
          have hy' : test' y = false := (h y (by simp [askedFirst, hy])).symm.trans hy
          obtain ⟨hasked, htaken⟩ := ih fun z hz => h z (by simp [askedFirst, hy, hz])
          simp [askedFirst, takeFirst, hy, hy', hasked, htaken]

theorem comparisons_go_congr (h : ∀ p ∈ comparisons.go eq xs ys, eq p.1 p.2 = eq' p.1 p.2) :
    comparisons.go eq xs ys = comparisons.go eq' xs ys ∧
      takeEach (xs.map eq) ys = takeEach (xs.map eq') ys := by
  induction xs generalizing ys with
  | nil => exact ⟨rfl, rfl⟩
  | cons x xs ih =>
      rw [comparisons.go, List.forall_mem_append, List.forall_mem_map] at h
      obtain ⟨hasked, htaken⟩ := askedFirst_congr h.1
      rw [comparisons.go, comparisons.go, List.map_cons, List.map_cons, takeEach_cons,
        takeEach_cons, ← hasked, ← htaken]
      cases hr : takeFirst (eq x) ys with
      | none => exact ⟨rfl, rfl⟩
      | some rest =>
          rw [hr] at h
          obtain ⟨hgo, heach⟩ := ih h.2
          exact ⟨congrArg _ hgo, heach⟩

theorem comparisons_of_length_eq (h : xs.length = ys.length) (eq : α → β → Bool) :
    comparisons eq xs ys = comparisons.go eq xs ys :=
  if_pos (beq_iff_eq.mpr h)

-- Lists of one length hold the same elements just if the comparisons that succeed are one for
-- each element of the first, in order.
theorem sameElements_iff_comparisons (eq : α → β → Bool) (xs : List α) (ys : List β) :
    sameElements eq xs ys = true ↔
      xs.length = ys.length ∧
        ((comparisons eq xs ys).filter fun p => eq p.1 p.2).map Prod.fst = xs := by
  rw [sameElements, Bool.and_eq_true, beq_iff_eq, takeEach_iff_comparisons]
  refine and_congr_right fun hlen => ?_
  rw [comparisons_of_length_eq hlen]

-- No other pairs are compared: a relation that agrees on these finds the same.
theorem comparisons_congr (h : ∀ p ∈ comparisons eq xs ys, eq p.1 p.2 = eq' p.1 p.2) :
    comparisons eq xs ys = comparisons eq' xs ys ∧
      sameElements eq xs ys = sameElements eq' xs ys := by
  by_cases hlen : xs.length = ys.length
  · rw [comparisons_of_length_eq hlen] at h ⊢
    rw [comparisons_of_length_eq hlen, sameElements, sameElements]
    exact (comparisons_go_congr h).imp_right (congrArg _)
  · have hne : (xs.length == ys.length) = false := by simpa using hlen
    simp [comparisons, sameElements, hne]

end Comparisons

end SearchQuery
