import Mathlib.Data.Fintype.Fin
import Mathlib.Logic.Equiv.Fin.Basic
import SearchQuery.Proofs.Matching

-- What the matching of two lists decides. If it succeeds, the positions of the lists
-- correspond one to one. For an equivalence it finds every such correspondence, so only the
-- number of elements of each class counts, and not their order.

namespace SearchQuery

section Positions

variable {α β : Type} {r : α → β → Prop} {x : α} {xs : List α} {y : β} {ys zs : List β}

-- The positions of two lists correspond one to one, so that related elements stand at them.
def OneToOne (r : α → β → Prop) (xs : List α) (ys : List β) : Prop :=
  ∃ σ : Fin xs.length ≃ Fin ys.length, ∀ i, r (xs.get i) (ys.get (σ i))

theorem OneToOne.cons (hxy : r x y) (h : OneToOne r xs ys) : OneToOne r (x :: xs) (y :: ys) := by
  obtain ⟨σ, hσ⟩ := h
  refine ⟨(finSuccEquiv _).trans (σ.optionCongr.trans (finSuccEquiv _).symm), fun i => ?_⟩
  refine Fin.cases ?_ (fun i => ?_) i
  · simpa using hxy
  · simpa using hσ i

theorem OneToOne.trans_eq (h : OneToOne r xs zs) (h' : OneToOne Eq zs ys) : OneToOne r xs ys := by
  obtain ⟨σ, hσ⟩ := h
  obtain ⟨τ, hτ⟩ := h'
  exact ⟨σ.trans τ, fun i => hτ (σ i) ▸ hσ i⟩

theorem oneToOne_of_perm (h : zs.Perm ys) : OneToOne Eq zs ys := by
  induction h with
  | nil => exact ⟨Equiv.refl _, fun i => i.elim0⟩
  | cons y _ ih => exact ih.cons rfl
  | swap y z ys =>
      let τ : Equiv.Perm (Fin (ys.length + 2)) := Equiv.swap 0 1
      refine ⟨τ, fun i => ?_⟩
      refine Fin.cases ?_ (fun i => Fin.cases ?_ (fun i => ?_) i) i
      · simp [τ]
      · simp [τ]
      · have hfixed : τ i.succ.succ = i.succ.succ :=
          Equiv.swap_apply_of_ne_of_ne (by simp) (by simp [Fin.ext_iff])
        rw [hfixed]
        rfl
  | trans _ _ ih ih' => exact ih.trans_eq ih'

-- Elements can be paired off just if their positions correspond.
theorem oneToOne_iff_rel :
    OneToOne r xs ys ↔ Multiset.Rel r (xs : Multiset α) (ys : Multiset β) := by
  constructor
  · rintro ⟨σ, hσ⟩
    have hxs : Multiset.map xs.get Finset.univ.val = (xs : Multiset α) := by
      rw [Fin.univ_val_map, List.ofFn_get]
    have hys : Multiset.map (ys.get ∘ σ) Finset.univ.val = (ys : Multiset β) := by
      rw [← Multiset.map_map, Multiset.map_univ_val_equiv, Fin.univ_val_map, List.ofFn_get]
    rw [← hxs, ← hys, Multiset.rel_map]
    exact Multiset.rel_refl_of_refl_on fun i _ => hσ i
  · intro h
    induction xs generalizing ys with
    | nil =>
        obtain rfl : ys = [] := by simpa using Multiset.rel_zero_left.mp h
        exact ⟨Equiv.refl _, fun i => i.elim0⟩
    | cons x xs ih =>
        rw [← Multiset.cons_coe, Multiset.rel_cons_left] at h
        obtain ⟨y, rest, hxy, hrel, hys⟩ := h
        obtain ⟨zs, rfl⟩ := Quot.exists_rep rest
        exact ((ih hrel).cons hxy).trans_eq (oneToOne_of_perm (Multiset.coe_eq_coe.mp hys.symm))

theorem oneToOne_of_sameElements {eq : α → β → Bool} (h : sameElements eq xs ys = true) :
    OneToOne (fun x y => eq x y = true) xs ys :=
  oneToOne_iff_rel.mpr (rel_of_sameElements h)

end Positions

section Classes

variable {α : Type} {eq : α → α → Bool} {xs ys : List α}

theorem eq_congr_right (heq : Equivalence fun x y => eq x y = true) {x y : α} (z : α)
    (h : eq x y = true) : eq z x = eq z y :=
  Bool.eq_iff_iff.mpr ⟨fun hzx => heq.trans hzx h, fun hzy => heq.trans hzy (heq.symm h)⟩

-- Elements that are paired off lie in the same classes.
theorem countP_eq_of_rel (heq : Equivalence fun x y => eq x y = true) {s t : Multiset α}
    (h : Multiset.Rel (fun x y => eq x y = true) s t) (z : α) :
    s.countP (fun x => eq z x = true) = t.countP fun x => eq z x = true := by
  induction h with
  | zero => rfl
  | cons hxy _ ih => rw [Multiset.countP_cons, Multiset.countP_cons, ih, eq_congr_right heq z hxy]

theorem countP_eq_of_oneToOne (heq : Equivalence fun x y => eq x y = true)
    (h : OneToOne (fun x y => eq x y = true) xs ys) (z : α) :
    xs.countP (eq z) = ys.countP (eq z) := by
  simpa using countP_eq_of_rel heq (oneToOne_iff_rel.mp h) z

-- Each element in turn finds a partner of its class, and then both are out of the count.
theorem sameElements_of_countP (heq : Equivalence fun x y => eq x y = true)
    (h : ∀ z, xs.countP (eq z) = ys.countP (eq z)) : sameElements eq xs ys = true := by
  induction xs generalizing ys with
  | nil =>
      have hnone : ys = [] := by
        apply List.eq_nil_iff_forall_not_mem.mpr
        intro y hy
        have hpos := List.countP_pos_iff.mpr ⟨y, hy, heq.refl y⟩
        have hzero := h y
        rw [List.countP_nil] at hzero
        omega
      rw [hnone]
      rfl
  | cons x xs ih =>
      have hpos : 0 < ys.countP (eq x) := by
        rw [← h x, List.countP_cons_of_pos (heq.refl x)]
        omega
      obtain ⟨w, hw, hxw⟩ := List.countP_pos_iff.mp hpos
      obtain ⟨rest, hrest⟩ := exists_takeFirst_of_mem hw hxw
      obtain ⟨y, hxy, hys⟩ := exists_cons_of_takeFirst hrest
      rw [sameElements_cons_of_takeFirst hrest]
      apply ih
      intro z
      have hcount := h z
      rw [(Multiset.coe_eq_coe.mp hys).countP_eq, List.countP_cons, List.countP_cons,
        eq_congr_right heq z hxy] at hcount
      omega

end Classes

-- A matching that succeeds gives a correspondence of positions, whatever the relation. For an
-- equivalence it succeeds if there is one at all, which is to say if both lists hold as many
-- elements of each class, so that it does not depend on the order of either list.
theorem sameElements_iff_oneToOne {α : Type} (eq : α → α → Bool) :
    (∀ xs ys, sameElements eq xs ys = true → OneToOne (fun x y => eq x y = true) xs ys) ∧
      (Equivalence (fun x y => eq x y = true) → ∀ xs ys,
        (sameElements eq xs ys = true ↔ OneToOne (fun x y => eq x y = true) xs ys) ∧
        (sameElements eq xs ys = true ↔ ∀ z, xs.countP (eq z) = ys.countP (eq z)) ∧
        ∀ xs' ys', xs.Perm xs' → ys.Perm ys' →
          sameElements eq xs' ys' = sameElements eq xs ys) := by
  refine ⟨fun xs ys => oneToOne_of_sameElements, fun heq xs ys => ?_⟩
  have hcount : ∀ as bs, sameElements eq as bs = true ↔ ∀ z, as.countP (eq z) = bs.countP (eq z) := by
    intro as bs
    constructor
    · intro h
      exact countP_eq_of_oneToOne heq (oneToOne_of_sameElements h)
    · exact sameElements_of_countP heq
  refine ⟨⟨oneToOne_of_sameElements, fun h => ?_⟩, hcount xs ys, fun xs' ys' hxs hys => ?_⟩
  · exact sameElements_of_countP heq (countP_eq_of_oneToOne heq h)
  · rw [Bool.eq_iff_iff, hcount, hcount]
    simp only [hxs.countP_eq, hys.countP_eq]

-- Numbers with the same remainder, some of them more than once.
theorem sameElements_iff_oneToOne_remainders :
    let eq : Nat → Nat → Bool := fun m n => m % 3 == n % 3
    Equivalence (fun m n => eq m n = true) ∧
      sameElements eq [1, 4, 2, 7] [5, 10, 1, 13] = true ∧
      OneToOne (fun m n => eq m n = true) [1, 4, 2, 7] [5, 10, 1, 13] ∧
      sameElements eq [7, 2, 4, 1] [10, 13, 5, 1] = true ∧
      sameElements eq [1, 4, 2, 7] [5, 10, 2, 13] = false := by
  intro eq
  have heq : Equivalence (fun m n => eq m n = true) := by
    refine ⟨fun m => ?_, fun {m n} h => ?_, fun {m n k} h h' => ?_⟩
    · simp [eq]
    · simp only [eq, beq_iff_eq] at h ⊢
      omega
    · simp only [eq, beq_iff_eq] at h h' ⊢
      omega
  have hsame : sameElements eq [1, 4, 2, 7] [5, 10, 1, 13] = true := by decide
  obtain ⟨hpositions, hclasses⟩ := sameElements_iff_oneToOne eq
  obtain ⟨-, -, hperm⟩ := hclasses heq [1, 4, 2, 7] [5, 10, 1, 13]
  obtain ⟨-, hcount, -⟩ := hclasses heq [1, 4, 2, 7] [5, 10, 2, 13]
  refine ⟨heq, hsame, hpositions _ _ hsame, ?_, ?_⟩
  · rw [hperm [7, 2, 4, 1] [10, 13, 5, 1] (by decide) (by decide), hsame]
  · apply Bool.eq_false_iff.mpr
    intro h
    have hzero := hcount.mp h 1
    simp [eq] at hzero

end SearchQuery
