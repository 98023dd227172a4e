import SearchQuery.Orders

-- Comparisons that obey the laws of an order on some of the things that they compare.

namespace SearchQuery

-- Comparing the other way round turns the answer over. A thing is then level with itself.
structure OrientedOn {α : Type} (cmp : α → α → Ordering) (P : α → Prop) : Prop where
  swap : ∀ a b, P a → P b → (cmp a b).swap = cmp b a

-- A total preorder: what is not above a thing is not above what that thing is not above.
structure PreorderOn {α : Type} (cmp : α → α → Ordering) (P : α → Prop) : Prop
    extends OrientedOn cmp P where
  trans : ∀ a b c, P a → P b → P c → cmp a b ≠ .gt → cmp b c ≠ .gt → cmp a c ≠ .gt

section Oriented

variable {α : Type} {cmp : α → α → Ordering} {P Q : α → Prop} {a b : α}

theorem OrientedOn.mono (h : OrientedOn cmp P) (hQ : ∀ a, Q a → P a) : OrientedOn cmp Q :=
  ⟨fun a b ha hb => h.swap a b (hQ a ha) (hQ b hb)⟩

theorem OrientedOn.self (h : OrientedOn cmp P) (ha : P a) : cmp a a = .eq := by
  have hs := h.swap a a ha ha
  cases hc : cmp a a <;> simp [hc] at hs ⊢

theorem OrientedOn.eq_symm (h : OrientedOn cmp P) (ha : P a) (hb : P b) (hab : cmp a b = .eq) :
    cmp b a = .eq := by
  rw [← h.swap a b ha hb, hab]
  rfl

theorem OrientedOn.gt_of_lt (h : OrientedOn cmp P) (ha : P a) (hb : P b) (hab : cmp a b = .lt) :
    cmp b a = .gt := by
  rw [← h.swap a b ha hb, hab]
  rfl

theorem OrientedOn.lt_of_gt (h : OrientedOn cmp P) (ha : P a) (hb : P b) (hab : cmp a b = .gt) :
    cmp b a = .lt := by
  rw [← h.swap a b ha hb, hab]
  rfl

end Oriented

section Preorder

variable {α : Type} {cmp : α → α → Ordering} {P Q : α → Prop} {a b c : α}

theorem PreorderOn.mono (h : PreorderOn cmp P) (hQ : ∀ a, Q a → P a) : PreorderOn cmp Q where
  toOrientedOn := h.toOrientedOn.mono hQ
  trans a b c ha hb hc := h.trans a b c (hQ a ha) (hQ b hb) (hQ c hc)

-- Two things that are not above each other are level.
theorem OrientedOn.eq_of_le_of_le (h : OrientedOn cmp P) (ha : P a) (hb : P b)
    (hab : cmp a b ≠ .gt) (hba : cmp b a ≠ .gt) : cmp a b = .eq := by
  cases hc : cmp a b with
  | lt => exact absurd (h.gt_of_lt ha hb hc) hba
  | eq => rfl
  | gt => exact absurd hc hab

theorem PreorderOn.eq_trans (h : PreorderOn cmp P) (ha : P a) (hb : P b) (hc : P c)
    (hab : cmp a b = .eq) (hbc : cmp b c = .eq) : cmp a c = .eq := by
  have hba := h.eq_symm ha hb hab
  have hcb := h.eq_symm hb hc hbc
  apply h.eq_of_le_of_le ha hc
  · exact h.trans a b c ha hb hc (by simp [hab]) (by simp [hbc])
  · exact h.trans c b a hc hb ha (by simp [hcb]) (by simp [hba])

theorem PreorderOn.lt_of_lt_of_le (h : PreorderOn cmp P) (ha : P a) (hb : P b) (hc : P c)
    (hab : cmp a b = .lt) (hbc : cmp b c ≠ .gt) : cmp a c = .lt := by
  cases hac : cmp a c with
  | lt => rfl
  | eq =>
      -- then `c` is not above `a`, and neither is `b`
      have hca := h.eq_symm ha hc hac
      have hba := h.trans b c a hb hc ha hbc (by simp [hca])
      exact absurd (h.gt_of_lt ha hb hab) hba
  | gt => exact absurd hac (h.trans a b c ha hb hc (by simp [hab]) hbc)

theorem PreorderOn.lt_of_le_of_lt (h : PreorderOn cmp P) (ha : P a) (hb : P b) (hc : P c)
    (hab : cmp a b ≠ .gt) (hbc : cmp b c = .lt) : cmp a c = .lt := by
  cases hac : cmp a c with
  | lt => rfl
  | eq =>
      have hca := h.eq_symm ha hc hac
      have hcb := h.trans c a b hc ha hb (by simp [hca]) hab
      exact absurd (h.gt_of_lt hb hc hbc) hcb
  | gt => exact absurd hac (h.trans a b c ha hb hc hab (by simp [hbc]))

-- The comparison that a type brings along is a total preorder on any of its elements.
theorem preorderOn_ord [Ord α] [Std.TransOrd α] (P : α → Prop) : PreorderOn Ord.compare P where
  swap a b _ _ := swap_compare a b
  trans a b c _ _ _ hab hbc := by
    rw [ne_eq, Ordering.ne_gt_iff_isLE] at hab hbc ⊢
    exact Std.TransCmp.isLE_trans hab hbc

-- Things that are all level are in a total preorder.
theorem preorderOn_of_eq (h : ∀ a b, P a → P b → cmp a b = .eq) : PreorderOn cmp P where
  swap a b ha hb := by
    rw [h a b ha hb, h b a hb ha]
    rfl
  trans a b c ha _ hc _ _ := by simp [h a c ha hc]

-- Where one comparison leaves two things level, another decides.
theorem PreorderOn.lex {cmp' : α → α → Ordering} (h : PreorderOn cmp P) (h' : PreorderOn cmp' P) :
    PreorderOn (fun a b => (cmp a b).then (cmp' a b)) P where
  swap a b ha hb := by rw [Ordering.swap_then, h.swap a b ha hb, h'.swap a b ha hb]
  trans a b c ha hb hc hab hbc := by
    rw [ne_eq, Ordering.then_eq_gt] at hab hbc ⊢
    rintro (hgt | ⟨heq, hgt⟩)
    · exact h.trans a b c ha hb hc (fun hab' => hab (.inl hab')) (fun hbc' => hbc (.inl hbc')) hgt
    · -- `a` and `c` are level, and so `b` is level with both
      have hle : cmp a b ≠ .gt := fun hab' => hab (.inl hab')
      have hle' : cmp b c ≠ .gt := fun hbc' => hbc (.inl hbc')
      have hca : cmp c a ≠ .gt := by simp [h.eq_symm ha hc heq]
      have hba := h.trans b c a hb hc ha hle' hca
      have hcb := h.trans c a b hc ha hb hca hle
      have hab' := h.eq_of_le_of_le ha hb hle hba
      have hbc' := h.eq_of_le_of_le hb hc hle' hcb
      exact h'.trans a b c ha hb hc (fun hgt' => hab (.inr ⟨hab', hgt'⟩))
        (fun hgt' => hbc (.inr ⟨hbc', hgt'⟩)) hgt

-- Things may be compared by their keys.
theorem PreorderOn.on {β : Type} (h : PreorderOn cmp P) (key : β → α) :
    PreorderOn (fun b c => cmp (key b) (key c)) fun b => P (key b) where
  swap b c hb hc := h.swap (key b) (key c) hb hc
  trans b c d hb hc hd hbc hcd := h.trans (key b) (key c) (key d) hb hc hd hbc hcd

theorem preorderOn_key {β : Type} [Ord α] [Std.TransOrd α] (key : β → α) (P : β → Prop) :
    PreorderOn (fun b c => Ord.compare (key b) (key c)) P :=
  ((preorderOn_ord fun _ => True).on key).mono fun _ _ => trivial

-- What stands for ordered things is ordered like them.
theorem PreorderOn.image {β : Type} {cmp' : β → β → Ordering} {R : β → Prop} {f : α → β}
    (h : PreorderOn cmp P) (hf : ∀ a b, P a → P b → cmp' (f a) (f b) = cmp a b)
    (hR : ∀ b, R b → ∃ a, P a ∧ f a = b) : PreorderOn cmp' R where
  swap b c hb hc := by
    obtain ⟨a, ha, rfl⟩ := hR b hb
    obtain ⟨a', ha', rfl⟩ := hR c hc
    rw [hf a a' ha ha', hf a' a ha' ha, h.swap a a' ha ha']
  trans b c d hb hc hd := by
    obtain ⟨a, ha, rfl⟩ := hR b hb
    obtain ⟨a', ha', rfl⟩ := hR c hc
    obtain ⟨a'', ha'', rfl⟩ := hR d hd
    rw [hf a a' ha ha', hf a' a'' ha' ha'', hf a a'' ha ha'']
    exact h.trans a a' a'' ha ha' ha''

end Preorder

end SearchQuery
