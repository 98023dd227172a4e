-- The pieces of a list that is cut at a mark. No piece holds the mark, and the list is the pieces
-- with a mark between each two. It has its pieces in this way only.

namespace SearchQuery.Text

variable {α : Type} {p : α → Bool} {mark : α} {xs piece : List α} {pieces : List (List α)}

theorem intercalate_splitOnP (hmark : ∀ x, p x = true → x = mark) (xs : List α) :
    [mark].intercalate (xs.splitOnP p) = xs := by
  induction xs with
  | nil => simp
  | cons x xs ih =>
      obtain ⟨first, rest, hsplit⟩ := List.exists_cons_of_ne_nil (List.splitOnP_ne_nil p xs)
      rw [hsplit] at ih
      rw [List.splitOnP_cons_eq_if_modifyHead, hsplit]
      by_cases hx : p x = true
      · rw [if_pos hx, List.intercalate_cons_cons, ih, hmark x hx]
        rfl
      · rw [if_neg hx, List.modifyHead_cons, List.intercalate_cons_cons_left, ih]

theorem not_of_mem_splitOnP (h : piece ∈ xs.splitOnP p) : ∀ x ∈ piece, p x = false := by
  induction xs generalizing piece with
  | nil => simp_all
  | cons y xs ih =>
      obtain ⟨first, rest, hsplit⟩ := List.exists_cons_of_ne_nil (List.splitOnP_ne_nil p xs)
      rw [hsplit] at ih
      rw [List.splitOnP_cons_eq_if_modifyHead, hsplit] at h
      by_cases hy : p y = true
      · rw [if_pos hy] at h
        rcases List.mem_cons.mp h with rfl | h
        · intro x hx
          cases hx
        · exact ih h
      · rw [if_neg hy, List.modifyHead_cons] at h
        rcases List.mem_cons.mp h with rfl | h
        · rw [List.forall_mem_cons]
          exact ⟨Bool.eq_false_iff.mpr hy, ih List.mem_cons_self⟩
        · exact ih (List.mem_cons_of_mem first h)

theorem splitOnP_intercalate (hmark : p mark = true) (hne : pieces ≠ [])
    (h : ∀ piece ∈ pieces, ∀ x ∈ piece, p x = false) :
    ([mark].intercalate pieces).splitOnP p = pieces := by
  induction pieces with
  | nil => exact absurd rfl hne
  | cons piece pieces ih =>
      obtain ⟨hpiece, hpieces⟩ := List.forall_mem_cons.mp h
      cases pieces with
      | nil => rw [List.intercalate_singleton, List.splitOnP_eq_singleton hpiece]
      | cons other pieces =>
          rw [List.intercalate_cons_cons, List.append_assoc, List.singleton_append,
            List.splitOnP_append_cons_of_forall_mem hpiece mark hmark, ih (by simp) hpieces]

theorem splitOnP_eq_iff (hmark : ∀ x, p x = true ↔ x = mark) (hne : pieces ≠ []) :
    xs.splitOnP p = pieces ↔
      xs = [mark].intercalate pieces ∧ ∀ piece ∈ pieces, ∀ x ∈ piece, p x = false := by
  constructor
  · rintro rfl
    refine ⟨(intercalate_splitOnP (fun x => (hmark x).mp) xs).symm, ?_⟩
    intro piece hpiece
    exact not_of_mem_splitOnP hpiece
  · rintro ⟨rfl, h⟩
    exact splitOnP_intercalate ((hmark mark).mpr rfl) hne h

end SearchQuery.Text
