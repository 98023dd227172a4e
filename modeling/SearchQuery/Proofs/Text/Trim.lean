import Mathlib.Data.List.TakeWhile
import SearchQuery.Text.Blank

-- Text that no blanks are taken off, and text that blanks stand around.

namespace SearchQuery.Text

variable {c : Char} {cs core blanks : List Char}

-- A text that is a core with blanks around it, or no blanks.
def Holds (cs core : List Char) : Prop :=
  ∃ before after, (∀ c ∈ before, isBlankChar c = true) ∧ (∀ c ∈ after, isBlankChar c = true) ∧
    cs = before ++ core ++ after

theorem not_blank_of_isDigit (h : c.isDigit = true) : isBlankChar c = false := by
  simp only [Char.isDigit, Bool.and_eq_true, decide_eq_true_eq, ge_iff_le, UInt32.le_iff_toNat_le] at h
  have hlow : 48 ≤ c.toNat := h.1
  have hhigh : c.toNat ≤ 57 := h.2
  simp only [isBlankChar, Bool.or_eq_false_iff, Bool.and_eq_false_iff, beq_eq_false_iff_ne,
    decide_eq_false_iff_not]
  omega

theorem trimStart_cons (h : isBlankChar c = false) : trimStart (c :: cs) = c :: cs := by
  simp [trimStart, h]

theorem trimStart_of_not_blank (h : ∀ c ∈ cs, isBlankChar c = false) : trimStart cs = cs := by
  cases cs with
  | nil => rfl
  | cons c cs => exact trimStart_cons (h c List.mem_cons_self)

theorem trimStart_append (h : ∀ c ∈ blanks, isBlankChar c = true) :
    trimStart (blanks ++ cs) = trimStart cs :=
  List.dropWhile_append_of_pos h

theorem exists_trimStart (cs : List Char) :
    ∃ before, (∀ c ∈ before, isBlankChar c = true) ∧ cs = before ++ trimStart cs :=
  ⟨cs.takeWhile isBlankChar, fun _ hc => List.mem_takeWhile_imp hc,
    List.takeWhile_append_dropWhile.symm⟩

theorem holds_trimChars (cs : List Char) : Holds cs (trimChars cs) := by
  obtain ⟨before, hbefore, hstart⟩ := exists_trimStart cs
  obtain ⟨after, hafter, hend⟩ := exists_trimStart (trimStart cs).reverse
  refine ⟨before, after.reverse, hbefore, fun c hc => hafter c (List.mem_reverse.mp hc), ?_⟩
  have hcore : trimStart cs = trimChars cs ++ after.reverse := by
    rw [trimChars, ← List.reverse_append, ← hend, List.reverse_reverse]
  rw [List.append_assoc, ← hcore, ← hstart]

-- A core without blanks is what is left, for no blank of it is taken off.
theorem trimChars_of_holds (h : Holds cs core) (hcore : ∀ c ∈ core, isBlankChar c = false) :
    trimChars cs = core := by
  obtain ⟨before, after, hbefore, hafter, rfl⟩ := h
  have hreverse : ∀ c ∈ after.reverse, isBlankChar c = true :=
    fun c hc => hafter c (List.mem_reverse.mp hc)
  rw [trimChars, List.append_assoc, trimStart_append hbefore]
  cases core with
  | nil =>
      have hempty : trimStart ([] ++ after) = [] := List.dropWhile_eq_nil_iff.mpr hafter
      rw [hempty]
      rfl
  | cons c core =>
      have hback : ∀ d ∈ (c :: core).reverse, isBlankChar d = false :=
        fun d hd => hcore d (List.mem_reverse.mp hd)
      rw [List.cons_append, trimStart_cons (hcore c List.mem_cons_self), ← List.cons_append,
        List.reverse_append, trimStart_append hreverse, trimStart_of_not_blank hback,
        List.reverse_reverse]

theorem trimChars_of_not_blank (h : ∀ c ∈ cs, isBlankChar c = false) : trimChars cs = cs :=
  trimChars_of_holds ⟨[], [], nofun, nofun, by simp⟩ h

end SearchQuery.Text
