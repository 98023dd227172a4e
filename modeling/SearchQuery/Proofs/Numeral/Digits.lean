import Mathlib.Algebra.Group.Nat.Defs
import SearchQuery.Numeral.Integer

-- The digits of a number in base ten, with zeros before them or not, and the number that they
-- write.

namespace SearchQuery.Numeral

variable {width n : Nat} {c : Char} {cs : List Char}

-- The digits of a number, with any number of zeros before them.
def WritesDigits (cs : List Char) (n : Nat) : Prop :=
  ∃ zeros, cs = List.replicate zeros '0' ++ digits n

theorem writesDigits_digits (n : Nat) : WritesDigits (digits n) n :=
  ⟨0, rfl⟩

theorem writesDigits_padded (width n : Nat) : WritesDigits (padded width n) n :=
  ⟨width - (digits n).length, rfl⟩

theorem ofDigits_eq_ofDigitChars (ds : List Char) : ofDigits ds = Nat.ofDigitChars 10 ds 0 :=
  rfl

theorem ofDigits_digits (n : Nat) : ofDigits (digits n) = n := by
  rw [ofDigits_eq_ofDigitChars]
  exact Nat.ofDigitChars_toDigits (by decide) (by decide)

theorem isDigit_of_mem_digits (h : c ∈ digits n) : c.isDigit = true :=
  Nat.isDigit_of_mem_toDigits (by decide) (by decide) h

-- Zeros in front do not count.
theorem ofDigits_replicate_append (k : Nat) (ds : List Char) :
    ofDigits (List.replicate k '0' ++ ds) = ofDigits ds := by
  induction k with
  | zero => rfl
  | succ k ih =>
      rw [List.replicate_succ, List.cons_append, ← ih]
      rfl

theorem ofDigits_of_writesDigits (h : WritesDigits cs n) : ofDigits cs = n := by
  obtain ⟨zeros, rfl⟩ := h
  rw [ofDigits_replicate_append, ofDigits_digits]

theorem ofDigits_padded (width n : Nat) : ofDigits (padded width n) = n :=
  ofDigits_of_writesDigits (writesDigits_padded width n)

theorem isDigit_of_writesDigits (h : WritesDigits cs n) (hc : c ∈ cs) : c.isDigit = true := by
  obtain ⟨zeros, rfl⟩ := h
  rcases List.mem_append.mp hc with hc | hc
  · rw [List.eq_of_mem_replicate hc]
    rfl
  · exact isDigit_of_mem_digits hc

theorem isDigit_of_mem_padded (h : c ∈ padded width n) : c.isDigit = true :=
  isDigit_of_writesDigits (writesDigits_padded width n) h

theorem length_padded (hwidth : 0 < width) (h : n < 10 ^ width) : (padded width n).length = width := by
  have hlen : (digits n).length ≤ width := (Nat.length_toDigits_le_iff (by decide) hwidth).mpr h
  rw [padded, List.length_append, List.length_replicate]
  omega

theorem ne_nil_of_writesDigits (h : WritesDigits cs n) : cs ≠ [] := by
  obtain ⟨zeros, rfl⟩ := h
  exact List.append_ne_nil_of_right_ne_nil _ Nat.toDigits_ne_nil

theorem padded_ne_nil (width n : Nat) : padded width n ≠ [] :=
  ne_nil_of_writesDigits (writesDigits_padded width n)

theorem eq_minus_or_isDigit_of_mem_integerText {n : Int} (h : c ∈ integerText n) :
    c = '-' ∨ c.isDigit = true := by
  rw [integerText] at h
  split at h
  · rcases List.mem_cons.mp h with rfl | h
    · exact .inl rfl
    · exact .inr (isDigit_of_mem_digits h)
  · exact .inr (isDigit_of_mem_digits h)

theorem toList_toString (n : Int) : (toString n).toList = integerText n := by
  cases n with
  | ofNat m => exact String.toList_ofList
  | negSucc m =>
      have happend : (toString (Int.negSucc m)).toList = '-' :: (Nat.repr (m + 1)).toList :=
        String.toList_append
      rw [happend, Nat.repr, String.toList_ofList, integerText, if_pos (Int.negSucc_lt_zero m)]
      rfl

end SearchQuery.Numeral
