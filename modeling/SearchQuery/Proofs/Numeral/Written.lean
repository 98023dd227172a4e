import Mathlib.Algebra.Group.Int.Defs
import Mathlib.Data.List.Induction
import SearchQuery.Proofs.Numeral.Digits
import SearchQuery.Proofs.Text.Trim

-- The texts that write an integer: a sign that may be left out, and digits. They are the texts
-- that are read as this integer.

namespace SearchQuery.Numeral

open SearchQuery.Text

variable {cs : List Char} {c : Char} {n bits : Nat} {z : Int}

inductive WritesNatural : List Char → Nat → Prop
  | bare {cs : List Char} {n : Nat} (h : WritesDigits cs n) : WritesNatural cs n
  | plus {cs : List Char} {n : Nat} (h : WritesDigits cs n) : WritesNatural ('+' :: cs) n

inductive WritesInteger : List Char → Int → Prop
  | natural {cs : List Char} {n : Nat} (h : WritesNatural cs n) : WritesInteger cs n
  | minus {cs : List Char} {n : Nat} (h : WritesDigits cs n) : WritesInteger ('-' :: cs) (-n)

-- A number of a word of some bits is written in full; no part of it is cut off.
def WritesUnsigned (bits : Nat) (cs : List Char) (n : Nat) : Prop :=
  WritesNatural cs n ∧ n < 2 ^ bits

def WritesSigned (bits : Nat) (cs : List Char) (z : Int) : Prop :=
  WritesInteger cs z ∧ -2 ^ (bits - 1) ≤ z ∧ z < 2 ^ (bits - 1)

section Digits

theorem digitChar_digitValue (h : c.isDigit = true) :
    digitValue c < 10 ∧ Nat.digitChar (digitValue c) = c := by
  obtain ⟨hlow, hhigh⟩ := Char.isDigit_iff_toNat.mp h
  have hzero : '0'.toNat = 48 := rfl
  have hnine : '9'.toNat = 57 := rfl
  have hlt : digitValue c < 10 := by
    rw [digitValue]
    omega
  refine ⟨hlt, Char.toNat_inj.mp ?_⟩
  rw [Nat.toNat_digitChar_of_lt_ten hlt, digitValue]
  omega

theorem ofDigits_concat (cs : List Char) (c : Char) :
    ofDigits (cs ++ [c]) = 10 * ofDigits cs + digitValue c := by
  simp only [ofDigits, List.foldl_append, List.foldl_cons, List.foldl_nil]

-- The last digit is taken off. The digits before it write a number of their own, and where this is
-- zero they count as zeros before the last digit.
theorem writesDigits_ofDigits (hne : cs ≠ []) (h : ∀ c ∈ cs, c.isDigit = true) :
    WritesDigits cs (ofDigits cs) := by
  induction cs using List.reverseRecOn with
  | nil => exact absurd rfl hne
  | append_singleton cs c ih =>
      rw [List.forall_mem_append, List.forall_mem_singleton] at h
      obtain ⟨hlt, hchar⟩ := digitChar_digitValue h.2
      have hlast : digits (digitValue c) = [c] := by
        rw [digits, Nat.toDigits_of_lt_base hlt, hchar]
      rw [ofDigits_concat]
      by_cases hcs : cs = []
      · subst hcs
        rw [ofDigits, List.foldl_nil, Nat.mul_zero, Nat.zero_add]
        exact ⟨0, hlast.symm⟩
      · obtain ⟨zeros, heq⟩ := ih hcs h.1
        by_cases hpos : 0 < ofDigits cs
        · refine ⟨zeros, ?_⟩
          have happend := Nat.toDigits_append_toDigits (by decide : 1 < 10) hpos hlt
          rw [digits, ← happend, ← digits, ← digits, hlast, ← List.append_assoc, ← heq]
        · have hzero : ofDigits cs = 0 := Nat.eq_zero_of_not_pos hpos
          refine ⟨zeros + 1, ?_⟩
          rw [hzero] at heq ⊢
          rw [Nat.mul_zero, Nat.zero_add, hlast, List.replicate_succ']
          exact congrArg (· ++ [c]) heq

theorem readDigits_eq_some_iff : readDigits cs = some n ↔ WritesDigits cs n := by
  constructor
  · intro h
    simp only [readDigits, Option.ite_none_right_eq_some, Bool.and_eq_true, Bool.not_eq_true',
      List.isEmpty_eq_false_iff, List.all_eq_true, Option.some.injEq] at h
    obtain ⟨⟨hne, hdigits⟩, rfl⟩ := h
    exact writesDigits_ofDigits hne hdigits
  · intro h
    have hne : cs.isEmpty = false := List.isEmpty_eq_false_iff.mpr (ne_nil_of_writesDigits h)
    have hall : cs.all Char.isDigit = true :=
      List.all_eq_true.mpr fun _ hc => isDigit_of_writesDigits h hc
    rw [readDigits, hne, hall, ofDigits_of_writesDigits h]
    rfl

-- What begins with a character that is no digit writes no digits.
theorem not_writesDigits_cons (hc : c.isDigit = false) : ¬WritesDigits (c :: cs) n := by
  intro h
  have hdigit := isDigit_of_writesDigits h List.mem_cons_self
  rw [hc] at hdigit
  cases hdigit

end Digits

section Signs

theorem readNatural_eq_some_iff : readNatural cs = some n ↔ WritesNatural cs n := by
  constructor
  · intro h
    simp only [readNatural] at h
    split at h
    · exact .plus (readDigits_eq_some_iff.mp h)
    · exact .bare (readDigits_eq_some_iff.mp h)
  · intro h
    cases h with
    | bare h =>
        rw [readNatural]
        · exact readDigits_eq_some_iff.mpr h
        · rintro rest rfl
          exact not_writesDigits_cons rfl h
    | plus h => exact readDigits_eq_some_iff.mpr h

theorem not_writesNatural_minus : ¬WritesNatural ('-' :: cs) n := by
  intro h
  cases h with
  | bare h => exact not_writesDigits_cons rfl h

theorem readInteger_minus (cs : List Char) :
    readInteger ('-' :: cs) = (readDigits cs).map fun n : Nat => -(n : Int) := by
  rw [readInteger]
  cases readDigits cs <;> rfl

theorem readInteger_eq_some_iff : readInteger cs = some z ↔ WritesInteger cs z := by
  constructor
  · intro h
    unfold readInteger at h
    split at h
    · rw [← readInteger, readInteger_minus] at h
      obtain ⟨n, hn, rfl⟩ := Option.map_eq_some_iff.mp h
      exact .minus (readDigits_eq_some_iff.mp hn)
    · obtain ⟨n, hn, rfl⟩ := Option.map_eq_some_iff.mp h
      exact .natural (readNatural_eq_some_iff.mp hn)
  · intro h
    cases h with
    | natural h =>
        rw [readInteger, readNatural_eq_some_iff.mpr h]
        · rfl
        · rintro rest rfl
          exact not_writesNatural_minus h
    | minus h =>
        rw [readInteger_minus, readDigits_eq_some_iff.mpr h]
        rfl

end Signs

section Words

theorem readUnsigned_eq_some_iff : readUnsigned bits cs = some n ↔ WritesUnsigned bits cs n := by
  simp only [readUnsigned, WritesUnsigned, Option.filter_eq_some_iff, readNatural_eq_some_iff,
    decide_eq_true_eq, Nat.pow_eq]

theorem readSigned_eq_some_iff : readSigned bits cs = some z ↔ WritesSigned bits cs z := by
  simp only [readSigned, WritesSigned, Option.filter_eq_some_iff, readInteger_eq_some_iff,
    Bool.and_eq_true, decide_eq_true_eq, Nat.pow_eq, Int.natCast_pow, Int.cast_ofNat_Int]

end Words

section Text

-- What an integer is written as is read as this integer.
theorem writesInteger_integerText (z : Int) : WritesInteger (integerText z) z := by
  rw [integerText]
  split
  · next hneg =>
    have hminus : -(z.natAbs : Int) = z := by omega
    have hwrites := WritesInteger.minus (writesDigits_digits z.natAbs)
    rwa [hminus] at hwrites
  · next hnonneg =>
    have hwrites := WritesInteger.natural (.bare (writesDigits_digits z.natAbs))
    rwa [Int.natAbs_of_nonneg (Int.not_lt.mp hnonneg)] at hwrites

theorem readInt64_integerText (n : Int64) : readInt64 (integerText n.toInt) = some n := by
  have hsigned : readSigned 64 (integerText n.toInt) = some n.toInt :=
    readSigned_eq_some_iff.mpr ⟨writesInteger_integerText n.toInt, n.le_toInt, n.toInt_lt⟩
  rw [readInt64, hsigned, Option.map_some, Int64.ofInt_toInt]

end Text

section Blanks

theorem not_blank_of_writesDigits (h : WritesDigits cs n) : ∀ c ∈ cs, isBlankChar c = false :=
  fun _ hc => not_blank_of_isDigit (isDigit_of_writesDigits h hc)

theorem not_blank_of_writesNatural (h : WritesNatural cs n) : ∀ c ∈ cs, isBlankChar c = false := by
  cases h with
  | bare h => exact not_blank_of_writesDigits h
  | plus h => exact List.forall_mem_cons.mpr ⟨rfl, not_blank_of_writesDigits h⟩

theorem not_blank_of_writesInteger (h : WritesInteger cs z) : ∀ c ∈ cs, isBlankChar c = false := by
  cases h with
  | natural h => exact not_blank_of_writesNatural h
  | minus h => exact List.forall_mem_cons.mpr ⟨rfl, not_blank_of_writesDigits h⟩

end Blanks

end SearchQuery.Numeral
