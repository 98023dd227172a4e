import Mathlib.Data.EReal.Basic
import SearchQuery.Proofs.Numeral.Rounding

-- The comparison of floating-point numbers is the order of the numbers that they stand for, with
-- the infinities at its ends.

namespace SearchQuery.Numeral.Binary64

variable {x y : Binary64} {m : Nat} {k l : Int}

-- The absolute value that a magnitude stands for.
def absoluteOf (m : Nat) : ℚ :=
  if m < hiddenBit then m * 2 ^ (-1074 : Int)
  else (hiddenBit + m % hiddenBit : Nat) * 2 ^ ((m / hiddenBit : Nat) - 1075 : Int)

theorem absolute_eq (x : Binary64) : x.absolute = absoluteOf x.magnitude := by
  rw [absolute, significand, exponent, absoluteOf]
  split <;> rfl

theorem absoluteOf_zero : absoluteOf 0 = 0 := by
  rw [absoluteOf, if_pos (by decide), Nat.cast_zero, zero_mul]

theorem absoluteOf_add {q r : Nat} (hr : r < hiddenBit) :
    absoluteOf (q * hiddenBit + r) =
      if q = 0 then (r : ℚ) * 2 ^ (-1074 : Int)
      else (hiddenBit + r : Nat) * 2 ^ (q - 1075 : Int) := by
  rw [absoluteOf]
  by_cases hq : q = 0
  · subst hq
    rw [zero_mul, zero_add, if_pos hr, if_pos rfl]
  · have hle : hiddenBit ≤ q * hiddenBit := Nat.le_mul_of_pos_left _ (by omega)
    rw [if_neg hq, if_neg (by omega), mul_comm q, Nat.mul_add_mod, Nat.mod_eq_of_lt hr,
      Nat.mul_add_div (by decide), Nat.div_eq_of_lt hr, add_zero]

-- Neighbours are a power of two apart, also where the exponent changes between them.
theorem absoluteOf_succ (m : Nat) : ∃ e : Int, absoluteOf (m + 1) = absoluteOf m + 2 ^ e := by
  obtain ⟨q, r, hr, rfl⟩ : ∃ q r, r < hiddenBit ∧ q * hiddenBit + r = m :=
    ⟨m / hiddenBit, m % hiddenBit, Nat.mod_lt _ (by decide), Nat.div_add_mod' m hiddenBit⟩
  refine ⟨if q = 0 then -1074 else q - 1075, ?_⟩
  rw [absoluteOf_add hr]
  by_cases hcarry : r + 1 = hiddenBit
  · have hbits : (r + 1 : ℚ) = hiddenBit := by exact_mod_cast hcarry
    have hnext : q * hiddenBit + r + 1 = (q + 1) * hiddenBit + 0 := by
      rw [add_one_mul]
      omega
    rw [hnext, absoluteOf_add (by decide), if_neg (by omega)]
    by_cases hq : q = 0
    · have hexponent : ((q + 1 : Nat) - 1075 : Int) = -1074 := by omega
      rw [if_pos hq, if_pos hq, hexponent, Nat.add_zero, ← hbits, add_one_mul]
    · have hexponent : ((q + 1 : Nat) - 1075 : Int) = q - 1075 + 1 := by omega
      rw [if_neg hq, if_neg hq, hexponent, zpow_add_one₀ (by decide), Nat.add_zero, Nat.cast_add,
        ← hbits]
      ring
  · rw [add_assoc, absoluteOf_add (by omega), ← add_assoc]
    split
    · rw [Nat.cast_add_one, add_one_mul]
    · rw [Nat.cast_add_one, add_one_mul]

theorem strictMono_absoluteOf : StrictMono absoluteOf := by
  apply strictMono_nat_of_lt_succ
  intro m
  obtain ⟨e, he⟩ := absoluteOf_succ m
  rw [he]
  exact lt_add_of_pos_right _ (by positivity)

-- The number that a key stands for.
def numberOf (k : Int) : ℚ :=
  if k < 0 then -absoluteOf k.natAbs else absoluteOf k.natAbs

theorem numberOf_lt (hkl : k < l) : numberOf k < numberOf l := by
  rw [numberOf, numberOf]
  by_cases hl : l < 0
  · rw [if_pos (by omega), if_pos hl]
    exact neg_lt_neg (strictMono_absoluteOf (by omega))
  rw [if_neg hl]
  by_cases hk : k < 0
  · have hpos : 0 < absoluteOf k.natAbs := by
      rw [← absoluteOf_zero]
      exact strictMono_absoluteOf (by omega)
    have hnonneg : 0 ≤ absoluteOf l.natAbs := by
      rw [← absoluteOf_zero]
      exact strictMono_absoluteOf.monotone (Nat.zero_le _)
    rw [if_pos hk]
    exact (neg_neg_of_pos hpos).trans_le hnonneg
  · rw [if_neg hk]
    exact strictMono_absoluteOf (by omega)

-- The number that a float stands for, infinite where it is not finite.
noncomputable def toEReal (x : Binary64) : EReal :=
  if x.isFinite then ((if x.isNegative then -x.absolute else x.absolute : ℚ) : ℝ)
  else if x.isNegative then ⊥
  else ⊤

-- The same number from the key.
noncomputable def extended (k : Int) : EReal :=
  if k.natAbs < infiniteMagnitude then (numberOf k : ℝ)
  else if k < 0 then ⊥
  else ⊤

theorem toEReal_eq (x : Binary64) : x.toEReal = extended x.orderKey := by
  rw [toEReal, extended, orderKey, numberOf, absolute_eq, isFinite]
  cases x.isNegative with
  | false =>
      have hkey : ¬ (x.magnitude : Int) < 0 := by omega
      simp only [Bool.false_eq_true, if_false, hkey, Int.natAbs_natCast, decide_eq_true_eq]
  | true =>
      simp only [if_true, Int.natAbs_neg, Int.natAbs_natCast, decide_eq_true_eq]
      by_cases hzero : x.magnitude = 0
      · have hfin : 0 < infiniteMagnitude := by decide
        simp [hzero, absoluteOf_zero, hfin]
      · have hkey : -(x.magnitude : Int) < 0 := by omega
        simp only [if_pos hkey]

theorem extended_lt (hk : k.natAbs ≤ infiniteMagnitude) (hl : l.natAbs ≤ infiniteMagnitude)
    (hkl : k < l) : extended k < extended l := by
  rw [extended, extended]
  by_cases hkfin : k.natAbs < infiniteMagnitude
  · rw [if_pos hkfin]
    by_cases hlfin : l.natAbs < infiniteMagnitude
    · rw [if_pos hlfin, EReal.coe_lt_coe_iff]
      exact_mod_cast numberOf_lt hkl
    · rw [if_neg hlfin, if_neg (by omega)]
      exact EReal.coe_lt_top _
  · rw [if_neg hkfin, if_pos (by omega)]
    by_cases hlfin : l.natAbs < infiniteMagnitude
    · rw [if_pos hlfin]
      exact EReal.bot_lt_coe _
    · rw [if_neg hlfin, if_neg (by omega)]
      exact bot_lt_top

theorem natAbs_orderKey (x : Binary64) : x.orderKey.natAbs = x.magnitude := by
  rw [orderKey]
  split <;> omega

theorem compare_eq_cmp (hx : x.isNaN = false) (hy : y.isNaN = false) :
    x.compare y = cmp x.toEReal y.toEReal := by
  have hkeys : x.compare y = Ord.compare x.orderKey y.orderKey := by
    rw [compare, hx, hy]
    rfl
  have hrange {z : Binary64} (hz : z.isNaN = false) : z.orderKey.natAbs ≤ infiniteMagnitude := by
    rwa [isNaN, decide_eq_false_iff_not, not_lt, ← natAbs_orderKey] at hz
  have hmono : StrictMonoOn extended {k | k.natAbs ≤ infiniteMagnitude} :=
    fun k hk l hl hkl => extended_lt hk hl hkl
  rw [hkeys, toEReal_eq, toEReal_eq, ← cmp_eq_compare, hmono.cmp_map_eq (hrange hx) (hrange hy)]

end SearchQuery.Numeral.Binary64
