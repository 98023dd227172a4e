import Mathlib.Data.Rat.Floor
import Mathlib.Algebra.Order.Field.Power
import Mathlib.Tactic.Positivity
import Mathlib.Tactic.FieldSimp
import Mathlib.Tactic.Ring
import SearchQuery.Numeral.Binary64

-- Rounding stays within the range: a quotient up to the greatest finite number is rounded to a
-- finite number.

namespace SearchQuery.Numeral.Binary64

variable {n d m : Nat} {e : Int}

theorem scaled_snd_pos (hd : 0 < d) : 0 < (scaled n d e).2 := by
  simp only [scaled]
  split
  · exact Nat.mul_pos hd (Nat.pow_pos (by decide))
  · exact hd

theorem scaled_div (hd : 0 < d) :
    ((scaled n d e).1 / (scaled n d e).2 : ℚ) = n / d * 2 ^ e := by
  have hd' : (d : ℚ) ≠ 0 := by positivity
  simp only [scaled]
  split
  · next hneg =>
    have habs : e = -(e.natAbs : Int) := by omega
    generalize e.natAbs = k at habs ⊢
    subst habs
    simp only [Nat.pow_eq, Nat.cast_mul, Nat.cast_pow, Nat.cast_ofNat, zpow_neg, zpow_natCast]
    field_simp
  · next hpos =>
    have habs : e = (e.natAbs : Int) := by omega
    generalize e.natAbs = k at habs ⊢
    subst habs
    simp only [Nat.pow_eq, Nat.cast_mul, Nat.cast_pow, Nat.cast_ofNat, zpow_natCast]
    field_simp

theorem log2_bounds (hn : 0 < n) : (2 : ℚ) ^ (n.log2 : Int) ≤ n ∧ n < (2 : ℚ) ^ (n.log2 + 1 : Int) := by
  have hlow : 2 ^ n.log2 ≤ n := Nat.log2_self_le (by omega)
  have hhigh : n < 2 ^ (n.log2 + 1) := Nat.lt_log2_self
  constructor
  · rw [zpow_natCast]
    exact_mod_cast hlow
  · have hcast : (n.log2 + 1 : Int) = ((n.log2 + 1 : Nat) : Int) := by omega
    rw [hcast, zpow_natCast]
    exact_mod_cast hhigh

-- The guess from the numbers of digits is right or one too great.
theorem floorLog2_bounds (hn : 0 < n) (hd : 0 < d) :
    (2 : ℚ) ^ floorLog2 n d ≤ n / d ∧ n / d < (2 : ℚ) ^ (floorLog2 n d + 1) := by
  obtain ⟨hnlow, hnhigh⟩ := log2_bounds hn
  obtain ⟨hdlow, hdhigh⟩ := log2_bounds hd
  have hd' : (0 : ℚ) < d := by positivity
  have htwo : (2 : ℚ) ≠ 0 := by decide
  have hbelow : (2 : ℚ) ^ ((n.log2 : Int) - d.log2 - 1) ≤ n / d := by
    rw [le_div_iff₀ hd']
    calc (2 : ℚ) ^ ((n.log2 : Int) - d.log2 - 1) * d
        ≤ 2 ^ ((n.log2 : Int) - d.log2 - 1) * 2 ^ (d.log2 + 1 : Int) := by gcongr
      _ = 2 ^ (n.log2 : Int) := by rw [← zpow_add₀ htwo]; congr 1; omega
      _ ≤ n := hnlow
  have habove : (n / d : ℚ) < 2 ^ ((n.log2 : Int) - d.log2 + 1) := by
    rw [div_lt_iff₀ hd']
    calc (n : ℚ) < 2 ^ (n.log2 + 1 : Int) := hnhigh
      _ = 2 ^ ((n.log2 : Int) - d.log2 + 1) * 2 ^ (d.log2 : Int) := by
        rw [← zpow_add₀ htwo]; congr 1; omega
      _ ≤ 2 ^ ((n.log2 : Int) - d.log2 + 1) * d := by gcongr
  simp only [floorLog2]
  generalize (n.log2 : Int) - d.log2 = g at hbelow habove ⊢
  have hpos : (0 : ℚ) < (scaled n d (-g)).2 := by exact_mod_cast scaled_snd_pos hd
  have hscaled : (scaled n d (-g)).1 < (scaled n d (-g)).2 ↔ (n / d : ℚ) < 2 ^ g := by
    rw [← Nat.cast_lt (α := ℚ), ← div_lt_one hpos, scaled_div hd, zpow_neg, ← div_eq_mul_inv,
      div_lt_one (by positivity)]
  split
  · next hless =>
    rw [hscaled] at hless
    exact ⟨hbelow, by rwa [Int.sub_add_cancel]⟩
  · next hless =>
    rw [hscaled, not_lt] at hless
    exact ⟨hless, habove⟩

theorem divNearest_le (hd : 0 < d) (h : n ≤ m * d) : divNearest n d ≤ m := by
  have hdiv := Nat.div_add_mod n d
  have hmod := Nat.mod_lt n hd
  have hle : n / d ≤ m := Nat.div_le_of_le_mul (by rwa [Nat.mul_comm])
  simp only [divNearest]
  by_cases heq : n / d = m
  · have hexact : n % d = 0 := by
      rw [heq, Nat.mul_comm] at hdiv
      omega
    rw [hexact, if_pos (by omega)]
    exact hle
  · split
    · exact hle
    · split
      · omega
      · omega

theorem le_divNearest (hd : 0 < d) (h : m * d ≤ n) : m ≤ divNearest n d := by
  have hle : m ≤ n / d := (Nat.le_div_iff_mul_le hd).mpr h
  simp only [divNearest]
  split
  · exact hle
  · split
    · omega
    · omega

-- The greatest finite number: 53 bits set, at the greatest exponent.
def greatest : ℚ :=
  (2 ^ 53 - 1) * 2 ^ (971 : Int)

theorem greatest_lt : greatest < 2 ^ (1024 : Int) := by
  calc greatest < 2 ^ (53 : Int) * 2 ^ (971 : Int) := by
        rw [greatest]
        gcongr
        norm_num
    _ = 2 ^ (1024 : Int) := by rw [← zpow_add₀ (by decide)]; rfl

-- The exponent that rounding chooses, and the bits of the significand before it is rounded.
theorem nearestMagnitude_of_pos (hn : 0 < n) (hd : 0 < d) :
    ∃ e : Int, ∃ a b : Nat, 0 < b ∧ (a / b : ℚ) = n / d * 2 ^ (-e) ∧
      e = max (floorLog2 n d - 52) (-1074) ∧
      nearestMagnitude n d =
        min ((e + 1074).toNat * hiddenBit + divNearest a b) infiniteMagnitude := by
  refine ⟨max (floorLog2 n d - 52) (-1074), _, _, scaled_snd_pos hd, scaled_div hd, rfl, ?_⟩
  rw [nearestMagnitude, if_neg (by omega)]

theorem le_mul_of_div_le {a b m : Nat} (hb : 0 < b) (h : (a / b : ℚ) ≤ m) : a ≤ m * b := by
  have hb' : (0 : ℚ) < b := by exact_mod_cast hb
  rw [div_le_iff₀ hb'] at h
  exact_mod_cast h

theorem mul_le_of_le_div {a b m : Nat} (hb : 0 < b) (h : (m : ℚ) ≤ a / b) : m * b ≤ a := by
  have hb' : (0 : ℚ) < b := by exact_mod_cast hb
  rw [le_div_iff₀ hb'] at h
  exact_mod_cast h

theorem nearestMagnitude_lt (hd : 0 < d) (h : (n / d : ℚ) ≤ greatest) :
    nearestMagnitude n d < infiniteMagnitude := by
  by_cases hzero : n = 0
  · rw [nearestMagnitude, if_pos hzero]
    decide
  have hn : 0 < n := by omega
  obtain ⟨e, a, b, hb, hquotient, he, heq⟩ := nearestMagnitude_of_pos hn hd
  obtain ⟨hlow, hhigh⟩ := floorLog2_bounds hn hd
  have hfloor : floorLog2 n d < 1024 := by
    have hlt : (2 : ℚ) ^ floorLog2 n d < 2 ^ (1024 : Int) := by
      calc (2 : ℚ) ^ floorLog2 n d ≤ n / d := hlow
        _ ≤ greatest := h
        _ < 2 ^ (1024 : Int) := greatest_lt
    exact (zpow_lt_zpow_iff_right₀ (by norm_num)).mp hlt
  have hbits : divNearest a b ≤ 2 ^ 53 := by
    refine divNearest_le hb (le_mul_of_div_le hb ?_)
    calc (a / b : ℚ) = n / d * 2 ^ (-e) := hquotient
      _ ≤ 2 ^ (floorLog2 n d + 1) * 2 ^ (-e) := by gcongr
      _ = 2 ^ (floorLog2 n d + 1 - e) := by rw [← zpow_add₀ (by decide)]; rfl
      _ ≤ 2 ^ (53 : Int) := by
        gcongr
        · norm_num
        · omega
      _ = ((2 ^ 53 : Nat) : ℚ) := by norm_num
  have htop : e = 971 → divNearest a b ≤ 2 ^ 53 - 1 := by
    intro htop
    refine divNearest_le hb (le_mul_of_div_le hb ?_)
    calc (a / b : ℚ) = n / d * 2 ^ (-e) := hquotient
      _ ≤ greatest * 2 ^ (-e) := by gcongr
      _ = ((2 ^ 53 - 1 : Nat) : ℚ) := by rw [htop, greatest]; norm_num
  rw [heq, infiniteMagnitude, hiddenBit]
  omega

theorem le_nearestMagnitude (hd : 0 < d) (h : d ≤ n) :
    1023 * hiddenBit ≤ nearestMagnitude n d := by
  have hn : 0 < n := by omega
  obtain ⟨e, a, b, hb, hquotient, he, heq⟩ := nearestMagnitude_of_pos hn hd
  obtain ⟨hlow, hhigh⟩ := floorLog2_bounds hn hd
  have hd' : (0 : ℚ) < d := by exact_mod_cast hd
  have hfloor : 0 < floorLog2 n d + 1 := by
    have hlt : (2 : ℚ) ^ (0 : Int) < 2 ^ (floorLog2 n d + 1) := by
      calc (2 : ℚ) ^ (0 : Int) = 1 := zpow_zero 2
        _ ≤ n / d := by
          rw [le_div_iff₀ hd', one_mul]
          exact_mod_cast h
        _ < 2 ^ (floorLog2 n d + 1) := hhigh
    exact (zpow_lt_zpow_iff_right₀ (by norm_num)).mp hlt
  have hbits : 2 ^ 52 ≤ divNearest a b := by
    refine le_divNearest hb (mul_le_of_le_div hb ?_)
    calc ((2 ^ 52 : Nat) : ℚ) = 2 ^ (52 : Int) := by norm_num
      _ = 2 ^ (floorLog2 n d + -e) := by congr 1; omega
      _ = 2 ^ floorLog2 n d * 2 ^ (-e) := zpow_add₀ (by decide) _ _
      _ ≤ n / d * 2 ^ (-e) := by gcongr
      _ = a / b := hquotient.symm
  rw [heq, infiniteMagnitude, hiddenBit]
  omega

section Numbers

variable {x y : Binary64} {negative : Bool}

theorem magnitude_ofMagnitude (h : m < signBit) : (ofMagnitude negative m).magnitude = m := by
  simp only [signBit] at h
  cases negative with
  | false =>
    simp only [magnitude, ofMagnitude, signBit, UInt64.toNat_ofNat', Bool.false_eq_true, if_false]
    omega
  | true =>
    simp only [magnitude, ofMagnitude, signBit, UInt64.toNat_ofNat', if_true]
    omega

theorem isFinite_ofMagnitude (h : m < infiniteMagnitude) : (ofMagnitude negative m).isFinite := by
  have hsign : infiniteMagnitude < signBit := by decide
  rw [isFinite, magnitude_ofMagnitude (by omega), decide_eq_true_eq]
  exact h

theorem magnitude_ofRatio (negative : Bool) (n d : Nat) :
    (ofRatio negative n d).magnitude = nearestMagnitude n d := by
  have hsign : infiniteMagnitude < signBit := by decide
  refine magnitude_ofMagnitude (Nat.lt_of_le_of_lt ?_ hsign)
  rw [nearestMagnitude]
  split
  · exact Nat.zero_le _
  · exact Nat.min_le_right _ _

theorem isFinite_ofRatio (hd : 0 < d) (h : (n / d : ℚ) ≤ greatest) :
    (ofRatio negative n d).isFinite :=
  isFinite_ofMagnitude (nearestMagnitude_lt hd h)

theorem isFinite_neg (h : x.isFinite) : x.neg.isFinite := by
  rw [isFinite, decide_eq_true_eq] at h
  exact isFinite_ofMagnitude h

-- A word holds no number that is out of range.
theorem div_one_le_greatest (h : n ≤ 2 ^ 64) : (n / (1 : Nat) : ℚ) ≤ greatest := by
  calc (n / (1 : Nat) : ℚ) ≤ 2 ^ 64 := by
        rw [Nat.cast_one, div_one]
        exact_mod_cast h
    _ = 1 * 2 ^ (64 : Int) := by norm_num
    _ ≤ greatest := by
      rw [greatest]
      gcongr
      · norm_num
      · norm_num
      · decide

theorem isFinite_ofInt {z : Int} (h : z.natAbs ≤ 2 ^ 64) : (ofInt z).isFinite :=
  isFinite_ofRatio (by decide) (div_one_le_greatest h)

theorem isFinite_ofNat (h : n ≤ 2 ^ 64) : (ofNat n).isFinite :=
  isFinite_ofRatio (by decide) (div_one_le_greatest h)

-- The absolute value that a finite number stands for.
def absolute (x : Binary64) : ℚ :=
  x.significand * 2 ^ x.exponent

theorem absolute_le_greatest (h : x.isFinite) : x.absolute ≤ greatest := by
  have hhidden : hiddenBit = 2 ^ 52 := by decide
  rw [isFinite, decide_eq_true_eq, infiniteMagnitude] at h
  have hmod : x.magnitude % hiddenBit < hiddenBit := Nat.mod_lt _ (by decide)
  have hbits : x.significand ≤ 2 ^ 53 - 1 := by
    rw [significand]
    split
    · omega
    · omega
  have hexponent : x.exponent ≤ 971 := by
    rw [exponent]
    split
    · omega
    · rw [hhidden] at h ⊢
      omega
  calc x.absolute ≤ ((2 ^ 53 - 1 : Nat) : ℚ) * 2 ^ (971 : Int) := by
        rw [absolute]
        gcongr
        norm_num
    _ = greatest := by rw [greatest]; norm_num

theorem one_le_absolute (h : 1023 * hiddenBit ≤ x.magnitude) : 1 ≤ x.absolute := by
  have hhidden : hiddenBit = 2 ^ 52 := by decide
  have hbits : 2 ^ 52 ≤ x.significand := by
    rw [significand]
    split
    · omega
    · omega
  have hexponent : -52 ≤ x.exponent := by
    rw [exponent]
    split
    · omega
    · rw [hhidden] at h ⊢
      omega
  calc (1 : ℚ) = ((2 ^ 52 : Nat) : ℚ) * 2 ^ (-52 : Int) := by norm_num
    _ ≤ x.absolute := by
      rw [absolute]
      gcongr
      norm_num

-- A quotient by a number that is not below one stays within the range.
theorem isFinite_div (hx : x.isFinite) (hy : 1023 * hiddenBit ≤ y.magnitude) :
    (x.div y).isFinite := by
  have hone := one_le_absolute hy
  have hpos : 0 < y.significand := by
    by_contra hzero
    have hzero : y.significand = 0 := by omega
    simp only [absolute, hzero, Nat.cast_zero, zero_mul] at hone
    norm_num at hone
  refine isFinite_ofRatio (scaled_snd_pos hpos) ?_
  calc _ = (x.significand / y.significand : ℚ) * 2 ^ (x.exponent - y.exponent) := scaled_div hpos
    _ = x.absolute / y.absolute := by
      rw [absolute, absolute, zpow_sub₀ (by decide), mul_div_mul_comm]
    _ ≤ x.absolute := div_le_self (by rw [absolute]; positivity) hone
    _ ≤ greatest := absolute_le_greatest hx

end Numbers

end SearchQuery.Numeral.Binary64
