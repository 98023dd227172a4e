-- Scores estimate how much work a condition is. They count up to the greatest word of
-- 32 bits and stay there.

namespace SearchQuery

abbrev Score := UInt32

namespace Score

def greatest : Nat :=
  0xFFFFFFFF

-- A count, or the greatest score if the count is greater.
def ofCount (n : Nat) : Score :=
  UInt32.ofNat (min n greatest)

def add (a b : Score) : Score :=
  ofCount (a.toNat + b.toNat)

theorem toNat_le (a : Score) : UInt32.toNat a ≤ greatest :=
  Nat.le_sub_one_of_lt (UInt32.toNat_lt a)

theorem toNat_ofCount (n : Nat) : UInt32.toNat (ofCount n) = min n greatest := by
  simp only [ofCount, greatest, UInt32.toNat_ofNat']
  omega

theorem toNat_add (a b : Score) :
    UInt32.toNat (add a b) = min (UInt32.toNat a + UInt32.toNat b) greatest :=
  toNat_ofCount _

end Score

end SearchQuery
