/-! Unsigned words of 32 bits whose arithmetic stops at the ends of their range. -/

namespace MusicMacro.Word

/-- The word nearest to an integer: what lies outside the words goes to the nearer end. -/
def nearest (n : Int) : UInt32 := UInt32.ofNat (min n.toNat 4294967295)

/-- The sum, or the greatest word if the sum is above it. -/
def add (m n : UInt32) : UInt32 := UInt32.ofNat (min (m.toNat + n.toNat) 4294967295)

/-- The product, or the greatest word if the product is above it. -/
def mul (m n : UInt32) : UInt32 := UInt32.ofNat (min (m.toNat * n.toNat) 4294967295)

theorem toNat_nearest (n : Int) : (nearest n).toNat = min n.toNat 4294967295 :=
  UInt32.toNat_ofNat_of_lt' (Nat.lt_of_le_of_lt (Nat.min_le_right ..) (by decide))

theorem toNat_add (m n : UInt32) : (add m n).toNat = min (m.toNat + n.toNat) 4294967295 :=
  UInt32.toNat_ofNat_of_lt' (Nat.lt_of_le_of_lt (Nat.min_le_right ..) (by decide))

theorem toNat_mul (m n : UInt32) : (mul m n).toNat = min (m.toNat * n.toNat) 4294967295 :=
  UInt32.toNat_ofNat_of_lt' (Nat.lt_of_le_of_lt (Nat.min_le_right ..) (by decide))

end MusicMacro.Word
