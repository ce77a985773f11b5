import Mathlib.Algebra.Ring.Parity
import MusicMacro.Proofs.Pace.Bounds

/-!
Dotted durations. Dots lengthen a duration by its half, rounded once, as often as there are dots,
and only the whole sum is cut off at the greatest word.
-/

namespace MusicMacro

/-- Half of a number, of two nearest integers the even one. -/
def evenHalf (n : ℕ) : ℕ := n / 2 + n / 2 % 2 * (n % 2)

theorem evenHalf_of_even {n : ℕ} (h : Even n) : 2 * evenHalf n = n := by
  rw [evenHalf, Nat.even_iff.1 h, mul_zero, add_zero]
  exact Nat.two_mul_div_two_of_even h

theorem evenHalf_of_odd {n : ℕ} (h : Odd n) :
    Even (evenHalf n) ∧ (2 * evenHalf n + 1 = n ∨ 2 * evenHalf n = n + 1) := by
  have hn := Nat.odd_iff.1 h
  rw [evenHalf, hn, mul_one, Nat.even_iff]
  omega

theorem evenHalf_le (n : ℕ) : evenHalf n ≤ n := by
  rcases Nat.even_or_odd n with h | h
  · have := evenHalf_of_even h
    omega
  · have := (evenHalf_of_odd h).2
    omega

theorem evenHalf_isNearestEven (n : ℕ) : IsNearestEven (n / 2) (evenHalf n) := by
  rcases Nat.even_or_odd n with h | h
  · have hhalf : (2 * evenHalf n : ℚ) = n := by exact_mod_cast evenHalf_of_even h
    apply IsNearestEven.of_lt
    rw [Int.cast_natCast, ← hhalf, mul_div_cancel_left₀ _ two_ne_zero, sub_self, abs_zero]
    exact one_half_pos
  · obtain ⟨heven, hsides⟩ := evenHalf_of_odd h
    refine ⟨?_, fun _ => (Int.even_coe_nat _).2 heven⟩
    rw [Int.cast_natCast]
    rcases hsides with hside | hside
    · have hhalf : (2 * evenHalf n + 1 : ℚ) = n := by exact_mod_cast hside
      rw [← hhalf, abs_le]
      constructor <;> linarith
    · have hhalf : (2 * evenHalf n : ℚ) = n + 1 := by exact_mod_cast hside
      rw [abs_le]
      constructor <;> linarith

/-- Cutting off a product before the sum it goes into is cut off changes nothing. -/
theorem Word.toNat_add_mul (a b c : UInt32) :
    (add a (mul b c)).toNat = min (a.toNat + b.toNat * c.toNat) 4294967295 := by
  rw [toNat_add, toNat_mul]
  omega

namespace Binary64

variable {n : ℕ} (hn : n < 2 ^ 32)
include hn

theorem abs_natCast_lt : |(n : ℤ)| < 2 ^ 53 := by
  rw [Nat.abs_cast]
  exact_mod_cast hn.trans (by norm_num)

/-- A word is a double. -/
theorem round_natCast : round n = n := by
  have hround := round_scaled (abs_natCast_lt hn) (k := 0) (by norm_num)
  rwa [zpow_zero, mul_one, Int.cast_natCast] at hround

/-- Half of a word is a double. -/
theorem div_two_eq : div n 2 = n / 2 := by
  have hround := round_scaled (abs_natCast_lt hn) (k := -1) (by norm_num)
  rwa [zpow_neg_one, ← div_eq_mul_inv, Int.cast_natCast] at hround

theorem roundEven_half : roundEven (div n 2) = evenHalf n := by
  rw [div_two_eq hn]
  exact roundEven_eq_iff.2 (evenHalf_isNearestEven n)

theorem toNat_nearest_half : (Word.nearest (roundEven (div n 2))).toNat = evenHalf n := by
  have hle := evenHalf_le n
  rw [roundEven_half hn, Word.toNat_nearest, Int.toNat_natCast]
  omega

end Binary64

open Binary64 (round_natCast div_two_eq roundEven_half toNat_nearest_half)

/-- Each dot adds the half of the duration, of two nearest integers the even one. Only the sum of
them all is cut off at the greatest word. -/
theorem toNat_withDots (d dots : UInt32) : ∃ half : ℕ,
    roundEven (Binary64.div d.toNat 2) = half ∧ IsNearestEven (d.toNat / 2) half ∧
      (withDots d dots).toNat = min (d.toNat + dots.toNat * half) 4294967295 := by
  refine ⟨evenHalf d.toNat, roundEven_half d.toNat_lt, evenHalf_isNearestEven d.toNat, ?_⟩
  rw [withDots, Word.toNat_add_mul, toNat_nearest_half d.toNat_lt]

theorem le_withDots (d dots : UInt32) : d ≤ withDots d dots := by
  obtain ⟨half, -, -, hdots⟩ := toNat_withDots d dots
  have hlt := d.toNat_lt
  rw [UInt32.le_iff_toNat_le, hdots]
  omega

/-- A duration with dots is the exact sum, cut off once. The half that each dot adds is exact if the
duration is even, else the even one of its two neighbours. A word, its half and the half rounded are
doubles, so nothing is lost in computing with these, and the rounded half becomes a word as it is.
It makes no difference that the product of dots and half is cut off before the sum. -/
theorem toNat_withDots_evenHalf (d dots : UInt32) :
    (withDots d dots).toNat = min (d.toNat + dots.toNat * evenHalf d.toNat) 4294967295 ∧
    (∀ a b c : UInt32,
      (Word.add a (Word.mul b c)).toNat = min (a.toNat + b.toNat * c.toNat) 4294967295) ∧
    let n := d.toNat
    let half := evenHalf n
    (IsNearestEven (n / 2) half ∧ (Even n → 2 * half = n) ∧
      (Odd n → Even half ∧ (2 * half + 1 = n ∨ 2 * half = n + 1))) ∧
    (Binary64.round n = n ∧ Binary64.div n 2 = n / 2 ∧ Binary64.round half = half) ∧
    roundEven (Binary64.div n 2) = half ∧
    (Word.nearest (roundEven (Binary64.div n 2))).toNat = half := by
  have hn : d.toNat < 2 ^ 32 := d.toNat_lt
  have hhalf : evenHalf d.toNat < 2 ^ 32 := (evenHalf_le d.toNat).trans_lt hn
  refine ⟨?_, Word.toNat_add_mul, ?_⟩
  · rw [withDots, Word.toNat_add_mul, toNat_nearest_half hn]
  · exact ⟨⟨evenHalf_isNearestEven d.toNat, evenHalf_of_even, evenHalf_of_odd⟩,
      ⟨round_natCast hn, div_two_eq hn, round_natCast hhalf⟩, roundEven_half hn,
      toNat_nearest_half hn⟩

/-- Of sixty-two and a half the even neighbour is below, of 187 and a half above. -/
example : evenHalf 125 = 62 ∧ evenHalf 375 = 188 := by decide

end MusicMacro
