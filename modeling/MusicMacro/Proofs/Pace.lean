import Mathlib.Data.Nat.Prime.Basic
import Mathlib.Tactic.NormNum.GCD
import MusicMacro.Pace
import MusicMacro.Proofs.Numeric.Rounding

/-!
Durations are right to the millisecond. Three roundings on the way are too small to carry a duration
across a half, and where the duration is a half they leave no error.
-/

namespace MusicMacro

theorem Word.toNat_pos {n : UInt32} (h : n ≠ 0) : 0 < n.toNat := by
  apply Nat.pos_of_ne_zero
  intro hzero
  exact h (UInt32.toNat_inj.1 hzero)

namespace Pace

open Binary64 (Drift)

/-- Milliseconds in a pace set by a tempo, before they become whole. -/
def milliseconds (tempo denominator : ℕ) : ℚ :=
  Binary64.mul (Binary64.div 2 tempo) (Binary64.div 2000 denominator)

section
variable {t n : ℕ}

/-- All quotients and products on the way are far above the least normal double. -/
theorem leastNormal_le : (2 : ℚ) ^ (-1022 : ℤ) ≤ 1 / 2 ^ 64 := by
  rw [one_div, ← zpow_natCast, ← zpow_neg]
  exact zpow_le_zpow_right₀ one_le_two (by norm_num)

theorem drift_div {a : ℚ} (ha : 1 ≤ a) (hn : 0 < n) (hn' : n < 2 ^ 32) :
    Drift 1 (a / n) (Binary64.div a n) := by
  have hpos : (0 : ℚ) < n := by exact_mod_cast hn
  have hle : (n : ℚ) ≤ 2 ^ 32 := by exact_mod_cast hn'.le
  apply (Drift.refl _).round
  apply leastNormal_le.trans
  rw [div_le_div_iff₀ (by positivity) hpos]
  linarith

theorem drift_milliseconds (ht : 0 < t) (hn : 0 < n) (ht' : t < 2 ^ 32) (hn' : n < 2 ^ 32) :
    Drift 3 (4000 / (t * n)) (milliseconds t n) := by
  have htpos : (0 : ℚ) < t := by exact_mod_cast ht
  have hnpos : (0 : ℚ) < n := by exact_mod_cast hn
  have htle : (t : ℚ) ≤ 2 ^ 32 := by exact_mod_cast ht'.le
  have hnle : (n : ℚ) ≤ 2 ^ 32 := by exact_mod_cast hn'.le
  have hscalar := drift_div one_le_two ht ht'
  have hplain := drift_div (show (1 : ℚ) ≤ 2000 by norm_num) hn hn'
  have hproduct := hscalar.mul hplain (by positivity) (by positivity)
  rw [div_mul_div_comm, show (2 : ℚ) * 2000 = 4000 by norm_num] at hproduct
  apply hproduct.round
  apply leastNormal_le.trans
  apply le_trans _ (hproduct.div_le (by positivity))
  have hle : (t * n : ℚ) ≤ 2 ^ 32 * 2 ^ 32 := mul_le_mul htle hnle hnpos.le (by positivity)
  rw [div_div, div_le_div_iff₀ (by positivity) (by positivity), one_mul]
  calc
    (t * n : ℚ) * 2 ^ (1 + 1) ≤ 2 ^ 32 * 2 ^ 32 * 2 ^ (1 + 1) :=
      mul_le_mul_of_nonneg_right hle (by positivity)
    _ ≤ 4000 * 2 ^ 64 := by norm_num

/-- The products of powers of two and five among which the halves lie, computed without error. -/
theorem milliseconds_pow : ∀ a < 7, ∀ b < 4, ∀ c < 7 - a, ∀ d < 4 - b,
    milliseconds (2 ^ a * 5 ^ b) (2 ^ c * 5 ^ d) =
      4000 / ((2 ^ a * 5 ^ b : ℕ) * (2 ^ c * 5 ^ d : ℕ)) := by
  decide +kernel

theorem exists_pow_of_dvd {m : ℕ} (h : m ∣ 2 ^ 6 * 5 ^ 3) : ∃ a b, m = 2 ^ a * 5 ^ b := by
  obtain ⟨y, z, hy, hz, rfl⟩ := Nat.dvd_mul.1 h
  obtain ⟨a, -, rfl⟩ := (Nat.dvd_prime_pow Nat.prime_two).1 hy
  obtain ⟨b, -, rfl⟩ := (Nat.dvd_prime_pow Nat.prime_five).1 hz
  exact ⟨a, b, rfl⟩

/-- There is no error where the product of tempo and denominator divides twice the milliseconds of
a whole note at tempo one. -/
theorem milliseconds_eq_of_dvd (h : t * n ∣ 8000) : milliseconds t n = 4000 / (t * n) := by
  have hpow : t * n ∣ 2 ^ 6 * 5 ^ 3 := h
  obtain ⟨a, b, rfl⟩ := exists_pow_of_dvd (dvd_of_mul_right_dvd hpow)
  obtain ⟨c, d, rfl⟩ := exists_pow_of_dvd (dvd_of_mul_left_dvd hpow)
  have hcop : Nat.Coprime 2 5 := by norm_num
  rw [mul_mul_mul_comm, ← pow_add, ← pow_add] at hpow
  have htwo : a + c ≤ 6 := by
    have hdvd := (hcop.pow (a + c) 3).dvd_of_dvd_mul_right (dvd_of_mul_right_dvd hpow)
    exact (Nat.pow_dvd_pow_iff_le_right (by norm_num)).1 hdvd
  have hfive : b + d ≤ 3 := by
    have hdvd := (hcop.symm.pow (b + d) 6).dvd_of_dvd_mul_left (dvd_of_mul_left_dvd hpow)
    exact (Nat.pow_dvd_pow_iff_le_right (by norm_num)).1 hdvd
  exact milliseconds_pow a (by omega) b (by omega) c (by omega) d (by omega)

theorem dvd_of_half {k : ℤ} (ht : 0 < t) (hn : 0 < n) (h : (4000 : ℚ) / (t * n) = k + 1 / 2) :
    t * n ∣ 8000 := by
  have htpos : (0 : ℚ) < t := by exact_mod_cast ht
  have hnpos : (0 : ℚ) < n := by exact_mod_cast hn
  rw [div_eq_iff (by positivity)] at h
  have hint : ((t * n : ℕ) : ℤ) * (2 * k + 1) = 8000 := by
    have hrat : ((t : ℚ) * n) * (2 * k + 1) = 8000 := by linarith
    exact_mod_cast hrat
  exact_mod_cast Dvd.intro _ hint

/-- The roundings on the way do not change the whole milliseconds. -/
theorem roundEven_milliseconds (ht : 0 < t) (hn : 0 < n) (ht' : t < 2 ^ 32) (hn' : n < 2 ^ 32) :
    roundEven (milliseconds t n) = roundEven (4000 / (t * n) : ℚ) := by
  by_cases hhalf : ∃ k : ℤ, (4000 : ℚ) / (t * n) = k + 1 / 2
  -- No error bound helps at a half, where the least error would decide the rounding.
  · obtain ⟨k, hk⟩ := hhalf
    rw [milliseconds_eq_of_dvd (dvd_of_half ht hn hk)]
  · have htpos : (0 : ℚ) < t := by exact_mod_cast ht
    have hnpos : (0 : ℚ) < n := by exact_mod_cast hn
    have hnear := (drift_milliseconds ht hn ht' hn').abs_sub_le (by positivity)
    have hlt : |milliseconds t n - 4000 / (t * n)| < 1 / (2 * (t * n)) := by
      apply hnear.trans_lt
      rw [div_div, div_lt_div_iff₀ (by positivity) (by positivity)]
      nlinarith [mul_pos htpos hnpos]
    have hround := @roundEven_eq_of_near 4000 (t * n) (milliseconds t n) (by positivity)
    push_cast at hround
    exact hround (not_exists.1 hhalf) hlt

end

/-- The whole milliseconds are a word that stands for them, whatever tempo and denominator. -/
theorem nearest_milliseconds {t n : ℕ} (ht : 0 < t) (hn : 0 < n) (ht' : t < 2 ^ 32)
    (hn' : n < 2 ^ 32) :
    ((Word.nearest (roundEven (milliseconds t n))).toNat : ℤ) = roundEven (milliseconds t n) := by
  have htone : (1 : ℚ) ≤ t := by exact_mod_cast ht
  have hnone : (1 : ℚ) ≤ n := by exact_mod_cast hn
  have hone : (1 : ℚ) ≤ t * n := one_le_mul_of_one_le_of_one_le htone hnone
  have hpos : (0 : ℚ) < 4000 / (t * n) := by positivity
  have hle : (4000 : ℚ) / (t * n) ≤ 4000 := div_le_self (by norm_num) hone
  obtain ⟨hlow, hhigh⟩ := abs_le.1 (roundEven_isNearestEven (4000 / (t * n) : ℚ)).near
  rw [roundEven_milliseconds ht hn ht' hn', Word.toNat_nearest]
  have hnonneg : -1 < roundEven (4000 / (t * n) : ℚ) := by
    have hrat : (-1 : ℚ) < roundEven (4000 / (t * n) : ℚ) := by linarith
    exact_mod_cast hrat
  have hbound : roundEven (4000 / (t * n) : ℚ) < 4001 := by
    have hrat : (roundEven (4000 / (t * n) : ℚ) : ℚ) < 4001 := by linarith
    exact_mod_cast hrat
  omega

/-- The default pace is that of tempo two. -/
theorem ofTempo?_two : ofTempo? 2 = some {} := by decide +kernel

/-- In the pace of any tempo, and in the default pace, a length by any denominator has a duration:
the integer nearest to the exact quotient, the even one of two. It fits in a word before it becomes
one. -/
theorem duration?_isNearestEven (n : UInt32) (hn : n ≠ 0) :
    (∀ t : UInt32, t ≠ 0 → ∃ p w, ofTempo? t = some p ∧ p.duration? n = some w ∧
      IsNearestEven (4000 / (t.toNat * n.toNat)) w.toNat ∧
      roundEven (Binary64.mul p.scalar (Binary64.div 2000 n.toNat)) = w.toNat) ∧
    (∃ w, ({} : Pace).duration? n = some w ∧
      IsNearestEven (2000 / n.toNat) w.toNat ∧
      roundEven (Binary64.mul ({} : Pace).scalar (Binary64.div 2000 n.toNat)) = w.toNat) := by
  have htempo : ∀ t : UInt32, t ≠ 0 → ∃ p w, ofTempo? t = some p ∧ p.duration? n = some w ∧
      IsNearestEven (4000 / (t.toNat * n.toNat)) w.toNat ∧
      roundEven (Binary64.mul p.scalar (Binary64.div 2000 n.toNat)) = w.toNat := by
    intro t ht
    have hword := nearest_milliseconds (Word.toNat_pos ht) (Word.toNat_pos hn) t.toNat_lt n.toNat_lt
    refine ⟨⟨Binary64.div 2 t.toNat⟩, Word.nearest (roundEven (milliseconds t.toNat n.toNat)),
      if_neg ht, if_neg hn, ?_, hword.symm⟩
    rw [hword, roundEven_milliseconds (Word.toNat_pos ht) (Word.toNat_pos hn) t.toNat_lt n.toNat_lt]
    exact roundEven_isNearestEven _
  refine ⟨htempo, ?_⟩
  obtain ⟨p, w, hp, hw, hnear, hround⟩ := htempo 2 (by decide)
  obtain rfl : {} = p := Option.some.inj (ofTempo?_two.symm.trans hp)
  refine ⟨w, hw, ?_, hround⟩
  rwa [show (4000 : ℚ) / ((2 : UInt32).toNat * n.toNat) = 2000 / n.toNat by
    rw [show ((2 : UInt32).toNat : ℚ) = 2 from rfl]
    ring] at hnear

/-- A sixty-fourth at tempo five takes half of twenty-five milliseconds, and twelve is even. -/
theorem duration?_tempo_five_sixty_fourth :
    (64 : UInt32) ≠ 0 ∧ (5 : UInt32) ≠ 0 ∧
      ∃ p, ofTempo? 5 = some p ∧ p.duration? 64 = some 12 := by
  have hn : (64 : UInt32) ≠ 0 := by decide
  have ht : (5 : UInt32) ≠ 0 := by decide
  obtain ⟨p, w, hp, hw, hnear, -⟩ := (duration?_isNearestEven 64 hn).1 5 ht
  have htwelve : IsNearestEven (4000 / ((5 : ℕ) * (64 : ℕ))) 12 := by
    have hexact : (4000 : ℚ) / ((5 : ℕ) * (64 : ℕ)) - (12 : ℤ) = 1 / 2 := by norm_num
    refine ⟨?_, fun _ => by decide⟩
    rw [hexact, abs_of_pos (by norm_num)]
  have hword : w.toNat = 12 := by exact_mod_cast hnear.unique htwelve
  obtain rfl : w = 12 := UInt32.toNat_inj.1 hword
  exact ⟨hn, ht, p, hp, hw⟩

end Pace

end MusicMacro
