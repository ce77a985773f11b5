import Mathlib.Algebra.Order.Field.Power
import Mathlib.Data.Rat.Floor
import Mathlib.Tactic.FieldSimp
import Mathlib.Tactic.GCongr
import Mathlib.Tactic.Linarith
import Mathlib.Tactic.NormNum
import Mathlib.Tactic.Positivity
import Mathlib.Tactic.Ring
import MusicMacro.Numeric.Binary64

/-!
Rounding, to the nearest integer and to the nearest double. A double next to a rational that is not
too small is off by at most one part in 2 ^ 53 of it.
-/

namespace MusicMacro

/-- The integer is nearest to the rational, and it is the even one where two are. -/
structure IsNearestEven (x : ℚ) (n : ℤ) : Prop where
  near : |x - n| ≤ 1 / 2
  even : |x - n| = 1 / 2 → Even n

theorem IsNearestEven.of_lt {x : ℚ} {n : ℤ} (h : |x - n| < 1 / 2) : IsNearestEven x n :=
  ⟨h.le, fun heq => absurd heq h.ne⟩

theorem IsNearestEven.not_succ {x : ℚ} {n : ℤ} (h : IsNearestEven x n) :
    ¬IsNearestEven x (n + 1) := by
  intro hsucc
  have hlow := abs_le.1 h.near
  have hhigh := abs_le.1 hsucc.near
  push_cast at hhigh
  have hn : x - n = 1 / 2 := by linarith
  have hsn : x - (n + 1 : ℤ) = -(1 / 2) := by
    push_cast
    linarith
  have heven := h.even (by rw [hn, abs_of_pos (by norm_num)])
  have hodd := hsucc.even (by rw [hsn, abs_neg, abs_of_pos (by norm_num)])
  exact Int.not_even_iff_odd.2 heven.add_one hodd

theorem IsNearestEven.unique {x : ℚ} {m n : ℤ} (hm : IsNearestEven x m) (hn : IsNearestEven x n) :
    m = n := by
  have hm' := abs_le.1 hm.near
  have hn' := abs_le.1 hn.near
  have hle : |((m - n : ℤ) : ℚ)| ≤ 1 := by
    rw [Int.cast_sub]
    exact abs_le.2 ⟨by linarith, by linarith⟩
  obtain ⟨hlow, hhigh⟩ := abs_le.1 (show |m - n| ≤ 1 by exact_mod_cast hle)
  have hsides : m = n ∨ m = n + 1 ∨ n = m + 1 := by omega
  obtain h | h | h := hsides
  · exact h
  · exact absurd (h ▸ hm) hn.not_succ
  · exact absurd (h ▸ hn) hm.not_succ

theorem roundEven_isNearestEven (x : ℚ) : IsNearestEven x (roundEven x) := by
  have hlow : ((x.floor : ℤ) : ℚ) ≤ x := Int.floor_le x
  have hhigh : x < (x.floor : ℤ) + 1 := Int.lt_floor_add_one x
  unfold roundEven
  dsimp only
  split
  · apply IsNearestEven.of_lt
    rw [abs_of_nonneg (by linarith)]
    assumption
  · split
    · apply IsNearestEven.of_lt
      push_cast
      rw [abs_of_neg (by linarith)]
      linarith
    · have hhalf : x - (x.floor : ℤ) = 1 / 2 := by linarith
      split
      next hmod =>
        refine ⟨?_, fun _ => Int.even_iff.2 hmod⟩
        rw [hhalf, abs_of_pos (by norm_num)]
      next hmod =>
        refine ⟨?_, fun _ => ?_⟩
        · push_cast
          rw [abs_of_neg (by linarith)]
          linarith
        · exact (Int.not_even_iff_odd.1 fun h => hmod (Int.even_iff.1 h)).add_one

theorem roundEven_eq_iff {x : ℚ} {n : ℤ} : roundEven x = n ↔ IsNearestEven x n := by
  constructor
  · intro h
    exact h ▸ roundEven_isNearestEven x
  · intro h
    exact (roundEven_isNearestEven x).unique h

theorem IsNearestEven.le_of_le {x : ℚ} {m n : ℤ} (h : IsNearestEven x n) (hx : x ≤ m) :
    n ≤ m := by
  have hnear := abs_le.1 h.near
  have hlt : (n : ℚ) < m + 1 := by linarith
  exact Int.lt_add_one_iff.1 (by exact_mod_cast hlt)

theorem IsNearestEven.le_of_ge {x : ℚ} {m n : ℤ} (h : IsNearestEven x n) (hx : m ≤ x) :
    m ≤ n := by
  have hnear := abs_le.1 h.near
  have hlt : (m : ℚ) < n + 1 := by linarith
  exact Int.lt_add_one_iff.1 (by exact_mod_cast hlt)

theorem roundEven_intCast (n : ℤ) : roundEven n = n := by
  apply roundEven_eq_iff.2
  apply IsNearestEven.of_lt
  rw [sub_self, abs_zero]
  norm_num

/-- A ratio of integers that is not a half is at least one part in twice the denominator away from
every half. -/
theorem le_abs_sub_half {a b k : ℤ} (hb : 0 < b) (h : (a : ℚ) / b ≠ k + 1 / 2) :
    1 / (2 * b) ≤ |(a : ℚ) / b - (k + 1 / 2)| := by
  have hpos : (0 : ℚ) < b := by exact_mod_cast hb
  have heq : (a : ℚ) / b - (k + 1 / 2) = (2 * a - (2 * k + 1) * b : ℤ) / (2 * b) := by
    push_cast
    field_simp
  have hne : 2 * a - (2 * k + 1) * b ≠ 0 := by
    intro hzero
    rw [hzero, Int.cast_zero, zero_div] at heq
    exact h (sub_eq_zero.1 heq)
  have hone : (1 : ℚ) ≤ |((2 * a - (2 * k + 1) * b : ℤ) : ℚ)| := by
    exact_mod_cast Int.one_le_abs hne
  rw [heq, abs_div, abs_of_pos (show (0 : ℚ) < 2 * b by positivity)]
  gcongr

/-- What is closer to a ratio than any half other than the ratio itself rounds as the ratio does,
unless the ratio is a half. -/
theorem roundEven_eq_of_near {a b : ℤ} {z : ℚ} (hb : 0 < b)
    (hhalf : ∀ k : ℤ, (a : ℚ) / b ≠ k + 1 / 2) (hnear : |z - a / b| < 1 / (2 * b)) :
    roundEven z = roundEven (a / b : ℚ) := by
  have hround := abs_le.1 (roundEven_isNearestEven (a / b : ℚ)).near
  have hbelow := le_abs_sub_half hb (hhalf (roundEven (a / b : ℚ) - 1))
  have habove := le_abs_sub_half hb (hhalf (roundEven (a / b : ℚ)))
  push_cast at hbelow
  rw [abs_of_nonneg (by linarith)] at hbelow
  rw [abs_of_nonpos (by linarith)] at habove
  obtain ⟨hlow, hhigh⟩ := abs_lt.1 hnear
  apply roundEven_eq_iff.2
  apply IsNearestEven.of_lt
  exact abs_lt.2 ⟨by linarith, by linarith⟩

theorem powTwo_eq (k : ℤ) : powTwo k = 2 ^ k := by
  cases k with
  | ofNat k => simp [powTwo]
  | negSucc k => simp [powTwo, Rat.mkRat_eq_div, zpow_negSucc]

namespace Binary64

theorem mkRat_natAbs (x : ℚ) : mkRat x.num.natAbs x.den = |x| := by
  rw [Rat.mkRat_eq_div, Int.natCast_natAbs, Int.cast_abs, ← Nat.abs_cast x.den, ← abs_div,
    Rat.num_div_den]

theorem natAbs_div_den (x : ℚ) : (x.num.natAbs : ℚ) / x.den = |x| := by
  rw [← mkRat_natAbs, Rat.mkRat_eq_div]
  rfl

/-- The leading digit of a ratio stands at the difference of the leading digits, or right below. -/
theorem leading_spec {x : ℚ} (hx : x ≠ 0) : 2 ^ leading x ≤ |x| ∧ |x| < 2 ^ (leading x + 1) := by
  have hnum : x.num.natAbs ≠ 0 := by simpa using hx
  have hn := Nat.log2_self_le hnum
  have hn' := Nat.lt_log2_self (n := x.num.natAbs)
  have hd := Nat.log2_self_le x.den_nz
  have hd' := Nat.lt_log2_self (n := x.den)
  have hden : (0 : ℚ) < x.den := by exact_mod_cast x.den_pos
  have habove : |x| < 2 ^ ((x.num.natAbs.log2 : ℤ) - x.den.log2 + 1) := by
    calc
      |x| = x.num.natAbs / x.den := (natAbs_div_den x).symm
      _ < 2 ^ (x.num.natAbs.log2 + 1) / 2 ^ x.den.log2 :=
        div_lt_div₀ (by exact_mod_cast hn') (by exact_mod_cast hd) (by positivity) (by positivity)
      _ = 2 ^ ((x.num.natAbs.log2 : ℤ) - x.den.log2 + 1) := by
        rw [← zpow_natCast, ← zpow_natCast, ← zpow_sub₀ two_ne_zero]
        congr 1
        omega
  have hbelow : 2 ^ ((x.num.natAbs.log2 : ℤ) - x.den.log2 - 1) < |x| := by
    calc
      (2 : ℚ) ^ ((x.num.natAbs.log2 : ℤ) - x.den.log2 - 1) =
          2 ^ x.num.natAbs.log2 / 2 ^ (x.den.log2 + 1) := by
        rw [← zpow_natCast, ← zpow_natCast, ← zpow_sub₀ two_ne_zero]
        congr 1
        omega
      _ < x.num.natAbs / x.den :=
        div_lt_div₀' (by exact_mod_cast hn) (by exact_mod_cast hd') (by positivity) hden
      _ = |x| := natAbs_div_den x
  unfold leading
  dsimp only
  rw [mkRat_natAbs, powTwo_eq]
  split
  next h => exact ⟨h, habove⟩
  next h =>
    rw [sub_add_cancel]
    exact ⟨hbelow.le, not_le.1 h⟩

theorem round_zero : round 0 = 0 := by rw [round, if_pos rfl]

/-- A double is off by at most half of its last digit. -/
theorem abs_round_sub_le (x : ℚ) : |round x - x| ≤ 2 ^ grain x / 2 := by
  have hpos : (0 : ℚ) < 2 ^ grain x := by positivity
  by_cases hx : x = 0
  · subst hx
    rw [round_zero, sub_zero, abs_zero]
    exact (half_pos hpos).le
  · have hnear := (roundEven_isNearestEven (x / 2 ^ grain x)).near
    have hscaled : round x - x =
        -((x / 2 ^ grain x - roundEven (x / 2 ^ grain x)) * 2 ^ grain x) := by
      rw [round, if_neg hx, powTwo_eq, sub_mul, div_mul_cancel₀ x hpos.ne', neg_sub]
    rw [hscaled, abs_neg, abs_mul, abs_of_pos hpos]
    calc
      |x / 2 ^ grain x - roundEven (x / 2 ^ grain x)| * 2 ^ grain x ≤ 1 / 2 * 2 ^ grain x :=
        mul_le_mul_of_nonneg_right hnear hpos.le
      _ = 2 ^ grain x / 2 := by ring

/-- A number whose binary digits reach no further than those of a double is rounded to itself. -/
theorem round_eq_self {x : ℚ} {n k : ℤ} (hx : x = n * 2 ^ k) (hk : grain x ≤ k) : round x = x := by
  have hpos : (0 : ℚ) < 2 ^ grain x := by positivity
  have hpow : ((2 ^ (k - grain x).toNat : ℤ) : ℚ) * 2 ^ grain x = 2 ^ k := by
    push_cast
    rw [← zpow_natCast, ← zpow_add₀ two_ne_zero]
    congr 1
    omega
  have hscaled : x / 2 ^ grain x = (n * 2 ^ (k - grain x).toNat : ℤ) := by
    rw [div_eq_iff hpos.ne', Int.cast_mul, mul_assoc, hpow]
    exact hx
  unfold round
  split
  next h => exact h.symm
  next h => rw [powTwo_eq, hscaled, roundEven_intCast, ← hscaled, div_mul_cancel₀ x hpos.ne']

/-- A number of at most 53 binary digits is a double at every exponent that a double can have. -/
theorem round_scaled {n k : ℤ} (hn : |n| < 2 ^ 53) (hk : -1074 ≤ k) :
    round (n * 2 ^ k) = n * 2 ^ k := by
  by_cases hzero : (n : ℚ) * 2 ^ k = 0
  · rw [hzero, round_zero]
  have hsize : |(n : ℚ) * 2 ^ k| < 2 ^ (53 + k) := by
    have hrat : |(n : ℚ)| < 2 ^ 53 := by exact_mod_cast hn
    rw [abs_mul, abs_of_pos (show (0 : ℚ) < 2 ^ k by positivity), zpow_add₀ two_ne_zero]
    exact mul_lt_mul_of_pos_right hrat (by positivity)
  have hlead : leading ((n : ℚ) * 2 ^ k) < 53 + k :=
    (zpow_lt_zpow_iff_right₀ one_lt_two).1 ((leading_spec hzero).1.trans_lt hsize)
  exact round_eq_self rfl (max_le (by omega) hk)

theorem abs_roundEven_scaled_le {x : ℚ} (hx : x ≠ 0) :
    |roundEven (x / 2 ^ grain x)| ≤ 2 ^ 53 := by
  have hnearest := roundEven_isNearestEven (x / 2 ^ grain x)
  have hgrain : leading x + 1 ≤ 53 + grain x := by
    have := le_max_left (leading x - 52) (-1074)
    unfold grain
    omega
  have hscaled : |x / 2 ^ grain x| ≤ ((2 ^ 53 : ℤ) : ℚ) := by
    rw [abs_div, abs_of_pos (show (0 : ℚ) < 2 ^ grain x by positivity),
      div_le_iff₀ (by positivity)]
    calc
      |x| ≤ 2 ^ (leading x + 1) := (leading_spec hx).2.le
      _ ≤ 2 ^ (53 + grain x) := zpow_le_zpow_right₀ one_le_two hgrain
      _ = ((2 ^ 53 : ℤ) : ℚ) * 2 ^ grain x := by
        rw [zpow_add₀ two_ne_zero]
        norm_num
  obtain ⟨hlow, hhigh⟩ := abs_le.1 hscaled
  exact abs_le.2 ⟨hnearest.le_of_ge (by exact_mod_cast hlow), hnearest.le_of_le hhigh⟩

/-- What is not too large for a double is rounded to a finite one. -/
theorem isFinite_round {x : ℚ} (hx : |x| < 2 ^ (1023 : ℤ)) : IsFinite (round x) := by
  by_cases hzero : x = 0
  · subst hzero
    exact ⟨0, 0, by norm_num, by norm_num, by norm_num, by rw [round_zero]; norm_num⟩
  have hlead : leading x < 1023 :=
    (zpow_lt_zpow_iff_right₀ one_lt_two).1 ((leading_spec hzero).1.trans_lt hx)
  have hlow : -1074 ≤ grain x := le_max_right _ _
  have hhigh : grain x ≤ 970 := max_le (by omega) (by norm_num)
  have hround : round x = roundEven (x / 2 ^ grain x) * powTwo (grain x) := by
    rw [round, if_neg hzero, powTwo_eq]
  have hsize := abs_le.1 (abs_roundEven_scaled_le hzero)
  generalize roundEven (x / 2 ^ grain x) = m at hround hsize
  by_cases hm : m.natAbs < 9007199254740992
  · exact ⟨m, grain x, hm, hlow, by omega, hround⟩
  -- All digits were carried away, and half as many steps of twice the size are left.
  · have hdouble : m = 2 * (m / 2) := by omega
    refine ⟨m / 2, grain x + 1, by omega, by omega, by omega, ?_⟩
    rw [hround, powTwo_eq, powTwo_eq, zpow_add_one₀ two_ne_zero]
    nth_rewrite 1 [hdouble]
    push_cast
    ring

/-- The greatest relative error of a rounding: one part in 2 ^ 53. -/
def roundoff : ℚ := 1 / 2 ^ 53

/-- Above the least normal double a rounding is off by a small part of what is rounded. -/
theorem abs_round_sub_le_of_normal {x : ℚ} (hx : 2 ^ (-1022 : ℤ) ≤ |x|) :
    |round x - x| ≤ |x| * roundoff := by
  have hne : x ≠ 0 := by
    rintro rfl
    rw [abs_zero] at hx
    exact absurd hx (not_le.2 (by positivity))
  obtain ⟨hlow, hhigh⟩ := leading_spec hne
  have hexp : (-1022 : ℤ) < leading x + 1 :=
    (zpow_lt_zpow_iff_right₀ one_lt_two).1 (hx.trans_lt hhigh)
  have hgrain : grain x = leading x - 52 := max_eq_left (by omega)
  calc
    |round x - x| ≤ 2 ^ grain x / 2 := abs_round_sub_le x
    _ = 2 ^ leading x * roundoff := by
      rw [hgrain, zpow_sub₀ two_ne_zero, roundoff]
      norm_num
      ring
    _ ≤ |x| * roundoff := by
      rw [roundoff]
      gcongr

/-- What a positive rational may have become by a number of roundings. -/
structure Drift (roundings : ℕ) (x y : ℚ) : Prop where
  low : x * (1 - roundoff) ^ roundings ≤ y
  high : y ≤ x * (1 + roundoff) ^ roundings

namespace Drift

variable {j k : ℕ} {x y x' y' : ℚ}

theorem loss_pos (k : ℕ) : 0 < (1 - roundoff) ^ k := by
  apply pow_pos
  norm_num [roundoff]

theorem gain_pos (k : ℕ) : 0 < (1 + roundoff) ^ k := by
  apply pow_pos
  norm_num [roundoff]

theorem refl (x : ℚ) : Drift 0 x x := ⟨by rw [pow_zero, mul_one], by rw [pow_zero, mul_one]⟩

theorem pos (h : Drift k x y) (hx : 0 < x) : 0 < y :=
  lt_of_lt_of_le (mul_pos hx (loss_pos k)) h.low

theorem mul (h : Drift j x y) (h' : Drift k x' y') (hx : 0 < x) (hx' : 0 < x') :
    Drift (j + k) (x * x') (y * y') := by
  have hy := h.pos hx
  have hy' := h'.pos hx'
  have hloss := (loss_pos k).le
  have hgain := (gain_pos j).le
  constructor
  · calc
      x * x' * (1 - roundoff) ^ (j + k) =
          x * (1 - roundoff) ^ j * (x' * (1 - roundoff) ^ k) := by rw [pow_add, mul_mul_mul_comm]
      _ ≤ y * y' := mul_le_mul h.low h'.low (mul_nonneg hx'.le hloss) hy.le
  · calc
      y * y' ≤ x * (1 + roundoff) ^ j * (x' * (1 + roundoff) ^ k) :=
        mul_le_mul h.high h'.high hy'.le (mul_nonneg hx.le hgain)
      _ = x * x' * (1 + roundoff) ^ (j + k) := by rw [pow_add, mul_mul_mul_comm]

/-- One more rounding, of what is not too small. -/
theorem round (h : Drift k x y) (hy : 2 ^ (-1022 : ℤ) ≤ y) :
    Drift (k + 1) x (Binary64.round y) := by
  have hpos : 0 < y := lt_of_lt_of_le (by positivity) hy
  have herror := abs_round_sub_le_of_normal (x := y) (by rwa [abs_of_pos hpos])
  rw [abs_of_pos hpos] at herror
  obtain ⟨hlow, hhigh⟩ := abs_le.1 herror
  constructor
  · calc
      x * (1 - roundoff) ^ (k + 1) = x * (1 - roundoff) ^ k * (1 - roundoff) := by
        rw [pow_succ, mul_assoc]
      _ ≤ y * (1 - roundoff) := mul_le_mul_of_nonneg_right h.low (by norm_num [roundoff])
      _ ≤ Binary64.round y := by linarith
  · calc
      Binary64.round y ≤ y * (1 + roundoff) := by linarith
      _ ≤ x * (1 + roundoff) ^ k * (1 + roundoff) :=
        mul_le_mul_of_nonneg_right h.high (by norm_num [roundoff])
      _ = x * (1 + roundoff) ^ (k + 1) := by rw [pow_succ, mul_assoc]

theorem div_le (h : Drift k x y) (hx : 0 < x) : x / 2 ^ k ≤ y := by
  have hhalf : (1 / 2 : ℚ) ^ k ≤ (1 - roundoff) ^ k := by
    apply pow_le_pow_left₀ (by norm_num)
    norm_num [roundoff]
  calc
    x / 2 ^ k = x * (1 / 2) ^ k := by rw [one_div, inv_pow, div_eq_mul_inv]
    _ ≤ x * (1 - roundoff) ^ k := mul_le_mul_of_nonneg_left hhalf hx.le
    _ ≤ y := h.low

/-- Three roundings together are off by at most four parts in 2 ^ 53. -/
theorem abs_sub_le (h : Drift 3 x y) (hx : 0 < x) : |y - x| ≤ x / 2 ^ 51 := by
  have hlow : 1 - 1 / 2 ^ 51 ≤ (1 - roundoff) ^ 3 := by norm_num [roundoff]
  have hhigh : (1 + roundoff) ^ 3 ≤ 1 + 1 / 2 ^ 51 := by norm_num [roundoff]
  have hbelow := (mul_le_mul_of_nonneg_left hlow hx.le).trans h.low
  have habove := h.high.trans (mul_le_mul_of_nonneg_left hhigh hx.le)
  apply abs_le.2
  constructor <;> linarith

end Drift

end Binary64

end MusicMacro
