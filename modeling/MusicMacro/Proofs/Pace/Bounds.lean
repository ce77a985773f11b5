import MusicMacro.Proofs.Pace

/-!
Bounds of durations. In the pace of any tempo no length lasts longer than the whole note.
-/

namespace MusicMacro

namespace Pace

variable {t n w : UInt32} {p : Pace}

theorem ofTempo?_eq_some (h : ofTempo? t = some p) : t ≠ 0 ∧ p = ⟨Binary64.div 2 t.toNat⟩ := by
  unfold ofTempo? at h
  split at h
  · cases h
  next ht => exact ⟨ht, (Option.some.inj h).symm⟩

theorem duration?_eq_some (h : p.duration? n = some w) : n ≠ 0 ∧
    w = Word.nearest (roundEven (Binary64.mul p.scalar (Binary64.div 2000 n.toNat))) := by
  unfold duration? at h
  split at h
  · cases h
  next hn => exact ⟨hn, (Option.some.inj h).symm⟩

/-- In the pace of a tempo a duration is the integer that was rounded to, and that is the one
nearest to the exact quotient. -/
theorem toNat_duration? (hp : ofTempo? t = some p) (hw : p.duration? n = some w) :
    roundEven (Binary64.mul p.scalar (Binary64.div 2000 n.toNat)) = w.toNat ∧
      IsNearestEven (4000 / (t.toNat * n.toNat)) w.toNat := by
  obtain ⟨ht, rfl⟩ := ofTempo?_eq_some hp
  obtain ⟨hn, rfl⟩ := duration?_eq_some hw
  have htpos := Word.toNat_pos ht
  have hnpos := Word.toNat_pos hn
  have hword := nearest_milliseconds htpos hnpos t.toNat_lt n.toNat_lt
  have hround := roundEven_milliseconds htpos hnpos t.toNat_lt n.toNat_lt
  refine ⟨hword.symm, ?_⟩
  exact roundEven_eq_iff.1 (hround.symm.trans hword.symm)

/-- No length lasts longer than a whole note. -/
theorem duration?_le (hp : ofTempo? t = some p) (hw : p.duration? n = some w) {whole : ℕ}
    (h : 4000 ≤ whole * t.toNat) : w.toNat ≤ whole := by
  obtain ⟨ht, -⟩ := ofTempo?_eq_some hp
  obtain ⟨hn, -⟩ := duration?_eq_some hw
  have htpos : (0 : ℚ) < t.toNat := by exact_mod_cast Word.toNat_pos ht
  have hnone : (1 : ℚ) ≤ n.toNat := by exact_mod_cast Word.toNat_pos hn
  have hwhole : (4000 : ℚ) ≤ whole * t.toNat := by exact_mod_cast h
  have hle : (4000 : ℚ) / (t.toNat * n.toNat) ≤ (whole : ℤ) := by
    rw [div_le_iff₀ (by positivity)]
    calc
      (4000 : ℚ) ≤ whole * t.toNat := hwhole
      _ ≤ whole * t.toNat * n.toNat := le_mul_of_one_le_right (by positivity) hnone
      _ = (whole : ℤ) * (t.toNat * n.toNat) := by rw [mul_assoc]; rfl
  exact_mod_cast (toNat_duration? hp hw).2.le_of_le hle

theorem scalar_pos (hp : ofTempo? t = some p) : 0 < p.scalar := by
  obtain ⟨ht, rfl⟩ := ofTempo?_eq_some hp
  have htpos : (0 : ℚ) < t.toNat := by exact_mod_cast Word.toNat_pos ht
  exact (drift_div one_le_two (Word.toNat_pos ht) t.toNat_lt).pos (by positivity)

theorem scalar_isFinite (hp : ofTempo? t = some p) : Binary64.IsFinite p.scalar := by
  obtain ⟨ht, rfl⟩ := ofTempo?_eq_some hp
  have htone : (1 : ℚ) ≤ t.toNat := by exact_mod_cast Word.toNat_pos ht
  apply Binary64.isFinite_round
  rw [abs_of_pos (by positivity)]
  calc
    (2 : ℚ) / t.toNat ≤ 2 := div_le_self zero_le_two htone
    _ = 2 ^ (1 : ℤ) := (zpow_one 2).symm
    _ < 2 ^ (1023 : ℤ) := zpow_lt_zpow_right₀ one_lt_two (by norm_num)

end Pace

end MusicMacro
