import PlantGrowth.Proofs.Scalar.Nearest

/-!
# Rounded quotients

The double that a rational number is rounded to in exact arithmetic is the nearest one
(`isNearest_of_nearestDouble`), and there is one unless the number is too large
(`exists_nearestDouble`).
-/

set_option autoImplicit false

namespace PlantGrowth.Quotient

open Double

/-- The magnitude of a rational is its absolute value. -/
theorem abs_eq (q : ℚ) : q.abs = |q| := by
  rw [Rat.abs]
  split
  · next h => exact (abs_of_nonneg h).symm
  · next h => exact (abs_of_neg (not_le.1 h)).symm

/-- The lengths of numerator and denominator tell the size of a quotient up to a factor of two. -/
theorem log_eq_binaryExponent {q : ℚ} (hq : q ≠ 0) : Int.log 2 |(q : ℝ)| = binaryExponent q := by
  obtain ⟨n, hn⟩ : ∃ n, q.num.natAbs = n := ⟨_, rfl⟩
  obtain ⟨d, hd⟩ : ∃ d, q.den = d := ⟨_, rfl⟩
  have hnpos : 0 < n := hn ▸ Int.natAbs_pos.2 (Rat.num_ne_zero.2 hq)
  have hdpos : 0 < d := hd ▸ q.den_pos
  have hdreal : (0 : ℝ) < d := Nat.cast_pos.2 hdpos
  have hscale (k : ℤ) : (0 : ℝ) < 2 ^ k := zpow_pos two_pos k
  obtain ⟨k, hk⟩ : ∃ k : ℤ, (n.log2 : ℤ) - d.log2 = k := ⟨_, rfl⟩
  have hvalue : |(q : ℝ)| = n / d := by
    rw [Rat.cast_def, abs_div, Nat.abs_cast, hd, ← hn, Nat.cast_natAbs, Int.cast_abs]
  have hhigh : |(q : ℝ)| < 2 ^ (k + 1) := by
    rw [hvalue, div_lt_iff₀ hdreal]
    calc (n : ℝ) < 2 ^ (n.log2 + 1) := by exact_mod_cast Nat.lt_log2_self
      _ = 2 ^ (k + 1) * 2 ^ d.log2 := by
        rw [← zpow_natCast, ← zpow_natCast, ← zpow_add₀ two_ne_zero]
        congr 1
        omega
      _ ≤ 2 ^ (k + 1) * d :=
        mul_le_mul_of_nonneg_left (by exact_mod_cast Nat.log2_self_le hdpos.ne') (hscale _).le
  have hlow : 2 ^ (k - 1) ≤ |(q : ℝ)| := by
    rw [hvalue, le_div_iff₀ hdreal]
    calc (2 : ℝ) ^ (k - 1) * d ≤ 2 ^ (k - 1) * 2 ^ (d.log2 + 1) :=
        mul_le_mul_of_nonneg_left (by exact_mod_cast Nat.lt_log2_self.le) (hscale _).le
      _ = 2 ^ n.log2 := by
        rw [← zpow_natCast, ← zpow_natCast, ← zpow_add₀ two_ne_zero]
        congr 1
        omega
      _ ≤ n := by exact_mod_cast Nat.log2_self_le hnpos.ne'
  have habs : ((q.abs : ℚ) : ℝ) = |(q : ℝ)| := by rw [abs_eq, Rat.cast_abs]
  have hpow : (((2 : ℚ) ^ k : ℚ) : ℝ) = 2 ^ k := by push_cast; rfl
  rw [binaryExponent, hn, hd, hk]
  split
  · next h =>
    have h := (Rat.cast_le (K := ℝ)).2 h
    rw [hpow, habs] at h
    exact log_eq_of_zpow_le h hhigh
  · next h =>
    have h := (Rat.cast_lt (K := ℝ)).2 (not_le.1 h)
    rw [hpow, habs] at h
    refine log_eq_of_zpow_le hlow ?_
    rw [sub_add_cancel]
    exact h

/-- The spacing of a rational is the power of two of its grid. -/
theorem cast_spacing {q : ℚ} (hq : q ≠ 0) : ((spacing q : ℚ) : ℝ) = 2 ^ gridExponent q := by
  rw [gridExponent, log_eq_binaryExponent hq, spacing]
  push_cast
  rfl

/-- The multiple of the spacing that a quotient is rounded to is the nearest double, if there were no
bound above. -/
theorem isNearest_roundHalfEven (q : ℚ) :
    IsNearest q ((roundHalfEven (q / spacing q) * spacing q : ℚ) : ℝ) := by
  by_cases hq : q = 0
  · subst hq
    have hzero : roundHalfEven (0 / spacing 0) = 0 := by decide +kernel
    rw [hzero, Int.cast_zero, zero_mul, Rat.cast_zero]
    exact .zero
  · refine ⟨roundHalfEven (q / spacing q), ?_, ?_⟩
    · rw [← cast_spacing hq, ← Rat.cast_div]
      exact isHalfEven_roundHalfEven _
    · rw [Rat.cast_mul, cast_spacing hq, Rat.cast_intCast]

/-- The nearest double of a rational, where there is one, is the nearest one in the reals. -/
theorem isNearest_of_nearestDouble {q r : ℚ} (h : nearestDouble q = some r) : IsNearest q r := by
  rw [nearestDouble] at h
  split at h
  · cases h
    exact isNearest_roundHalfEven q
  · cases h

/-- A rational that is not too large has a nearest double. -/
theorem exists_nearestDouble {q : ℚ} (hq : |q| ≤ 2 ^ 1023) : ∃ r, nearestDouble q = some r := by
  have hbound : |((roundHalfEven (q / spacing q) * spacing q : ℚ) : ℝ)| ≤ 2 ^ (1023 : ℤ) := by
    refine (isNearest_roundHalfEven q).roundsTo.abs_le 1023 (by norm_num) ?_
    rw [← Rat.cast_abs]
    exact_mod_cast hq
  have hlt : |((roundHalfEven (q / spacing q) * spacing q : ℚ) : ℝ)| < 2 ^ (1024 : ℤ) :=
    hbound.trans_lt (zpow_lt_zpow_right₀ one_lt_two (by norm_num))
  have hfits : (roundHalfEven (q / spacing q) * spacing q : ℚ).abs < 2 ^ (1024 : ℤ) := by
    rw [abs_eq]
    exact_mod_cast hlt
  exact ⟨_, if_pos hfits⟩

end PlantGrowth.Quotient
