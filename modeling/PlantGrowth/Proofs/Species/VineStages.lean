import PlantGrowth.Proofs.Scalar.Quotient
import PlantGrowth.Species.BuiltIn
import PlantGrowth.Species.Stage

/-!
# The stages of a vine

A vine has one stage for each six of its attractors, rounded up, but the quotient is rounded to a double
before. Up to `2 ^ 53` attractors a double has at least two bits behind the point, so the quotient moves
by less than the sixth that tells it from an integer below, and the stages are the exact ones. More
attractors never make fewer stages (`vine_stages_are_exact`).
-/

set_option autoImplicit false

namespace PlantGrowth

open Double

namespace Quotient

/-- The two roundings up of a rational agree. -/
theorem ceil_eq (q : ℚ) : q.ceil = ⌈q⌉ := by
  rw [eq_comm, Int.ceil_eq_iff]
  refine ⟨?_, Rat.le_ceil⟩
  linarith [Rat.ceil_lt (x := q)]

/-- A sixth of an integer that is not too large is not rounded down to an integer below it. -/
theorem ceil_of_nearestDouble {n : ℤ} (hlow : -2 ^ 53 ≤ n) (hhigh : n ≤ 2 ^ 53) {r : ℚ}
    (h : nearestDouble (n / 6) = some r) : r.ceil = ⌈(n : ℚ) / 6⌉ := by
  obtain ⟨c, hc⟩ : ∃ c, ⌈(n : ℚ) / 6⌉ = c := ⟨_, rfl⟩
  obtain ⟨hbelow, habove⟩ := Int.ceil_eq_iff.1 hc
  have hnearest : IsNearest ((n : ℝ) / 6) r := by
    have hnearest := isNearest_of_nearestDouble h
    push_cast at hnearest
    exact hnearest
  have hsmall : |(n : ℝ) / 6| < 2 ^ (51 : ℤ) := by
    have hlow : (-2 ^ 53 : ℝ) ≤ n := by exact_mod_cast hlow
    have hhigh : (n : ℝ) ≤ 2 ^ 53 := by exact_mod_cast hhigh
    rw [abs_lt]
    norm_num at hlow hhigh ⊢
    constructor <;> linarith
  have hgrid : gridExponent ((n : ℝ) / 6) ≤ -2 := by
    have hgrid := gridExponent_le (by norm_num) hsmall
    omega
  have hupper : r ≤ c := by
    have hupper : (r : ℝ) ≤ (c : ℤ) :=
      hnearest.le_intCast (by omega) (by exact_mod_cast habove)
    exact_mod_cast hupper
  have hlower : (c : ℚ) - 1 < r := by
    have hstep : 6 * (c - 1) + 1 ≤ n := by
      have hstep : (6 * (c - 1) : ℚ) < n := by linarith
      exact_mod_cast hstep
    have hstep : (6 * (c - 1) + 1 : ℝ) ≤ n := by exact_mod_cast hstep
    have hbit : (2 : ℝ) ^ gridExponent ((n : ℝ) / 6) ≤ 2 ^ (-2 : ℤ) :=
      zpow_le_zpow_right₀ one_le_two hgrid
    have herror := (abs_le.1 hnearest.abs_sub_le).2
    norm_num at hbit
    have hlower : (c : ℝ) - 1 < r := by linarith
    exact_mod_cast hlower
  rw [ceil_eq, hc]
  exact Int.ceil_eq_iff.2 ⟨hlower, hupper⟩

end Quotient

namespace Catalogue

/-- The greatest stage of a vine is the nearest double of a sixth of the attractors, rounded up, but
at least four. -/
theorem vineStages_eq_ok_iff {attractorCount greatest : Int} :
    vineStages attractorCount = .ok greatest ↔
      ∃ q, Quotient.nearestDouble (attractorCount / 6) = some q ∧ max 4 q.ceil = greatest := by
  unfold vineStages
  cases Quotient.nearestDouble (attractorCount / 6) <;> simp

/-- For numbers of attractors that doubles hold exactly, the greatest stage is the exact sixth,
rounded up, but at least four. -/
theorem vineStages_of_le {attractorCount : Int} (hlow : -2 ^ 53 ≤ attractorCount)
    (hhigh : attractorCount ≤ 2 ^ 53) :
    vineStages attractorCount = .ok (max 4 ⌈(attractorCount : ℚ) / 6⌉) := by
  obtain ⟨q, hq⟩ : ∃ q, Quotient.nearestDouble ((attractorCount : ℚ) / 6) = some q := by
    have hlow : (-2 ^ 53 : ℚ) ≤ attractorCount := by exact_mod_cast hlow
    have hhigh : (attractorCount : ℚ) ≤ 2 ^ 53 := by exact_mod_cast hhigh
    have hsmall : |(attractorCount : ℚ) / 6| ≤ 2 ^ 53 := by
      rw [abs_le]
      constructor <;> linarith
    exact Quotient.exists_nearestDouble (hsmall.trans (pow_le_pow_right₀ one_le_two (by norm_num)))
  exact vineStages_eq_ok_iff.2 ⟨q, hq, by rw [Quotient.ceil_of_nearestDouble hlow hhigh hq]⟩

/-- More attractors do not make fewer stages. -/
theorem vineStages_mono {n m greatest greatest' : Int} (hnm : n ≤ m)
    (h : vineStages n = .ok greatest) (h' : vineStages m = .ok greatest') : greatest ≤ greatest' := by
  obtain ⟨q, hq, rfl⟩ := vineStages_eq_ok_iff.1 h
  obtain ⟨q', hq', rfl⟩ := vineStages_eq_ok_iff.1 h'
  have hquotient : (((n : ℚ) / 6 : ℚ) : ℝ) ≤ ((m : ℚ) / 6 : ℚ) := by
    push_cast
    exact div_le_div_of_nonneg_right (Int.cast_le.2 hnm) (by norm_num)
  have hle : (q : ℝ) ≤ q' :=
    (Quotient.isNearest_of_nearestDouble hq).mono (Quotient.isNearest_of_nearestDouble hq') hquotient
  rw [Quotient.ceil_eq, Quotient.ceil_eq]
  exact max_le_max le_rfl (Int.ceil_mono (by exact_mod_cast hle))

variable {α : Type} [Scalar α]

/-- The greatest stage of a vine is decided by the number of its attractors. -/
theorem greatestStage_of_colonization {catalogue : Catalogue α} {species : Species}
    {preset : ColonizationPreset α} (h : catalogue species = .colonization preset) :
    catalogue.greatestStage species = vineStages preset.attractorCount := by
  rw [greatestStage, h]

end Catalogue

/-- The stages of a vine are exact. A species that grows toward attractors, of which its preset counts
between `-2 ^ 53` and `2 ^ 53`, has one stage for each six, rounded up in exact arithmetic, and at least
four, although the quotient is rounded to a double first. Of any two such species with a greatest stage,
of whatever numbers of attractors, the one with more of them does not have fewer stages. -/
theorem vine_stages_are_exact {α : Type} [Scalar α] :
    (∀ (catalogue : Catalogue α) (species : Species) (preset : ColonizationPreset α),
      catalogue species = .colonization preset →
      -2 ^ 53 ≤ preset.attractorCount → preset.attractorCount ≤ 2 ^ 53 →
        catalogue.greatestStage species = .ok (max 4 ⌈(preset.attractorCount : ℚ) / 6⌉)) ∧
    (∀ (catalogue catalogue' : Catalogue α) (species species' : Species)
      (preset preset' : ColonizationPreset α) (greatest greatest' : Int),
      catalogue species = .colonization preset → catalogue' species' = .colonization preset' →
      preset.attractorCount ≤ preset'.attractorCount →
      catalogue.greatestStage species = .ok greatest →
      catalogue'.greatestStage species' = .ok greatest' → greatest ≤ greatest') := by
  refine ⟨?_, ?_⟩
  · intro catalogue species preset hpreset hlow hhigh
    rw [Catalogue.greatestStage_of_colonization hpreset]
    exact Catalogue.vineStages_of_le hlow hhigh
  · intro catalogue catalogue' species species' preset preset' greatest greatest' hpreset hpreset' hle
      h h'
    rw [Catalogue.greatestStage_of_colonization hpreset] at h
    rw [Catalogue.greatestStage_of_colonization hpreset'] at h'
    exact Catalogue.vineStages_mono hle h h'

/-- The radii of the built-in vine are in order. -/
theorem Species.radii_in_order_vine : ¬ (1.8 : Float) ≤ 0.4 := by decide

/-- The built-in vine with another number of attractors. -/
def Species.vineOf (attractorCount : Int) : ColonizationPreset Float :=
  { vinePreset radii_in_order_vine with attractorCount := attractorCount }

/-- The last attractor of `2 ^ 53 - 1` makes a stage. That of `3 * 2 ^ 52 + 1` should make one too, but it
is lost to the rounding of the quotient; there are not fewer stages than without it. -/
theorem vine_stages_are_exact_crowded :
    (Catalogue.builtIn.replace .vine (.colonization (Species.vineOf (2 ^ 53 - 1)))).greatestStage
      .vine = .ok 1501199875790166 ∧
    ∃ greatest greatest',
      (Catalogue.builtIn.replace .vine (.colonization (Species.vineOf (3 * 2 ^ 52)))).greatestStage
        .vine = .ok greatest ∧
      (Catalogue.builtIn.replace .vine (.colonization (Species.vineOf (3 * 2 ^ 52 + 1)))).greatestStage
        .vine = .ok greatest' ∧
      greatest ≤ greatest' ∧ greatest' < ⌈((3 * 2 ^ 52 + 1 : ℤ) : ℚ) / 6⌉ := by
  obtain ⟨hexact, hmono⟩ := vine_stages_are_exact (α := Float)
  have hentry (n : Int) : Catalogue.builtIn.replace .vine (.colonization (Species.vineOf n)) .vine =
      .colonization (Species.vineOf n) := Catalogue.replace_self _ _ _
  have hfull : Catalogue.vineStages (3 * 2 ^ 52) = .ok (2 ^ 51) :=
    Catalogue.vineStages_eq_ok_iff.2 ⟨2 ^ 51, by decide +kernel, by decide +kernel⟩
  have hmore : Catalogue.vineStages (3 * 2 ^ 52 + 1) = .ok (2 ^ 51) :=
    Catalogue.vineStages_eq_ok_iff.2 ⟨2 ^ 51, by decide +kernel, by decide +kernel⟩
  have hfull' := (Catalogue.greatestStage_of_colonization (hentry (3 * 2 ^ 52))).trans hfull
  have hmore' := (Catalogue.greatestStage_of_colonization (hentry (3 * 2 ^ 52 + 1))).trans hmore
  refine ⟨?_, 2 ^ 51, 2 ^ 51, hfull', hmore', ?_, ?_⟩
  · have hstages := hexact _ _ _ (hentry (2 ^ 53 - 1)) (by decide) (by decide)
    have hceil : max 4 ⌈((2 ^ 53 - 1 : ℤ) : ℚ) / 6⌉ = 1501199875790166 := by
      norm_num
    exact hstages.trans (congrArg Except.ok hceil)
  · exact hmono _ _ _ _ _ _ _ _ (hentry (3 * 2 ^ 52)) (hentry (3 * 2 ^ 52 + 1)) (by decide) hfull' hmore'
  · norm_num

end PlantGrowth
