import PlantGrowth.Proofs.Space.Direction
import PlantGrowth.Proofs.Vine.Dressing
import PlantGrowth.Proofs.Vine.Stem

/-!
# Vines that grow without a fault

No vine in doubles of at most five hundred attractors meets a fault, if the squares of its radii exist
and its draws are granted and at most one (`exists_run_grow`). Its attractors may lie anywhere: only one
at a finite distance pulls, and its pull has coordinates of at most two, so the square of a sum of pulls
exists.
-/

set_option autoImplicit false

namespace PlantGrowth

/-- A source that refuses no draw, and whose draws are doubles of at most one. -/
def Source.WithinOne (s : Source Float) : Prop := ∀ n, ∃ u, s n = .ok u ∧ Double.Within 0 u

/-- A source of draws that are at most one refuses none. -/
theorem Source.WithinOne.grants {s : Source Float} (h : s.WithinOne) : s.Grants := by
  intro n
  obtain ⟨u, hu, -⟩ := h n
  exact ⟨u, hu⟩

/-! ## The scattering of attractors -/

namespace Attractor

/-- Draws of at most one scatter an attractor. -/
theorem run_scatterOne_withinOne {s : Source Float} (hs : s.WithinOne) (i : Nat) :
    ∃ attractor, scatterOne.run s i = (.ok attractor, i + 3) := by
  obtain ⟨u, hu, hangle⟩ := hs i
  obtain ⟨v, hv, -⟩ := hs (i + 1)
  obtain ⟨w, hw, -⟩ := hs (i + 2)
  have htwo : Double.Within 2 2.0 := by
    have hunpack : (2.0 : Float).toModel.unpack = .finite .positive (2 ^ 52) (-51) (by decide) := rfl
    exact Double.within_of_unpack hunpack
  have hfinite : Scalar.isInfinite (u * Scalar.pi * 2.0) = false :=
    ((hangle.mul Double.within_pi (by norm_num) (by norm_num)).mul htwo (by norm_num) (by norm_num)).isInfinite
  have hcos : Scalar.cosine (u * Scalar.pi * 2.0) = .ok (Scalar.cos (u * Scalar.pi * 2.0)) := by
    rw [Scalar.cosine, hfinite]
    rfl
  have hsin : Scalar.sine (u * Scalar.pi * 2.0) = .ok (Scalar.sin (u * Scalar.pi * 2.0)) := by
    rw [Scalar.sine, hfinite]
    rfl
  have hplace (distance height : Float) :
      ∃ attractor, place (u * Scalar.pi * 2.0) distance height = .ok attractor := by
    rw [place, hcos, hsin]
    exact ⟨_, rfl⟩
  obtain ⟨attractor, hattractor⟩ := hplace (1.5 + v * 2.5) (1.0 + w * 5.0)
  refine ⟨attractor, ?_⟩
  simp only [scatterOne, Drawing.run_bind, Drawing.run_draw, hu, hv, hw, Drawing.run_ofExcept]
  exact congrArg (fun outcome => (outcome, i + 3)) hattractor

/-- Draws of at most one scatter as many attractors as there are. -/
theorem run_scatter_withinOne {s : Source Float} (hs : s.WithinOne) (count i : Nat) :
    ∃ attractors, (scatter count).run s i = (.ok attractors, i + 3 * count) ∧
      attractors.length = count := by
  have hone (i : Nat) : ∃ attractor, scatterOne.run s i = (.ok attractor, i + 3) ∧ True := by
    obtain ⟨attractor, hrun⟩ := run_scatterOne_withinOne hs i
    exact ⟨attractor, hrun, trivial⟩
  obtain ⟨attractors, hrun, hlength, -⟩ := run_scatter_of_scatterOne hone count i
  exact ⟨attractors, hrun, hlength⟩

end Attractor

/-! ## Rounds without a fault -/

/-- The pulls on a point exist, wherever the point and the attractors are. -/
theorem Reach.exists_unitPulls (reach : Reach Float) (point : Vec3 Float)
    (attractors : List (Vec3 Float)) :
    ∃ pulls, reach.unitPulls point attractors = .ok pulls ∧
      pulls.length ≤ attractors.length ∧ ∀ pull ∈ pulls, pull.Within 1 := by
  induction attractors with
  | nil => exact ⟨[], rfl, le_rfl, by simp⟩
  | cons attractor others ih =>
    obtain ⟨pulls, hpulls, hlength, hall⟩ := ih
    by_cases hsteers : reach.steers point attractor = true
    · have hfinite : Scalar.isFinite (attractor.distanceSq point) = true := by
        rw [Reach.steers, Bool.and_eq_true] at hsteers
        exact hsteers.2
      obtain ⟨pull, hpull, hwithin⟩ := Vec3.exists_normalize_sub hfinite
      refine ⟨pull :: pulls, ?_, ?_, ?_⟩
      · rw [Reach.unitPulls_cons_of_steers hsteers, hpull, hpulls]
        rfl
      · rw [List.length_cons, List.length_cons]
        omega
      · intro other hother
        rcases List.mem_cons.1 hother with rfl | hother
        · exact hwithin
        · exact hall other hother
    · refine ⟨pulls, ?_, ?_, hall⟩
      · rw [Reach.unitPulls_cons_of_not_steers hsteers, hpulls]
      · rw [List.length_cons]
        omega

/-- Each pull at most doubles the bound of the sum. -/
theorem Vec3.Within.foldl_add {k : ℤ} (hk : 1 ≤ k) {sum : Vec3 Float} (hsum : sum.Within k)
    {pulls : List (Vec3 Float)} (hpulls : ∀ pull ∈ pulls, pull.Within 1)
    (hlength : k + pulls.length < 1024) : (pulls.foldl (· + ·) sum).Within (k + pulls.length) := by
  induction pulls generalizing k sum with
  | nil =>
    rw [List.length_nil, Nat.cast_zero, add_zero]
    exact hsum
  | cons pull others ih =>
    rw [List.length_cons, Nat.cast_succ] at hlength ⊢
    have hpull := (hpulls pull (List.mem_cons_self ..)).mono hk
    have hothers := ih (k := k + 1) (by omega) (hsum.add hpull (by omega) (by omega))
      (fun other hother => hpulls other (List.mem_cons_of_mem _ hother)) (by omega)
    have hexponent : k + 1 + others.length = k + (others.length + 1) := by omega
    rw [hexponent] at hothers
    exact hothers

namespace ColonizationPreset

/-- A pull that is not too large grows a node. -/
theorem exists_sprout (preset : ColonizationPreset Float) (tip : Node Float) {pull : Vec3 Float}
    {k : ℤ} (hpull : pull.Within k) (hleast : -1074 ≤ k + k) (hk : k + k < 1024) :
    ∃ new, preset.sprout tip pull = .ok new := by
  obtain ⟨direction, hdirection⟩ := hpull.exists_normalize hleast hk
  rw [sprout, hdirection]
  exact ⟨_, rfl⟩

/-- A stem grows without a fault. The attractors become fewer from step to step. -/
theorem fault_stem_eq_none (preset : ColonizationPreset Float) (reach : Reach Float) (steps : Nat)
    (tip : Node Float) {attractors : List (Vec3 Float)} (hfew : attractors.length ≤ 500) :
    (preset.stem reach steps tip attractors).fault = none := by
  induction steps generalizing tip attractors with
  | zero => rfl
  | succ steps ih =>
    obtain ⟨pulls, hpulls, hlength, hall⟩ := reach.exists_unitPulls tip.position attractors
    rw [stem, hpulls]
    cases pulls with
    | nil => rfl
    | cons pull others =>
      have horigin : (Vec3.origin : Vec3 Float).Within 1 :=
        ⟨Double.within_zero 1, Double.within_zero 1, Double.within_zero 1⟩
      have hsum := horigin.foldl_add le_rfl hall (by omega)
      obtain ⟨new, hnew⟩ := preset.exists_sprout tip hsum (by omega) (by omega)
      dsimp only
      rw [hnew]
      exact ih new ((List.length_filter_le _ _).trans hfew)

/-! ## The dressing -/

variable {α : Type} [Scalar α]

/-- A leaf fails only where a draw is refused. -/
theorem onlyRefuses_leafOf (preset : ColonizationPreset α) (segment : Segment α) :
    (preset.leafOf segment).OnlyRefuses := by
  refine Drawing.OnlyRefuses.draw.bind fun u => ?_
  split
  · refine Drawing.OnlyRefuses.bind ?_ fun leaf => .pure _
    exact (Drawing.OnlyRefuses.aroundZero _).bind fun x =>
      (Drawing.OnlyRefuses.aroundZero _).bind fun y =>
        (Drawing.OnlyRefuses.aroundZero _).bind fun z =>
          (Drawing.OnlyRefuses.rotation _).bind fun rotation =>
            Drawing.OnlyRefuses.draw.bind fun u => .pure _
  · exact .pure none

/-- A bloom fails only where a draw is refused. -/
theorem onlyRefuses_bloomsOf (segments : List (Segment α)) (color : String) :
    (bloomsOf segments color).OnlyRefuses := by
  rw [bloomsOf]
  split
  · exact .pure []
  · refine Drawing.OnlyRefuses.bind ?_ fun bloom => .pure _
    exact (Drawing.OnlyRefuses.rotation _).bind fun rotation =>
      Drawing.OnlyRefuses.draw.bind fun u => .pure _

/-- A trail that was not cut short is dressed with no fault but a refused draw. -/
theorem onlyRefuses_dress (preset : ColonizationPreset α) (color : String) {trail : Trail α}
    (hfault : trail.fault = none) : (preset.dress color trail).OnlyRefuses := by
  rw [dress]
  refine (Drawing.OnlyRefuses.mapM _ preset.onlyRefuses_leafOf).bind fun leaves => ?_
  rw [hfault]
  exact (onlyRefuses_bloomsOf _ color).bind fun blooms => .pure _

/-- Draws of at most one grow a vine. -/
theorem exists_run_grow {preset : ColonizationPreset Float} {reach : Reach Float}
    (hreach : preset.reach = .ok reach) (hfew : preset.attractorCount ≤ 500) (stage : Int)
    (color : String) {s : Source Float} (hs : s.WithinOne) (i : Nat) :
    ∃ plant j, (preset.grow stage color).run s i = (.ok plant, j) := by
  obtain ⟨attractors, hscatter, hlength⟩ :=
    Attractor.run_scatter_withinOne hs preset.attractorCount.toNat i
  have hfault := preset.fault_stem_eq_none reach (stepBudget (max 1 stage)).toNat preset.root
    (show attractors.length ≤ 500 by omega)
  rw [← trailAt_eq_stem] at hfault
  rw [grow, Drawing.run_bind_of_ok hscatter, growAmong_of_reach hreach]
  exact (preset.onlyRefuses_dress color hfault).exists_result hs.grants _

end ColonizationPreset

end PlantGrowth
