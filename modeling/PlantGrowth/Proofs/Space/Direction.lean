import PlantGrowth.Proofs.Scalar.Extended
import PlantGrowth.Proofs.Scalar.Square
import PlantGrowth.Space.Vec3

/-!
# Directions in doubles

The direction along a vector of doubles exists if the coordinates are not too large. Between two points
of a finite distance it exists without a bound on the points, and its coordinates are at most two: no
coordinate is much longer than the length that it is divided by, also where squares vanish.

A distance adds products and a length adds second powers, which may be rounded otherwise. So the length
of a vector between points of a finite distance can be infinite; the direction is zero there.
-/

set_option autoImplicit false

namespace PlantGrowth

namespace Double

open Float.Model Float.Model.UnpackedFloat

/-! ## Infinite lengths -/

section Infinite

variable {x y : Float} {p : ℝ}

/-- The root of an infinite number is infinite, and one over it is zero. -/
theorem extended_sqrt_eq_top (h : extended? x = some ⊤) : extended? (Scalar.sqrt x) = some ⊤ := by
  show extendedOf (Float.Model.pack (UnpackedFloat.sqrt Format.binary64
    x.toModel.unpack)).unpack = some ⊤
  rw [eq_of_extendedOf_eq_top h]
  rfl

/-- One divided by infinity is zero. -/
theorem value_one_div_of_top (h : extended? x = some ⊤) : value? (1 / x) = some 0 := by
  have hone : (1 : Float).toModel.unpack = .finite .positive (2 ^ 52) (-52) (by decide) := rfl
  show valueOf (Float.Model.pack (UnpackedFloat.div Format.binary64 (1 : Float).toModel.unpack
    x.toModel.unpack)).unpack = some 0
  rw [eq_of_extendedOf_eq_top h, hone]
  rfl

/-- An infinite number stays infinite when a value is added. -/
theorem extended_top_add (h : extended? x = some ⊤) (hp : value? y = some p) :
    extended? (x + y) = some ⊤ := by
  have hsum : UnpackedFloat.add Format.binary64 (.infinity .positive) y.toModel.unpack =
      .infinity .positive := by
    rcases eq_of_valueOf_eq_some hp with ⟨s, hy, -⟩ | ⟨s, m, e, hm, hy, -⟩ <;> rw [hy] <;> rfl
  show extendedOf (Float.Model.pack (UnpackedFloat.add Format.binary64 x.toModel.unpack
    y.toModel.unpack)).unpack = some ⊤
  rw [eq_of_extendedOf_eq_top h, hsum, unpack_pack_infinity]
  rfl

/-- An infinite number is not zero. -/
theorem ne_zero_of_top (h : extended? x = some ⊤) : ¬ (x == 0) = true := by
  have hbeq : (x == 0) = UnpackedFloat.beq x.toModel.unpack (0 : Float).toModel.unpack := rfl
  rw [hbeq, eq_of_extendedOf_eq_top h]
  exact Bool.false_ne_true

end Infinite

/-! ## Coordinates and lengths -/

/-- The square of a double exists, and a power of two that the double reaches has a square that the
bound reaches. -/
inductive SquareBelow (bound : ℝ) (c : Float) : Prop
  | intro (v : ℝ) (hv : value? c = some v) (hsquare : Scalar.square c = .ok (Scalar.squared c))
      (hle : ∀ a : ℤ, -537 ≤ a → 2 ^ a ≤ |v| → 2 ^ (a + a) ≤ bound)

/-- A coordinate whose square is bounded has a square. -/
theorem SquareBelow.square {s : ℝ} {c : Float} (h : SquareBelow s c) :
    Scalar.square c = .ok (Scalar.squared c) := by
  obtain ⟨v, -, hsquare, -⟩ := h
  exact hsquare

/-- A coordinate whose square is bounded has a value. -/
theorem SquareBelow.exists_value {s : ℝ} {c : Float} (h : SquareBelow s c) :
    ∃ v, value? c = some v := by
  obtain ⟨v, hv, -, -⟩ := h
  exact ⟨v, hv⟩

/-- A bound of a square may be replaced by one that reaches the same powers of two. -/
theorem SquareBelow.mono {s t : ℝ} {c : Float} (h : SquareBelow s c)
    (hst : ∀ k : ℤ, -1074 ≤ k → 2 ^ k ≤ s → 2 ^ k ≤ t) : SquareBelow t c := by
  obtain ⟨v, hv, hsquare, hle⟩ := h
  exact ⟨v, hv, hsquare, fun a ha hva => hst (a + a) (by omega) (hle a ha hva)⟩

/-- Where the product of a double with itself has a value, so has its second power, which bounds the
double. -/
theorem squareBelow_of_value {c : Float} {s : ℝ} (h : value? (c * c) = some s) :
    ∃ p, value? (Scalar.squared c) = some p ∧ 0 ≤ p ∧ SquareBelow p c := by
  obtain ⟨v, _, hv, -⟩ := exists_values_of_mul h
  obtain ⟨p, hp, hrounds⟩ := exists_value_squared hv h
  have hnonneg : 0 ≤ p := hrounds.nonneg (mul_self_nonneg v)
  refine ⟨p, hp, hnonneg, v, hv, square_of_not_isInfinite (isInfinite_of_value h), fun a ha hva => ?_⟩
  have hle : (2 : ℝ) ^ (a + a) ≤ |v * v| := by
    rw [zpow_add₀ two_ne_zero, abs_mul]
    exact mul_le_mul hva hva (zpow_pos two_pos a).le (abs_nonneg v)
  have hle := hrounds.le_abs (a + a) (by omega) hle
  rwa [abs_of_nonneg hnonneg] at hle

/-- A sum of doubles that are not negative is not negative, and reaches every power of two that one
of them reaches. -/
theorem nonneg_of_add {a b : Float} {p q r : ℝ} (hp : value? a = some p) (hq : value? b = some q)
    (hp0 : 0 ≤ p) (hq0 : 0 ≤ q) (hr : value? (a + b) = some r) :
    0 ≤ r ∧ ∀ k : ℤ, -1074 ≤ k → 2 ^ k ≤ p ∨ 2 ^ k ≤ q → 2 ^ k ≤ r := by
  obtain ⟨hrounds, -⟩ := (isRounding_add hp hq).of_value hr
  have hsum : 0 ≤ p + q := add_nonneg hp0 hq0
  have hnonneg : 0 ≤ r := hrounds.nonneg hsum
  refine ⟨hnonneg, fun k hk hle => ?_⟩
  have hle : (2 : ℝ) ^ k ≤ |p + q| := by
    rw [abs_of_nonneg hsum]
    rcases hle with hle | hle
    · exact hle.trans (le_add_of_nonneg_right hq0)
    · exact hle.trans (le_add_of_nonneg_left hp0)
  have hle := hrounds.le_abs k hk hle
  rwa [abs_of_nonneg hnonneg] at hle

/-- A sum of numbers that are not below zero is not below either, or it is infinite. -/
theorem add_cases {a b : Float} {p q : ℝ} (hp : value? a = some p) (hq : value? b = some q)
    (hp0 : 0 ≤ p) (hq0 : 0 ≤ q) :
    (∃ r, value? (a + b) = some r ∧ 0 ≤ r ∧
      ∀ k : ℤ, -1074 ≤ k → 2 ^ k ≤ p ∨ 2 ^ k ≤ q → 2 ^ k ≤ r) ∨ extended? (a + b) = some ⊤ := by
  rcases (nearestDouble_add hp hq).value_or_top (add_nonneg hp0 hq0) with ⟨r, hr, -⟩ | htop
  · exact .inl ⟨r, hr, nonneg_of_add hp hq hp0 hq0 hr⟩
  · exact .inr htop

/-- The sum of the second powers of three doubles whose products have values: it is above each of them,
or it is infinite. -/
theorem squareBelow_of_products {x y z : Float} {xx yy zz : ℝ} (hx : value? (x * x) = some xx)
    (hy : value? (y * y) = some yy) (hz : value? (z * z) = some zz) :
    (∃ s, value? (Scalar.squared x + Scalar.squared y + Scalar.squared z) = some s ∧ 0 ≤ s ∧
      SquareBelow s x ∧ SquareBelow s y ∧ SquareBelow s z) ∨
    extended? (Scalar.squared x + Scalar.squared y + Scalar.squared z) = some ⊤ := by
  obtain ⟨p, hp, hp0, hx⟩ := squareBelow_of_value hx
  obtain ⟨q, hq, hq0, hy⟩ := squareBelow_of_value hy
  obtain ⟨r, hr, hr0, hz⟩ := squareBelow_of_value hz
  rcases add_cases hp hq hp0 hq0 with ⟨pq, hpq, hpq0, hpqle⟩ | htop
  · rcases add_cases hpq hr hpq0 hr0 with ⟨s, hs, hs0, hsle⟩ | htop
    · refine .inl ⟨s, hs, hs0, hx.mono ?_, hy.mono ?_, hz.mono ?_⟩
      · exact fun k hk hle => hsle k hk (.inl (hpqle k hk (.inl hle)))
      · exact fun k hk hle => hsle k hk (.inl (hpqle k hk (.inr hle)))
      · exact fun k hk hle => hsle k hk (.inr hle)
    · exact .inr htop
  · exact .inr (extended_top_add htop hr)

/-- The root of a sum that has a value has one. -/
theorem exists_value_sqrt {x : Float} {s : ℝ} (h : value? x = some s) (hs : 0 ≤ s) :
    s < 2 ^ (1024 : ℤ) ∧ ∃ μ, value? (Scalar.sqrt x) = some μ ∧ RoundsTo (√s) μ := by
  have hlt : s < 2 ^ (1024 : ℤ) := (le_abs_self s).trans_lt (abs_lt_of_value h)
  have hroot : |√s| ≤ 2 ^ (512 : ℤ) := by
    rw [abs_of_nonneg (Real.sqrt_nonneg s), Real.sqrt_le_left (zpow_pos two_pos 512).le, sq,
      ← zpow_add₀ two_ne_zero]
    exact hlt.le
  exact ⟨hlt, (isRounding_sqrt h hs).exists_value (by norm_num) (by norm_num) hroot⟩

/-- The size of a coordinate, up to a factor of two. Squares of coordinates below `2 ^ -537` may
vanish. -/
theorem SquareBelow.exists_exponent {s : ℝ} {c : Float} (h : SquareBelow s c)
    (hs : 2 ^ (-1074 : ℤ) ≤ s) (hlt : s < 2 ^ (1024 : ℤ)) :
    ∃ a : ℤ, -537 ≤ a ∧ a < 512 ∧ Within (a + 1) c ∧ 2 ^ (a + a) ≤ s := by
  obtain ⟨v, hv, -, hle⟩ := h
  have hsmall {a : ℤ} (ha : (2 : ℝ) ^ (a + a) ≤ s) : a < 512 := by
    have := (zpow_lt_zpow_iff_right₀ one_lt_two).1 (ha.trans_lt hlt)
    omega
  by_cases hvanish : |v| < 2 ^ (-537 : ℤ)
  · refine ⟨-537, le_rfl, by norm_num, ⟨v, hv, ?_⟩, hs⟩
    exact hvanish.le.trans (zpow_le_zpow_right₀ one_le_two (by norm_num))
  · have hpos : 0 < |v| := (zpow_pos two_pos (-537)).trans_le (not_lt.1 hvanish)
    have hlow : (2 : ℝ) ^ Int.log 2 |v| ≤ |v| := Int.zpow_log_le_self one_lt_two hpos
    have hhigh : |v| < (2 : ℝ) ^ (Int.log 2 |v| + 1) := Int.lt_zpow_succ_log_self one_lt_two |v|
    have hlog : -537 ≤ Int.log 2 |v| := by
      have := (zpow_lt_zpow_iff_right₀ one_lt_two).1 ((not_lt.1 hvanish).trans_lt hhigh)
      omega
    have hsquare := hle (Int.log 2 |v|) hlog hlow
    exact ⟨_, hlog, hsmall hsquare, ⟨v, hv, hhigh.le⟩, hsquare⟩

/-- A root reaches a power of two where the number reaches its square. -/
theorem two_zpow_le_sqrt {s : ℝ} {a : ℤ} (h : 2 ^ (a + a) ≤ s) : (2 : ℝ) ^ a ≤ √s := by
  refine Real.le_sqrt_of_sq_le ?_
  rw [sq, ← zpow_add₀ two_ne_zero]
  exact h

/-- A coordinate divided by the rounded root of a finite sum that covers its square. -/
theorem SquareBelow.within_div {s μ : ℝ} {c m : Float} (h : SquareBelow s c)
    (hs : 2 ^ (-1074 : ℤ) ≤ s) (hlt : s < 2 ^ (1024 : ℤ)) (hm : value? m = some μ)
    (hroot : RoundsTo (√s) μ) : Within 1 (c * (1 / m)) := by
  obtain ⟨a, ha, ha', hc, hle⟩ := h.exists_exponent hs hlt
  have hpow : (0 : ℝ) < 2 ^ a := zpow_pos two_pos a
  have hreach : (2 : ℝ) ^ a ≤ |√s| := (two_zpow_le_sqrt hle).trans (le_abs_self _)
  have hμ : 2 ^ a ≤ |μ| := hroot.le_abs a (by omega) hreach
  have hne : μ ≠ 0 := abs_pos.1 (hpow.trans_le hμ)
  have hinverse : |1 / μ| ≤ 2 ^ (-a) := by
    rw [abs_div, abs_one, zpow_neg, one_div]
    exact inv_anti₀ hpow hμ
  have hweight : Within (-a) (1 / m) :=
    (isRounding_div value_one hm hne).within (by omega) (by omega) hinverse
  have hproduct := hc.mul hweight (by omega) (by omega)
  have hexponent : a + 1 + -a = 1 := by omega
  rwa [hexponent] at hproduct

/-- A coordinate whose square is covered by a sum without a root is small. -/
theorem SquareBelow.within_of_root_eq_zero {s : ℝ} {c : Float} (h : SquareBelow s c)
    (hroot : RoundsTo (√s) 0) : Within 1 c := by
  obtain ⟨v, hv, -, hle⟩ := h
  refine ⟨v, hv, ?_⟩
  by_contra hlarge
  have hreach := two_zpow_le_sqrt (hle 1 (by norm_num) (not_le.1 hlarge).le)
  have hzero := hroot.le_abs 1 (by norm_num) (hreach.trans (le_abs_self _))
  rw [abs_zero] at hzero
  exact absurd hzero (not_le.2 (zpow_pos two_pos 1))

end Double

namespace Vec3

open Double

/-- Every coordinate has a value of at most this power of two. -/
structure Within (k : ℤ) (v : Vec3 Float) : Prop where
  x : Double.Within k v.x
  y : Double.Within k v.y
  z : Double.Within k v.z

/-- A greater bound of the coordinates holds, too. -/
theorem Within.mono {j k : ℤ} (hjk : j ≤ k) {v : Vec3 Float} (h : v.Within j) : v.Within k :=
  ⟨h.x.mono hjk, h.y.mono hjk, h.z.mono hjk⟩

/-- A sum of points within a bound is within the double of the bound. -/
theorem Within.add {k : ℤ} {v w : Vec3 Float} (hv : v.Within k) (hw : w.Within k)
    (hleast : -1074 ≤ k) (hk : k < 1023) : (v + w).Within (k + 1) :=
  ⟨hv.x.add hw.x hleast hk, hv.y.add hw.y hleast hk, hv.z.add hw.z hleast hk⟩

/-- The sum of the second powers of the coordinates, whose root is the length. -/
def lengthSq (v : Vec3 Float) : Float :=
  Scalar.squared v.x + Scalar.squared v.y + Scalar.squared v.z

/-- The squares of the coordinates exist. -/
structure HasSquares (v : Vec3 Float) : Prop where
  x : Scalar.square v.x = .ok (Scalar.squared v.x)
  y : Scalar.square v.y = .ok (Scalar.squared v.y)
  z : Scalar.square v.z = .ok (Scalar.squared v.z)

/-- The length of a vector is the root of its square, if the squares of its coordinates exist. -/
theorem HasSquares.length_eq {v : Vec3 Float} (h : v.HasSquares) :
    v.length = .ok (Scalar.sqrt v.lengthSq) := by
  rw [length, h.x, h.y, h.z]
  rfl

/-- A vector is divided by its length, if the squares of its coordinates exist and it has one. -/
theorem HasSquares.normalize_eq {v : Vec3 Float} (h : v.HasSquares) :
    v.normalize = .ok (if Scalar.sqrt v.lengthSq == 0 then v
      else v.scale (1 / Scalar.sqrt v.lengthSq)) := by
  rw [normalize, h.length_eq]
  rfl

/-- A vector that is not too large has a direction. -/
theorem Within.exists_normalize {k : ℤ} {v : Vec3 Float} (h : v.Within k) (hleast : -1074 ≤ k + k)
    (hk : k + k < 1024) : ∃ direction, v.normalize = .ok direction := by
  have hsquares : v.HasSquares :=
    ⟨h.x.square hleast hk, h.y.square hleast hk, h.z.square hleast hk⟩
  exact ⟨_, hsquares.normalize_eq⟩

/-! ## Directions that are safe to take -/

/-- The direction along the vector is found without an overflow and without a division by zero: the
length is a number, and either it is zero and the vector is kept, or it is above zero and divides. The
coordinates of the direction are at most two. -/
def IsSafe (v : Vec3 Float) : Prop :=
  ∃ magnitude direction, v.length = .ok magnitude ∧ v.normalize = .ok direction ∧
    Scalar.isNaN magnitude = false ∧ direction.Within 1 ∧
    ((magnitude == 0) = true ∧ direction = v ∨
      0 < magnitude ∧ direction = v.scale (1 / magnitude))

/-- A vector whose square has a value that bounds the coordinates is safe. -/
theorem isSafe_of_value {v : Vec3 Float} (hsquares : v.HasSquares) {s : ℝ}
    (hs : value? v.lengthSq = some s) (hs0 : 0 ≤ s) (hx : SquareBelow s v.x)
    (hy : SquareBelow s v.y) (hz : SquareBelow s v.z) : v.IsSafe := by
  obtain ⟨hlt, μ, hμ, hrounds⟩ := exists_value_sqrt hs hs0
  have hnormalize := hsquares.normalize_eq
  have hdecide : (Scalar.sqrt v.lengthSq == 0) = true ↔ μ = 0 := beq_iff_of_values hμ rfl
  by_cases hzero : μ = 0
  · rw [if_pos (hdecide.2 hzero)] at hnormalize
    subst hzero
    exact ⟨_, v, hsquares.length_eq, hnormalize, isNaN_of_value hμ,
      ⟨hx.within_of_root_eq_zero hrounds, hy.within_of_root_eq_zero hrounds,
        hz.within_of_root_eq_zero hrounds⟩, .inl ⟨hdecide.2 rfl, rfl⟩⟩
  · have hpos : 0 < μ :=
      lt_of_le_of_ne (hrounds.nonneg (Real.sqrt_nonneg s)) fun heq => hzero heq.symm
    have hne : s ≠ 0 := by
      rintro rfl
      rw [Real.sqrt_zero] at hrounds
      exact hpos.not_ge (hrounds.nonpos le_rfl)
    have hleast : 2 ^ (-1074 : ℤ) ≤ s := by
      have := le_abs_of_value hs hne
      rwa [abs_of_nonneg hs0] at this
    rw [if_neg (fun h => hzero (hdecide.1 h))] at hnormalize
    exact ⟨_, _, hsquares.length_eq, hnormalize, isNaN_of_value hμ,
      ⟨hx.within_div hleast hlt hμ hrounds, hy.within_div hleast hlt hμ hrounds,
        hz.within_div hleast hlt hμ hrounds⟩, .inr ⟨(lt_iff_of_values rfl hμ).2 hpos, rfl⟩⟩

/-- A length that is infinite makes the direction zero. -/
theorem isSafe_of_top {v : Vec3 Float} (hsquares : v.HasSquares)
    (htop : extended? v.lengthSq = some ⊤) {a b c : ℝ} (hx : value? v.x = some a)
    (hy : value? v.y = some b) (hz : value? v.z = some c) : v.IsSafe := by
  have hroot := extended_sqrt_eq_top htop
  have hpos : 0 < Scalar.sqrt v.lengthSq := (lt_iff_of_extended (extended_of_value rfl) hroot).2
    (EReal.coe_lt_top 0)
  have hnormalize := hsquares.normalize_eq
  rw [if_neg (ne_zero_of_top hroot)] at hnormalize
  have hvanish {d : Float} {r : ℝ} (hd : value? d = some r) :
      Double.Within 1 (d * (1 / Scalar.sqrt v.lengthSq)) := by
    refine (isRounding_mul hd (value_one_div_of_top hroot)).within (by norm_num) (by norm_num) ?_
    rw [mul_zero, abs_zero]
    exact (zpow_pos two_pos 1).le
  exact ⟨_, _, hsquares.length_eq, hnormalize, isNaN_of_extended hroot,
    ⟨hvanish hx, hvanish hy, hvanish hz⟩, .inr ⟨hpos, rfl⟩⟩

/-- Between points of a finite distance there is a direction that is safe to take. -/
theorem isSafe_sub {a b : Vec3 Float} (h : Scalar.isFinite (a.distanceSq b) = true) :
    (a - b).IsSafe := by
  obtain ⟨s, hs⟩ := exists_value_of_isFinite h
  let d := a - b
  change value? (d.x * d.x + d.y * d.y + d.z * d.z) = some s at hs
  obtain ⟨xy, zz, hxy, hzz⟩ := exists_values_of_add hs
  obtain ⟨xx, yy, hxx, hyy⟩ := exists_values_of_add hxy
  obtain ⟨_, -, -, hx⟩ := squareBelow_of_value hxx
  obtain ⟨_, -, -, hy⟩ := squareBelow_of_value hyy
  obtain ⟨_, -, -, hz⟩ := squareBelow_of_value hzz
  have hsquares : d.HasSquares := ⟨hx.square, hy.square, hz.square⟩
  rcases squareBelow_of_products hxx hyy hzz with ⟨t, ht, ht0, htx, hty, htz⟩ | htop
  · exact isSafe_of_value hsquares ht ht0 htx hty htz
  · obtain ⟨_, hx⟩ := hx.exists_value
    obtain ⟨_, hy⟩ := hy.exists_value
    obtain ⟨_, hz⟩ := hz.exists_value
    exact isSafe_of_top hsquares htop hx hy hz

/-- Between points of a finite distance there is a direction, and its coordinates are at most two. -/
theorem exists_normalize_sub {a b : Vec3 Float} (h : Scalar.isFinite (a.distanceSq b) = true) :
    ∃ direction, (a - b).normalize = .ok direction ∧ direction.Within 1 := by
  obtain ⟨_, direction, -, hnormalize, -, hwithin, -⟩ := isSafe_sub h
  exact ⟨direction, hnormalize, hwithin⟩

end Vec3

end PlantGrowth
