import PlantGrowth.Proofs.Scalar.Rounding

/-!
# Values of doubles

The value of a double is read off its bits (`value?`). Bits stand for canonical numbers only, and a
canonical number below `2 ^ 1024` is packed without a loss; a larger one becomes infinite.
-/

set_option autoImplicit false

namespace PlantGrowth.Double

open Float.Model Float.Model.UnpackedFloat

/-- The value of a double that is neither infinite nor undefined. -/
noncomputable def value? (x : Float) : Option ℝ := valueOf x.toModel.unpack

/-! ## Packing and unpacking -/

/-- The implicit bit in front adds its weight. -/
theorem toNat_implicit_append (mantissa : BitVec 52) :
    (1#1 ++ mantissa).toNat = 2 ^ 52 + mantissa.toNat := by
  rw [BitVec.toNat_append, ← Nat.shiftLeft_add_eq_or_of_lt mantissa.isLt]
  rfl

/-- The value of packed components, with or without the implicit bit. -/
theorem valueOf_unpack_packComponents (s : Sign) {exponent : BitVec 11} (hexponent : exponent ≠ -1#_)
    (mantissa : BitVec 52) :
    valueOf (UnpackedFloat.unpack Format.binary64
        (packComponents Format.binary64 s exponent mantissa)) =
      some (signed s (if exponent = 0#_ then mantissa.toNat * 2 ^ (-1074 : ℤ)
        else (2 ^ 52 + mantissa.toNat : ℕ) * 2 ^ (exponent.toNat - 1075 : ℤ))) := by
  rw [UnpackedFloat.unpack]
  simp only [unpackMantissa_packComponents, unpackExponent_packComponents,
    unpackSign_packComponents, Sign.ofBitVec_toBitVec, hexponent, if_false]
  by_cases hzero : exponent = 0#_
  · rw [if_pos hzero, if_pos hzero]
    by_cases hmantissa : mantissa = 0#_
    · subst hmantissa
      cases s <;> simp [valueOf, signed]
    · subst hzero
      rw [dif_neg hmantissa]
      exact valueOf_finite s (-1074) _
  · rw [if_neg hzero, if_neg hzero, valueOf_finite, toNat_implicit_append]
    rfl

/-- A canonical number is below `2 ^ 1024` exactly when its exponent fits. -/
theorem lt_two_zpow_iff {m : Nat} {e : ℤ} (hm : m < 2 ^ 53) (hfull : 2 ^ 52 ≤ m ∨ e = -1074) :
    (m : ℝ) * 2 ^ e < 2 ^ (1024 : ℤ) ↔ e ≤ 971 := by
  have hscale (k : ℤ) : (0 : ℝ) < 2 ^ k := zpow_pos two_pos k
  constructor
  · intro hlt
    by_contra hlarge
    have hfull : 2 ^ 52 ≤ m := hfull.resolve_right (by omega)
    have habove : (2 : ℝ) ^ (1024 : ℤ) ≤ m * 2 ^ e := by
      calc (2 : ℝ) ^ (1024 : ℤ) ≤ 2 ^ (52 + e) := zpow_le_zpow_right₀ one_le_two (by omega)
        _ = 2 ^ (52 : ℕ) * 2 ^ e := by rw [zpow_add₀ two_ne_zero]; rfl
        _ ≤ m * 2 ^ e := mul_le_mul_of_nonneg_right (by exact_mod_cast hfull) (hscale e).le
    exact absurd hlt (not_lt.2 habove)
  · intro hfits
    calc (m : ℝ) * 2 ^ e < 2 ^ (53 : ℕ) * 2 ^ e :=
          mul_lt_mul_of_pos_right (by exact_mod_cast hm) (hscale e)
      _ = 2 ^ (53 + e) := by rw [zpow_add₀ two_ne_zero]; rfl
      _ ≤ 2 ^ (1024 : ℤ) := zpow_le_zpow_right₀ one_le_two (by omega)

/-- A canonical number whose exponent fits keeps its value when it is packed. -/
theorem valueOf_unpack_pack_finite (s : Sign) {m : Nat} {e : ℤ} (hpos : 0 < m) (hm : m < 2 ^ 53)
    (hleast : -1074 ≤ e) (hfull : 2 ^ 52 ≤ m ∨ e = -1074) (hfits : e ≤ 971) :
    valueOf (Float.Model.pack (.finite s m e hpos)).unpack = some (signed s (m * 2 ^ e)) := by
  have hbiased : (e + Format.binary64.exponentBias + Format.binary64.mantissaBitsWithoutImplicit) =
      e + 1075 := by
    show e + 1023 + 52 = e + 1075
    omega
  have hexponent : ¬ 2 ^ 11 ≤ (e + 1075).toNat + 1 := by omega
  show valueOf (UnpackedFloat.unpack Format.binary64
    (UnpackedFloat.pack Format.binary64 (.finite s m e hpos))) = _
  rw [UnpackedFloat.pack, hbiased]
  dsimp only
  rw [if_neg hexponent]
  by_cases hnormal : 2 ^ 52 ≤ m
  · have hlog : m.log2 + 1 = Format.binary64.mantissaBits := by
      have hlog := (Nat.log2_eq_iff hpos.ne').2 ⟨hnormal, hm⟩
      rw [hlog]
      rfl
    have htoNat : (BitVec.ofNat 11 (e + 1075).toNat).toNat = (e + 1075).toNat := by
      rw [BitVec.toNat_ofNat]
      omega
    have hones : BitVec.ofNat 11 (e + 1075).toNat ≠ -1#_ := by
      intro h
      have h := congrArg BitVec.toNat h
      rw [htoNat] at h
      change (e + 1075).toNat = 2047 at h
      omega
    have hzeros : BitVec.ofNat 11 (e + 1075).toNat ≠ 0#_ := by
      intro h
      have h := congrArg BitVec.toNat h
      rw [htoNat] at h
      change (e + 1075).toNat = 0 at h
      omega
    have hmantissa : 2 ^ 52 + (BitVec.ofNat 52 m).toNat = m := by
      rw [BitVec.toNat_ofNat]
      omega
    rw [if_pos hlog]
    refine (valueOf_unpack_packComponents s hones _).trans ?_
    have hback : ((e + 1075).toNat : ℤ) - 1075 = e := by omega
    rw [if_neg hzeros, htoNat, hmantissa, hback]
  · have hlog : m.log2 + 1 ≠ Format.binary64.mantissaBits := by
      have hlog := (Nat.log2_lt hpos.ne').2 (not_le.1 hnormal)
      show m.log2 + 1 ≠ 53
      omega
    have hmantissa : (BitVec.ofNat 52 m).toNat = m := by
      rw [BitVec.toNat_ofNat]
      omega
    rw [if_neg hlog]
    refine (valueOf_unpack_packComponents s (by decide) _).trans ?_
    rw [if_pos rfl, hmantissa, hfull.resolve_left hnormal]

/-- A number whose exponent is too large becomes infinite when it is packed. -/
theorem unpack_pack_of_lt (s : Sign) {m : Nat} {e : ℤ} (hpos : 0 < m) (hlarge : 971 < e) :
    (Float.Model.pack (.finite s m e hpos)).unpack = .infinity s := by
  have hexponent : 2 ^ 11 ≤ (e + 1023 + 52).toNat + 1 := by omega
  show UnpackedFloat.unpack Format.binary64 (if 2 ^ 11 ≤ (e + 1023 + 52).toNat + 1
    then _ else _) = .infinity s
  rw [if_pos hexponent]
  cases s <;> rfl

/-- Packing keeps the value of a canonical number below `2 ^ 1024`, and makes a larger one infinite. -/
theorem valueOf_unpack_pack {u : UnpackedFloat} (hu : IsCanonical u) {r : ℝ}
    (hr : valueOf u = some r) :
    valueOf (Float.Model.pack u).unpack = if |r| < 2 ^ (1024 : ℤ) then some r else none := by
  rcases eq_of_valueOf_eq_some hr with ⟨s, rfl, rfl⟩ | ⟨s, m, e, hpos, rfl, rfl⟩
  · rw [abs_zero, if_pos (zpow_pos two_pos 1024)]
    cases s <;> rfl
  · obtain ⟨hm, hleast, hfull⟩ := hu
    rw [abs_signed_mul_zpow]
    by_cases hfits : e ≤ 971
    · rw [if_pos ((lt_two_zpow_iff hm hfull).2 hfits)]
      exact valueOf_unpack_pack_finite s hpos hm hleast hfull hfits
    · rw [if_neg (fun hlt => hfits ((lt_two_zpow_iff hm hfull).1 hlt))]
      rw [unpack_pack_of_lt s hpos (not_le.1 hfits)]
      rfl

/-- Infinity survives packing. -/
theorem unpack_pack_infinity (s : Sign) : (Float.Model.pack (.infinity s)).unpack = .infinity s := by
  cases s <;> rfl

/-- What is not a number survives packing. -/
theorem unpack_pack_notANumber : (Float.Model.pack .notANumber).unpack = .notANumber := rfl

/-- What has no value gets none by packing. -/
theorem valueOf_unpack_pack_eq_none {u : UnpackedFloat} (h : valueOf u = none) :
    valueOf (Float.Model.pack u).unpack = none := by
  rcases eq_of_valueOf_eq_none h with ⟨s, rfl⟩ | rfl
  · rw [unpack_pack_infinity]
    rfl
  · rfl

/-- What the bits of a double stand for is canonical. -/
theorem isCanonical_unpack (x : Float.Model) : IsCanonical x.unpack := by
  let bits : BitVec Format.binary64.numBits := x.toBits.toBitVec
  show IsCanonical (UnpackedFloat.unpack Format.binary64 bits)
  have hmantissa : (unpackMantissa bits).toNat < 2 ^ 52 := (unpackMantissa bits).isLt
  rw [UnpackedFloat.unpack]
  dsimp only
  split
  · split <;> trivial
  · split
    · split
      · trivial
      · next hzero _ =>
        rw [hzero]
        refine ⟨by omega, ?_, ?_⟩
        · show (-1074 : ℤ) ≤ 0 - (1023 + 52) + 1
          norm_num
        · right
          rfl
    · next hexponent =>
      have hpos : 1 ≤ (unpackExponent bits).toNat := by
        by_contra hlt
        refine hexponent (BitVec.eq_of_toNat_eq ?_)
        show (unpackExponent bits).toNat = 0
        omega
      have happend := toNat_implicit_append (unpackMantissa bits)
      refine ⟨?_, ?_, ?_⟩
      · exact (toNat_implicit_append (unpackMantissa bits)).trans_lt (by omega)
      · show (-1074 : ℤ) ≤ (unpackExponent bits).toNat - (1023 + 52)
        omega
      · exact .inl ((Nat.le_add_right _ _).trans (toNat_implicit_append _).ge)

end PlantGrowth.Double
