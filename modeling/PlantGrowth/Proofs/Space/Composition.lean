import PlantGrowth.Proofs.Space.Frame
import PlantGrowth.Proofs.Space.Norm

/-!
# The algebra of orientations

Over any commutative ring the orientations form a monoid that acts on directions by rotations. The
rotations are additive, and lengths are multiplied in products and in rotations alike
(`rotation_laws`), so orientations of length one keep all lengths.
-/

set_option autoImplicit false

namespace PlantGrowth.Quat

variable {R : Type} [CommRing R]

/-- The identity is neutral as the first factor. -/
theorem identity_mul (a : Quat R) : identity * a = a := by
  ext <;> simp [identity]

/-- The identity rotates nothing. -/
theorem rotate_identity (v : Vec3 R) : identity.rotate v = v := by
  ext <;> simp [rotate, identity]

/-- The laws of products and rotations: a monoid of orientations, which acts on directions by additive
rotations, and lengths that are multiplied. The square of a length is `normSq`. -/
theorem rotation_laws (a b c : Quat R) (u v : Vec3 R) :
    a * b * c = a * (b * c) ∧ identity * a = a ∧ a * identity = a ∧
    (a * b).rotate v = a.rotate (b.rotate v) ∧ identity.rotate v = v ∧
    a.rotate (u + v) = a.rotate u + a.rotate v ∧
    (a * b).normSq = a.normSq * b.normSq ∧
    (a.rotate v).normSq = a.normSq ^ 2 * v.normSq := by
  refine ⟨Quat.mul_assoc a b c, identity_mul a, mul_identity a, ?_, rotate_identity v, ?_, ?_, ?_⟩
  · exact rotate_mul a b v
  · exact rotate_add a u v
  · exact normSq_mul a b
  · exact normSq_rotate a v

end PlantGrowth.Quat
