import PlantGrowth.Fault

/-!
# Scalars

The numbers that plants are measured in. Every definition of the library that computes with numbers
is stated over a type with these operations, so that the same text runs on doubles and can be read
in exact arithmetic.

The class holds the operations that cannot fail. The operations below it that can fail say why.
-/

set_option autoImplicit false

namespace PlantGrowth

/-- Numbers with the field operations, a second power, a square root, sine and cosine, and a way to
integers. -/
class Scalar (α : Type) extends
    Add α, Sub α, Mul α, Div α, Neg α, Zero α, One α, LT α, LE α, BEq α, OfScientific α where
  /-- The strict order can be tested. -/
  decidableLT : DecidableLT α
  /-- The order can be tested. -/
  decidableLE : DecidableLE α
  /-- The second power. It need not be the product of the number with itself: a power of doubles is
  rounded otherwise than a product. -/
  squared : α → α
  /-- The square root. -/
  sqrt : α → α
  /-- The sine of an angle in radians. -/
  sin : α → α
  /-- The cosine of an angle in radians. -/
  cos : α → α
  /-- Half a turn in radians. -/
  pi : α
  /-- The number nearest to a natural number. -/
  ofNat : Nat → α
  /-- Whether the number is the result of an undefined operation. -/
  isNaN : α → Bool
  /-- Whether the number is one of the two infinities. -/
  isInfinite : α → Bool
  /-- The greatest integer that is not above a finite number. -/
  floor : α → Int
  /-- The integer part of a finite number. -/
  truncate : α → Int

namespace Scalar

variable {α : Type} [Scalar α]

instance : DecidableLT α := Scalar.decidableLT

instance : DecidableLE α := Scalar.decidableLE

/-- A number that is neither infinite nor undefined. -/
def isFinite (x : α) : Bool := !isNaN x && !isInfinite x

/-- The larger of two numbers: the first one unless the second is above it. -/
def maxOf (a b : α) : α := if a < b then b else a

/-- The smaller of two numbers: the first one unless the second is below it. -/
def minOf (a b : α) : α := if b < a then b else a

/-- The second power of a number; that of a finite number has to be finite. -/
def square (x : α) : Except Fault α :=
  if isInfinite (squared x) && !isInfinite x then .error .squareTooLarge else .ok (squared x)

/-- The sine of an angle that is not infinite. -/
def sine (x : α) : Except Fault α :=
  if isInfinite x then .error .angleInfinite else .ok (sin x)

/-- The cosine of an angle that is not infinite. -/
def cosine (x : α) : Except Fault α :=
  if isInfinite x then .error .angleInfinite else .ok (cos x)

/-- An angle in degrees, read in radians. -/
def radians (degrees : α) : α := degrees * (pi / 180.0)

/-- Only a finite number has an integer near it; `near` says which one is meant. -/
def toInteger (near : α → Int) (x : α) : Except Fault Int :=
  if isNaN x then .error .integerOfNaN
  else if isInfinite x then .error .integerOfInfinity
  else .ok (near x)

end Scalar

end PlantGrowth
