/-!
# Quotients of integers as doubles

A rational number is rounded to the nearest double in exact arithmetic: to the nearest multiple of
the spacing that doubles have at its size, where a tie goes to the even multiple. The result is
again a rational number, so it can be rounded to an integer without a second error.
-/

set_option autoImplicit false

namespace PlantGrowth.Quotient

/-- The integer nearest to a rational number; a tie goes to the even one. -/
def roundHalfEven (q : Rat) : Int :=
  let below := q.floor
  let part := q - below
  if part < 1 / 2 then below
  else if 1 / 2 < part then below + 1
  else if below % 2 = 0 then below
  else below + 1

/-- The greatest `k` for which `2 ^ k` is at most the magnitude of a rational number that is not
zero. The quotient of the lengths of numerator and denominator is that power or the next one. -/
def binaryExponent (q : Rat) : Int :=
  let k := (Nat.log2 q.num.natAbs : Int) - Nat.log2 q.den
  if (2 : Rat) ^ k ≤ q.abs then k else k - 1

/-- The distance between neighbouring doubles at the size of a rational number. -/
def spacing (q : Rat) : Rat := 2 ^ max (binaryExponent q - 52) (-1074)

/-- The double nearest to a rational number, if it is not too large for one. -/
def nearestDouble (q : Rat) : Option Rat :=
  let rounded := roundHalfEven (q / spacing q) * spacing q
  if rounded.abs < 2 ^ (1024 : Int) then some rounded else none

end PlantGrowth.Quotient
