import PlantGrowth.Scalar.Basic
import PlantGrowth.Scalar.Quotient

/-!
# Doubles as scalars

`Float` carries the scalar operations. A finite double is a ratio of integers, `Double.ratio`, read
off its sign, exponent and fraction; floor and integer part are computed from that ratio, so they
are exact for doubles of every size.

Sine, cosine and powers are those of the mathematics library of the platform. Nothing is known here of
a sine or a cosine. Of a second power it is known that the library's error is below one unit in the last
place: the result is one of the two doubles next to the exact square, and not always the nearer one,
which is the product.
-/

set_option autoImplicit false

namespace PlantGrowth

namespace Double

/-- The eleven exponent bits. -/
def exponentBits (x : Float) : Nat := x.toBits.toNat / 0x10000000000000 % 0x800

/-- The fifty-two fraction bits. -/
def fractionBits (x : Float) : Nat := x.toBits.toNat % 0x10000000000000

/-- Whether the sign bit is set. -/
def isNegative (x : Float) : Bool := 0x8000000000000000 ≤ x.toBits.toNat

/-- The whole number of steps in the magnitude: a step is two to the power of the exponent bits, but
at least of one, less 1075. -/
def significand (x : Float) : Nat :=
  if exponentBits x = 0 then fractionBits x else 0x10000000000000 + fractionBits x

/-- The value of a finite double as a quotient of an integer and a positive natural number. -/
def ratio (x : Float) : Int × Nat :=
  let exponent := max 1 (exponentBits x)
  let magnitude : Int := (significand x <<< (exponent - 1075) : Nat)
  (if isNegative x then -magnitude else magnitude, 1 <<< (1075 - exponent))

/-- The greatest integer not above a finite double. -/
def floor (x : Float) : Int := Int.fdiv (ratio x).1 (ratio x).2

/-- The integer part of a finite double. -/
def truncate (x : Float) : Int := Int.tdiv (ratio x).1 (ratio x).2

/-- A finite double as a rational number. -/
def toRat (x : Float) : Rat := mkRat (ratio x).1 (ratio x).2

/-- Whether a finite double is one of the two next to a rational number that is not below zero: the
last multiple of the spacing that is not above the number, or the first one that is not below it. -/
def isNextTo (q : Rat) (x : Float) : Bool :=
  let spacing := Quotient.spacing q
  toRat x == (q / spacing).floor * spacing || toRat x == (q / spacing).ceil * spacing

/-- The second power as the mathematics library computes it. Where the product is exact there is no
other double next to the exact square; elsewhere the library's power is one of two. -/
def squared (x : Float) : Float :=
  let product := x * x
  let exact := toRat x * toRat x
  let power := x.pow 2.0
  if product.isFinite && !(toRat product == exact) && power.isFinite && isNextTo exact power
  then power
  else product

/-- Half a turn, to the nearest double. -/
def pi : Float := 3.141592653589793

end Double

instance : Scalar Float where
  zero := 0.0
  one := 1.0
  decidableLT := inferInstance
  decidableLE := inferInstance
  squared := Double.squared
  sqrt := Float.sqrt
  sin := Float.sin
  cos := Float.cos
  pi := Double.pi
  ofNat := Float.ofNat
  isNaN := Float.isNaN
  isInfinite := Float.isInf
  floor := Double.floor
  truncate := Double.truncate

end PlantGrowth
