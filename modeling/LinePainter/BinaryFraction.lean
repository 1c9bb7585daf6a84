namespace LinePainter

/-! Exact binary fractions. Every finite float is one, so an expression that must
be rounded only once is worked out here and rounded at the end. -/

def powerOfTwo (exponent : Nat) : Nat := Nat.pow 2 exponent

structure BinaryFraction where
  coefficient : Int
  exponent : Int

namespace BinaryFraction

def ofFloat? (value : Float) : Option BinaryFraction :=
  let bits := value.toBits.toNat
  let biased : Nat := bits / powerOfTwo 52 % powerOfTwo 11
  let fraction : Nat := bits % powerOfTwo 52
  let magnitude := if biased = 0 then fraction else fraction + powerOfTwo 52
  if biased = 2047 then none
  else some {
    coefficient := if bits < powerOfTwo 63 then (magnitude : Int) else -(magnitude : Int)
    exponent := (max biased 1 : Nat) - (1075 : Int) }

def add (left right : BinaryFraction) : BinaryFraction :=
  let exponent := min left.exponent right.exponent
  { coefficient :=
      left.coefficient * powerOfTwo (left.exponent - exponent).toNat +
        right.coefficient * powerOfTwo (right.exponent - exponent).toNat
    exponent }

def mul (left right : BinaryFraction) : BinaryFraction where
  coefficient := left.coefficient * right.coefficient
  exponent := left.exponent + right.exponent

/-- The quotient to the nearest whole number, a half going to the even neighbour. -/
def divideToNearest (numerator denominator : Nat) : Nat :=
  let quotient := numerator / denominator
  let doubled := 2 * (numerator % denominator)
  if doubled < denominator then quotient
  else if doubled = denominator then quotient + quotient % 2
  else quotient + 1

def infinityBits : Nat := 2047 * powerOfTwo 52

/-- The bits of the float nearest to `magnitude * 2 ^ exponent`. A significand that
rounds up to the next power of two carries into the exponent bits by itself. -/
def nearestBits (magnitude : Nat) (exponent : Int) : Nat :=
  let target : Int := max (exponent + magnitude.log2 - 52) (-1074)
  let significand :=
    divideToNearest (magnitude * powerOfTwo (exponent - target).toNat)
      (powerOfTwo (target - exponent).toNat)
  min ((target + 1074).toNat * powerOfTwo 52 + significand) infinityBits

def toFloat (fraction : BinaryFraction) : Float :=
  let magnitude := fraction.coefficient.natAbs
  if magnitude = 0 then 0
  else
    let bits := nearestBits magnitude fraction.exponent
    Float.ofBits
      (if fraction.coefficient < 0 then bits + powerOfTwo 63 else bits).toUInt64

/-- The nearest float to the square root of a non-negative fraction. The root keeps
at least 54 bits and a last bit that only says whether it is exact. -/
def sqrt (fraction : BinaryFraction) : Float :=
  let magnitude := fraction.coefficient.toNat
  let atLeast := 110 - magnitude.log2
  let shift := atLeast + ((fraction.exponent - atLeast) % 2).toNat
  let radicand := magnitude * powerOfTwo shift
  let root := radicand.sqrt
  toFloat {
    coefficient := 2 * root + (if root * root = radicand then 0 else 1 : Nat)
    exponent := (fraction.exponent - shift) / 2 - 1 }

end BinaryFraction

/-- `left * right + addend`, rounded once. -/
def fusedMulAdd (left right addend : Float) : Float :=
  match BinaryFraction.ofFloat? left, BinaryFraction.ofFloat? right,
      BinaryFraction.ofFloat? addend with
  | some left, some right, some addend => ((left.mul right).add addend).toFloat
  | some _, some _, none => addend
  | _, _, _ => left * right + addend

/-- The length of the vector `(width, height)`, rounded once. -/
def hypotenuse (width height : Float) : Float :=
  match BinaryFraction.ofFloat? width, BinaryFraction.ofFloat? height with
  | some width, some height => ((width.mul width).add (height.mul height)).sqrt
  | _, _ =>
      if width.isInf || height.isInf then Float.ofBits BinaryFraction.infinityBits.toUInt64
      else width + height

end LinePainter
