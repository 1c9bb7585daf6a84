import LinePainter.BinaryFraction

namespace LinePainter

/-! Decimal text of floats. -/

/-- The value with six decimals, a half going to the even neighbour. -/
def sixDecimals (value : Float) : String :=
  match BinaryFraction.ofFloat? value with
  | none => if value.isNaN then "NaN" else if value < 0 then "-inf" else "inf"
  | some fraction =>
      let millionths :=
        BinaryFraction.divideToNearest
          (fraction.coefficient.natAbs * 1000000 * powerOfTwo fraction.exponent.toNat)
          (powerOfTwo (-fraction.exponent).toNat)
      let decimals := toString (millionths % 1000000)
      let sign := if fraction.coefficient < 0 && millionths != 0 then "-" else ""
      sign ++ toString (millionths / 1000000) ++ "." ++
        "".pushn '0' (6 - decimals.length) ++ decimals

end LinePainter
