import LinePainter.BinaryFraction
import LinePainter.Color.Rgb

namespace LinePainter

/-! The L*a*b* space, in which colors are compared. -/

def linearIntensity (encoded : Float) : Float :=
  if encoded > 0.04045 then ((encoded + 0.055) / 1.055).pow 2.4
  else encoded / 12.92

structure Lab where
  lightness : Float
  greenRed : Float
  blueYellow : Float

namespace Lab

/-- The cube root, continued by a straight line near zero. -/
def compand (ratio : Float) : Float :=
  if ratio > 0.008856 then ratio.cbrt
  else fusedMulAdd 7.787 ratio (16 / 116)

def ofRgb (color : Rgb) : Lab :=
  let intensity (channel : Channel) := linearIntensity (Float.ofNat channel.val / 255)
  let red := intensity color.red
  let green := intensity color.green
  let blue := intensity color.blue
  let x := fusedMulAdd 0.1805 blue (fusedMulAdd 0.4124 red (0.3576 * green)) / 0.95047
  let y := fusedMulAdd 0.0722 blue (fusedMulAdd 0.2126 red (0.7152 * green)) / 1
  let z := fusedMulAdd 0.9505 blue (fusedMulAdd 0.0193 red (0.1192 * green)) / 1.08883
  { lightness := fusedMulAdd 116 (compand y) (-16)
    greenRed := 500 * (compand x - compand y)
    blueYellow := 200 * (compand y - compand z) }

/-- The distance from the grey axis. -/
def chroma (color : Lab) : Float :=
  hypotenuse color.greenRed color.blueYellow

/-- The root of a sum of squares, which rounding may have left below zero. -/
def clampedSqrt (square : Float) : Float :=
  if square < 0 then 0 else square.sqrt

/-- The perceived distance to another color. Chroma and hue differences count less
the more chroma the first color has. -/
def distance (color other : Lab) : Float :=
  let lightness := color.lightness - other.lightness
  let greenRed := color.greenRed - other.greenRed
  let blueYellow := color.blueYellow - other.blueYellow
  let chroma := color.chroma - other.chroma
  let hue :=
    clampedSqrt
      (fusedMulAdd chroma (-chroma)
        (fusedMulAdd greenRed greenRed (blueYellow * blueYellow)))
  let weightedChroma := chroma / fusedMulAdd 0.045 color.chroma 1
  let weightedHue := hue / fusedMulAdd 0.015 color.chroma 1
  clampedSqrt
    (fusedMulAdd weightedHue weightedHue
      (fusedMulAdd lightness lightness (weightedChroma * weightedChroma)))

end Lab

end LinePainter
