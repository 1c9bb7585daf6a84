import LinePainter.Palette.Basic

namespace LinePainter

/-! Color text is a hexadecimal color or the exact name of a palette entry. -/

inductive ColorTextError where
  | malformed (text : String)
  | unknownName (text : String)
  deriving DecidableEq

namespace ColorTextError

def message : ColorTextError → String
  | malformed text => s!"Could not parse color: {text}"
  | unknownName text =>
      s!"Unknown color: {text}.  See https://jonasjacek.github.io/colors/ " ++
        "for a list of supported color names"

end ColorTextError

namespace Palette

def parseColor (palette : Palette) (text : String) : Except ColorTextError Rgb :=
  if text.toList.head? = some '#' then
    match Rgb.ofHex? text with
    | some color => .ok color
    | none => .error (.malformed text)
  else
    match palette.byName? text with
    | some entry => .ok entry.rgb
    | none => .error (.unknownName text)

end Palette

end LinePainter
