import LinePainter.Palette.ColorText
import LinePainter.Role

namespace LinePainter

/-! A theme is a pair table together with the look of every role in it. -/

namespace NamedColor

def resolve (color : NamedColor) (palette : Palette) : Rgb :=
  match palette.parseColor color.name with
  | .ok found => found
  | .error _ => color.fallback

end NamedColor

namespace PairTable

def cook (table : PairTable) : Recipe → Look × PairTable
  | .styleOnly style => (Look.ofStyle style, table)
  | .base foreground background style =>
      let (pair, table) := table.request foreground background
      (⟨style, pair⟩, table)
  | .body style =>
      let (pair, table) := table.request .white .black
      (⟨style.union { dim := table.settings.dimText }, pair⟩, table)
  | .named foreground background =>
      let (pair, table) :=
        table.requestColors (foreground.resolve table.palette)
          (some (background.resolve table.palette))
      (Look.ofPair pair, table)

end PairTable

structure Theme where
  pairs : PairTable
  looks : Vector Look Role.count

namespace Theme

def look (theme : Theme) (role : Role) : Look :=
  theme.looks[role.index]

def assign (theme : Theme) (role : Role) : Theme :=
  let (look, pairs) := theme.pairs.cook role.recipe
  { pairs, looks := theme.looks.set role.index look }

/-- Gives every role its look, in the order of `Role.all`. -/
def assignAll (theme : Theme) : Theme :=
  Role.all.foldl assign theme

def build (palette : Palette) (capabilities : Capabilities) (settings : ColorSettings) :
    Theme :=
  assignAll {
    pairs := PairTable.reserve palette capabilities settings
    looks := Vector.replicate Role.count Look.plain }

/-- Lays the reserved pairs out again for other capabilities and settings, and gives
every role a new look. -/
def reload (theme : Theme) (capabilities : Capabilities) (settings : ColorSettings) :
    Theme :=
  assignAll {
    theme with pairs := PairTable.reserve theme.pairs.palette capabilities settings }

def request (theme : Theme) (foreground background : ColorId) : PairId × Theme :=
  let (pair, pairs) := theme.pairs.request foreground background
  (pair, { theme with pairs })

def requestColors (theme : Theme) (foreground : Rgb) (background : Option Rgb) :
    PairId × Theme :=
  let (pair, pairs) := theme.pairs.requestColors foreground background
  (pair, { theme with pairs })

def colorsOf (theme : Theme) (pair : PairId) : PairColors :=
  (theme.pairs.colors? pair).getD .terminalDefault

theorem colorsOf_of_colors? {theme : Theme} {pair : PairId} {colors : PairColors}
    (hcolors : theme.pairs.colors? pair = some colors) : theme.colorsOf pair = colors := by
  rw [colorsOf, hcolors, Option.getD_some]

theorem colorsOf_of_size_le {theme : Theme} {pair : PairId} (hpair : theme.pairs.size ≤ pair) :
    theme.colorsOf pair = .terminalDefault := by
  rw [colorsOf, PairTable.colors?, Array.getElem?_eq_none hpair, Option.getD_none]

end Theme

end LinePainter
