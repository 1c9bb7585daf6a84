namespace LinePainter

/-! Style flags, and the look of a cell: its style and its color pair. -/

structure Style where
  bold : Bool := false
  dim : Bool := false
  italic : Bool := false
  underline : Bool := false
  blink : Bool := false
  reverse : Bool := false
  hidden : Bool := false
  standout : Bool := false
  deriving DecidableEq

namespace Style

def plain : Style := {}

def union (left right : Style) : Style where
  bold := left.bold || right.bold
  dim := left.dim || right.dim
  italic := left.italic || right.italic
  underline := left.underline || right.underline
  blink := left.blink || right.blink
  reverse := left.reverse || right.reverse
  hidden := left.hidden || right.hidden
  standout := left.standout || right.standout

/-- Merging like `union`, but reversing twice is not reversing. -/
def overlay (below above : Style) : Style :=
  { below.union above with reverse := below.reverse != above.reverse }

/-- The flags, the lowest bit first. -/
def flags (style : Style) : List Bool :=
  [style.bold, style.dim, style.italic, style.underline,
    style.blink, style.reverse, style.hidden, style.standout]

def flagNames : List String :=
  ["BOLD", "DIM", "ITALIC", "UNDERLINE", "BLINK", "REVERSE", "HIDDEN", "STANDOUT"]

def toBits (style : Style) : Nat :=
  style.flags.foldr (fun flag bits => 2 * bits + flag.toNat) 0

def ofBits (bits : Nat) : Style where
  bold := bits.testBit 0
  dim := bits.testBit 1
  italic := bits.testBit 2
  underline := bits.testBit 3
  blink := bits.testBit 4
  reverse := bits.testBit 5
  hidden := bits.testBit 6
  standout := bits.testBit 7

def describe (style : Style) : String :=
  " | ".intercalate
    ((style.flags.zip flagNames).filterMap fun (flag, name) => if flag then some name else none)

end Style

/-- The position of a color pair in the pair table. Pair 0 is the terminal's own
colors, and stands for "no pair" in a look that is merged into another. -/
abbrev PairId := Nat

structure Look where
  style : Style
  pair : PairId
  deriving DecidableEq

namespace Look

def plain : Look := ⟨Style.plain, 0⟩

def ofStyle (style : Style) : Look := ⟨style, 0⟩

def ofPair (pair : PairId) : Look := ⟨Style.plain, pair⟩

def withStyle (look : Look) (style : Style) : Look :=
  { look with style := look.style.union style }

def isNoop (look : Look) : Bool :=
  look.style = Style.plain && look.pair = 0

/-- What `above` makes of `below`: its flags are merged in, its pair replaces the
old one unless it is pair 0. -/
def overlay (below above : Look) : Look where
  style := below.style.overlay above.style
  pair := if above.pair = 0 then below.pair else above.pair

end Look

end LinePainter
