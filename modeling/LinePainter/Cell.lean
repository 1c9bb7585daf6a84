import LinePainter.Character.Literal
import LinePainter.Style

namespace LinePainter

/-! A screen cell holds a codepoint, which need not be a character, and a look. -/

structure Cell where
  codepoint : Nat
  look : Look
  deriving DecidableEq

namespace Cell

def empty : Cell := ⟨' '.toNat, Look.plain⟩

def ofChar (char : Char) (look : Look) : Cell := ⟨char.toNat, look⟩

def isEmpty (cell : Cell) : Bool := cell = empty

def char? (cell : Cell) : Option Char :=
  if cell.codepoint.isValidChar then some (Char.ofNat cell.codepoint) else none

def charD (cell : Cell) (fallback : Char) : Char :=
  cell.char?.getD fallback

theorem char?_eq_some_iff {cell : Cell} {char : Char} :
    cell.char? = some char ↔ cell.codepoint = char.toNat := by
  rw [char?, Option.ite_none_right_eq_some, Option.some.injEq]
  constructor
  · rintro ⟨hvalid, rfl⟩
    rw [Char.ofNat, dif_pos hvalid]
    rfl
  · intro hcodepoint
    rw [hcodepoint]
    exact ⟨char.valid, Char.ofNat_toNat char⟩

@[simp] theorem char?_ofChar (char : Char) (look : Look) :
    (ofChar char look).char? = some char :=
  char?_eq_some_iff.mpr rfl

theorem charD_eq (cell : Cell) (fallback : Char) :
    cell.charD fallback =
      if cell.codepoint.isValidChar then Char.ofNat cell.codepoint else fallback := by
  rw [charD, char?]
  split <;> rfl

def withChar (cell : Cell) (char : Char) : Cell :=
  { cell with codepoint := char.toNat }

def withStyle (cell : Cell) (style : Style) : Cell :=
  { cell with look := { cell.look with style } }

def withPair (cell : Cell) (pair : PairId) : Cell :=
  { cell with look := { cell.look with pair } }

def sameLook (left right : Cell) : Bool :=
  left.look = right.look

/-- The longest runs of neighbours that look the same. -/
def runs (cells : List Cell) : List (List Cell) :=
  cells.splitBy sameLook

/-- The character, followed by the pair and the style unless they are the usual ones. -/
def describe (cell : Cell) : String :=
  let pair := if cell.look.pair = 0 then "" else s!", pair({cell.look.pair})"
  let style :=
    if cell.look.style = Style.plain then "" else s!", Attr({cell.look.style.describe})"
  "Cell(" ++ Character.literal (cell.charD '?') ++ pair ++ style ++ ")"

end Cell

end LinePainter
