import LinePainter.Span
import LinePainter.Text

namespace LinePainter

/-! Text laid out in display columns. A tab fills up to the next multiple of eight, a
carriage return takes no column, a newline shows as a space, and every other character
takes one column however many bytes it has. -/

def tabStop : Nat := 8

/-- Columns are signed 64-bit numbers. -/
def maxColumn : Nat := 0x7fffffffffffffff

/-- A number as a column. What is too large counts as the largest column, or as `reach`
where that is larger. -/
def toColumn (reach number : Nat) : Int :=
  (min number (max maxColumn reach) : Nat)

/-- A column that is out of range comes out at the other end of the range. -/
def wrapColumn (reach : Nat) (column : Int) : Int :=
  column.bmod (2 * (max maxColumn reach + 1))

/-- The columns gained or lost at the character with byte offset `origin`. -/
structure Adjustment where
  origin : Nat
  delta : Int
  deriving DecidableEq

structure Expansion where
  /-- How many bytes were laid out. -/
  length : Nat
  glyphs : List Char
  adjustments : List Adjustment
  deriving DecidableEq

namespace Expansion

def width (expansion : Expansion) : Nat := expansion.glyphs.length

/-- What a character shows as when it starts at `column`. -/
def glyphsAt (column : Nat) (char : Char) : List Char :=
  if char = '\t' then List.replicate (tabStop - column % tabStop) ' '
  else if char = '\r' then []
  else if char = '\n' then [' ']
  else [char]

/-- Lays out the rest of a text from a byte offset and a column on. -/
def ofTextFrom (offset column : Nat) : Text → Expansion
  | [] => ⟨0, [], []⟩
  | char :: rest =>
      let glyphs := glyphsAt column char
      let delta : Int := glyphs.length - char.utf8Size
      let tail := ofTextFrom (offset + char.utf8Size) (column + glyphs.length) rest
      { length := char.utf8Size + tail.length
        glyphs := glyphs ++ tail.glyphs
        adjustments :=
          if delta = 0 then tail.adjustments else ⟨offset, delta⟩ :: tail.adjustments }

def ofText (text : Text) : Expansion := ofTextFrom 0 0 text

/-- The columns gained and lost in front of a byte offset. -/
def shiftBefore (expansion : Expansion) (offset : Nat) : Int :=
  (expansion.adjustments.takeWhile (·.origin < offset)).foldr
    (fun adjustment shift => adjustment.delta + shift) 0

def columnOf (expansion : Expansion) (offset : Nat) : Int :=
  toColumn expansion.length offset + expansion.shiftBefore offset

/-- How far right of the window's first column an offset is. -/
def distance (expansion : Expansion) (windowStart offset : Nat) : Int :=
  wrapColumn expansion.width
    (expansion.columnOf offset - toColumn expansion.width windowStart)

/-- The columns of a window that a span of bytes covers, counted from the window's
first column. -/
def clip (expansion : Expansion) (span : Span) (windowStart width : Nat) :
    Option (Nat × Nat) :=
  let start := max (expansion.distance windowStart span.start) 0
  let stop : Int :=
    match span.stop with
    | some stop => min (expansion.distance windowStart stop) width
    | none => width
  if stop ≤ start then none else some (start.toNat, stop.toNat)

end Expansion

end LinePainter
