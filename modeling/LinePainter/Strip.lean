import LinePainter.Cell
import LinePainter.Expansion
import LinePainter.Line.Basic
import LinePainter.PairTable

namespace LinePainter

/-! A strip is the part of a line that shows in a window, one column after the other.
It starts as text in the look of a role. Attributes are then stamped on it, and in the
end the colors that were collected on the way are turned into pairs. -/

/-- A cell in the making, with the colors asked for it so far. -/
structure Column where
  cell : Cell
  foreground : Option ColorId := none
  background : Option ColorId := none
  deriving DecidableEq

namespace Column

def isInked (column : Column) : Bool :=
  column.foreground.isSome || column.background.isSome

/-- The colors of the column, white on black where none was asked for. -/
def ink (column : Column) : ColorId × ColorId :=
  (column.foreground.getD .white, column.background.getD .black)

end Column

namespace Directive

def stamp (column : Column) : Directive → Column
  | style look =>
      { column with cell := { column.cell with look := column.cell.look.overlay look } }
  | graphic glyph => { column with cell := column.cell.withChar glyph }
  | foreground color => { column with foreground := some color }
  | background color => { column with background := some color }
  | custom _ _ => column

end Directive

namespace Span

/-- No stop is later than every stop. -/
def stopAtMost : Option Nat → Option Nat → Bool
  | _, none => true
  | none, some _ => false
  | some left, some right => left ≤ right

/-- Attributes are stamped by start, then by stop. -/
def precedes (left right : Span) : Bool :=
  left.start < right.start || (left.start = right.start && stopAtMost left.stop right.stop)

end Span

namespace Line

/-- The attributes in the order in which they are stamped. Those with equal spans keep
their order. -/
def stampOrder (line : Line) : List Attribute :=
  line.attributes.mergeSort fun left right => left.span.precedes right.span

end Line

abbrev Strip := List Column

namespace Strip

/-- The glyphs of a window in one look, followed by spaces. -/
def base (expansion : Expansion) (windowStart width : Nat) (look : Look) : Strip :=
  let visible := (expansion.glyphs.drop windowStart).take width
  (visible ++ List.replicate (width - visible.length) ' ').map fun glyph =>
    { cell := Cell.ofChar glyph look }

def stampRun (strip : Strip) (start stop : Nat) (directive : Directive) : Strip :=
  strip.mapIdx fun position column =>
    if start ≤ position ∧ position < stop then directive.stamp column else column

def stampAttribute (expansion : Expansion) (windowStart width : Nat) (strip : Strip)
    (attr : Attribute) : Strip :=
  match expansion.clip attr.span windowStart width with
  | some (start, stop) => strip.stampRun start stop attr.directive
  | none => strip

def ofLine (line : Line) (windowStart width : Nat) (look : Look) : Strip :=
  let expansion := Expansion.ofText line.text
  line.stampOrder.foldl (stampAttribute expansion windowStart width)
    (base expansion windowStart width look)

/-- Turns the colors into pairs, from left to right. If no color was asked for at all,
the cells keep their pairs. -/
def flatten (strip : Strip) (table : PairTable) : List Cell × PairTable :=
  if strip.any (·.isInked) then
    let (pairs, table) := table.requestAll (strip.map (·.ink))
    (List.zipWith (fun column pair => column.cell.withPair pair) strip pairs, table)
  else (strip.map (·.cell), table)

end Strip

end LinePainter
