import LinePainter.Cell

namespace LinePainter

/-! A frame is a grid of cells, kept row after row in one vector. Reads and writes
run along a row and are cut off at its end; outside the grid they do nothing. -/

structure Frame where
  width : Nat
  height : Nat
  cells : Vector Cell (width * height)

namespace Frame

def empty (width height : Nat) : Frame where
  width
  height
  cells := Vector.replicate (width * height) Cell.empty

def clear (frame : Frame) : Frame :=
  empty frame.width frame.height

def InBounds (frame : Frame) (x y : Nat) : Prop :=
  x < frame.width ∧ y < frame.height

instance (frame : Frame) (x y : Nat) : Decidable (frame.InBounds x y) :=
  inferInstanceAs (Decidable (_ ∧ _))

def position (frame : Frame) (x y : Nat) : Nat :=
  y * frame.width + x

def get? (frame : Frame) (x y : Nat) : Option Cell :=
  if frame.InBounds x y then frame.cells[frame.position x y]? else none

/-- How many columns of row `y` lie at `x` or to the right of it. -/
def room (frame : Frame) (x y : Nat) : Nat :=
  if y < frame.height then frame.width - x else 0

def read (frame : Frame) (x y length : Nat) : List Cell :=
  let start := frame.position x y
  (frame.cells.toArray.extract start (start + min length (frame.room x y))).toList

def row? (frame : Frame) (y : Nat) : Option (List Cell) :=
  if y < frame.height then some (frame.read 0 y frame.width) else none

def rows (frame : Frame) : List (List Cell) :=
  (List.range frame.height).map fun y => frame.read 0 y frame.width

def setRun {size : Nat} (cells : Vector Cell size) (position : Nat) :
    List Cell → Vector Cell size
  | [] => cells
  | cell :: rest => setRun (cells.setIfInBounds position cell) (position + 1) rest

def write (frame : Frame) (x y : Nat) (cells : List Cell) : Frame :=
  { frame with
    cells := setRun frame.cells (frame.position x y) (cells.take (frame.room x y)) }

def putText (frame : Frame) (x y : Nat) (text : List Char) (look : Look) : Frame :=
  frame.write x y (text.map fun char => Cell.ofChar char look)

def putRule (frame : Frame) (x y : Nat) (char : Char) (count : Nat) (look : Look) : Frame :=
  frame.write x y
    (List.replicate (min count (frame.room x y)) (Cell.ofChar char look))

/-- The characters of a row; a codepoint that is no character shows as `?`. -/
def rowText (frame : Frame) (y : Nat) : String :=
  match frame.row? y with
  | some cells => String.ofList (cells.map (·.charD '?'))
  | none => ""

def describe (frame : Frame) : String :=
  s!"FrameBuffer({frame.width}x{frame.height})"

end Frame

end LinePainter
