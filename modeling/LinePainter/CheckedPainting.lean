import LinePainter.Painting

namespace LinePainter

/-! Painting with every sum and every difference of columns checked. It stops at the first
one that 64 bits do not hold, where painting without checks goes on with a column from the
other end of the range. -/

/-- The least number that a column can be. -/
def minColumn : Int := -0x8000000000000000

def FitsColumn (number : Int) : Prop :=
  minColumn ≤ number ∧ number ≤ maxColumn

instance (number : Int) : Decidable (FitsColumn number) :=
  inferInstanceAs (Decidable (_ ∧ _))

/-- A number as a column, the largest one for those that are too large. -/
def columnUpTo (number : Nat) : Int :=
  (min number maxColumn : Nat)

/-- Why painting in 64-bit columns stops. -/
inductive ColumnStop where
  | rejected (error : PaintError)
  | overflow (number : Int)
  deriving DecidableEq

def checkColumn (number : Int) : Except ColumnStop Int :=
  if FitsColumn number then .ok number else .error (.overflow number)

namespace Directive

def isShown : Directive → Bool
  | custom _ _ => false
  | _ => true

end Directive

namespace Expansion

def checkedShiftBefore (expansion : Expansion) (offset : Nat) : Except ColumnStop Int :=
  (expansion.adjustments.takeWhile (·.origin < offset)).foldlM
    (fun shift adjustment => checkColumn (shift + adjustment.delta)) 0

def checkedColumnOf (expansion : Expansion) (offset : Nat) : Except ColumnStop Int := do
  checkColumn (columnUpTo offset + (← expansion.checkedShiftBefore offset))

/-- How far right of the window's first column an offset is. -/
def checkedDistance (expansion : Expansion) (windowStart offset : Nat) :
    Except ColumnStop Int := do
  checkColumn ((← expansion.checkedColumnOf offset) - columnUpTo windowStart)

/-- The column, counted from the window's first one, in front of which a span stops. -/
def checkedStop (expansion : Expansion) (windowStart width : Nat) :
    Option Nat → Except ColumnStop Int
  | some stop => return min (← expansion.checkedDistance windowStart stop) width
  | none => return width

def checkedClip (expansion : Expansion) (span : Span) (windowStart width : Nat) :
    Except ColumnStop (Option (Nat × Nat)) := do
  let start := max (← expansion.checkedDistance windowStart span.start) 0
  let stop ← expansion.checkedStop windowStart width span.stop
  return if stop ≤ start then none else some (start.toNat, stop.toNat)

end Expansion

namespace Strip

def checkedStampAttribute (expansion : Expansion) (windowStart width : Nat) (strip : Strip)
    (attr : Attribute) : Except ColumnStop Strip :=
  -- Attributes that do not show are passed over before they are clipped.
  if attr.directive.isShown then do
    match ← expansion.checkedClip attr.span windowStart width with
    | some (start, stop) => return strip.stampRun start stop attr.directive
    | none => return strip
  else return strip

end Strip

namespace Frame

def checkedPaint (frame : Frame) (theme : Theme) (x y : Nat) (line : Line) (window : Span)
    (role : Role) : Except ColumnStop (Frame × Theme) := do
  match window.windowBounds, line.fault? with
  | .error error, _ => throw (.rejected error)
  | .ok _, some fault => throw (.rejected (.spanFault fault))
  | .ok (start, length), none =>
      let width := min length (frame.room x y)
      let expansion := Expansion.ofText line.text
      let strip ← line.stampOrder.foldlM (Strip.checkedStampAttribute expansion start width)
        (Strip.base expansion start width (theme.look role))
      let (cells, pairs) := strip.flatten theme.pairs
      return (frame.write x y cells, { theme with pairs })

end Frame

/-- What becomes of a column that is out of range: painting stops, or goes on with a column
from the other end. -/
inductive Counting where
  | checked
  | wrapping
  deriving DecidableEq

def Expansion.clipBy (counting : Counting) (expansion : Expansion) (span : Span)
    (windowStart width : Nat) : Except ColumnStop (Option (Nat × Nat)) :=
  match counting with
  | .checked => expansion.checkedClip span windowStart width
  | .wrapping => .ok (expansion.clip span windowStart width)

def Frame.paintBy (counting : Counting) (frame : Frame) (theme : Theme) (x y : Nat)
    (line : Line) (window : Span) (role : Role) : Except ColumnStop (Frame × Theme) :=
  match counting with
  | .checked => frame.checkedPaint theme x y line window role
  | .wrapping => (frame.paint theme x y line window role).mapError .rejected

end LinePainter
