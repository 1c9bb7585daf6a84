import LinePainter.Frame
import LinePainter.Strip
import LinePainter.Theme

namespace LinePainter

/-! Painting puts the part of a line that shows in a window of display columns on one
row of a frame. -/

inductive PaintError where
  | openWindow (window : Span)
  | invertedWindow (window : Span)
  | spanFault (fault : SpanFault)
  deriving DecidableEq

namespace PaintError

def message : PaintError → String
  | openWindow window => s!"visible window {window.toText} has no end"
  | invertedWindow window => s!"visible window {window.toText} is inverted"
  | spanFault fault => fault.message

end PaintError

namespace Span

/-- Start and length of a window, which must have a stop and not be inverted. -/
def windowBounds (window : Span) : Except PaintError (Nat × Nat) :=
  match window.stop with
  | none => .error (.openWindow window)
  | some stop =>
      if stop < window.start then .error (.invertedWindow window)
      else .ok (window.start, stop - window.start)

end Span

namespace Frame

/-- Paints the columns `window` of a line from `(x, y)` on, in the look of a role where
no attribute says otherwise. The theme hands out the pairs that colors need. -/
def paint (frame : Frame) (theme : Theme) (x y : Nat) (line : Line) (window : Span)
    (role : Role) : Except PaintError (Frame × Theme) := do
  let (start, length) ← window.windowBounds
  match line.fault? with
  | some fault => throw (.spanFault fault)
  | none =>
      let width := min length (frame.room x y)
      let (cells, pairs) :=
        (Strip.ofLine line start width (theme.look role)).flatten theme.pairs
      return (frame.write x y cells, { theme with pairs })

end Frame

end LinePainter
