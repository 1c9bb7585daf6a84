import LinePainter.Span
import LinePainter.Style
import LinePainter.Color.Indexed
import LinePainter.Text

namespace LinePainter

/-! A line is text with attributes on spans of it. Attributes may overlap and keep
the order in which they were added. -/

/-- What an attribute asks for. Custom directives are kept but never painted. -/
inductive Directive where
  | style (look : Look)
  | graphic (glyph : Char)
  | foreground (color : ColorId)
  | background (color : ColorId)
  | custom (name : String) (value : Int)
  deriving DecidableEq

structure Attribute where
  span : Span
  directive : Directive
  deriving DecidableEq

structure Line where
  text : Text := []
  attributes : List Attribute := []
  deriving DecidableEq

inductive SpanFault where
  | inverted (span : Span)
  | outOfBounds (span : Span) (length : Nat)
  deriving DecidableEq

namespace SpanFault

def message : SpanFault → String
  | inverted span => s!"attribute range {span.toText} is inverted"
  | outOfBounds span length =>
      s!"attribute range {span.toText} extends past line length {length}"

end SpanFault

namespace Span

def fault? (span : Span) (length : Nat) : Option SpanFault :=
  if span.stopOr span.start < span.start then some (.inverted span)
  else if length < span.start ∨ length < span.stopOr length then
    some (.outOfBounds span length)
  else none

end Span

namespace Line

def ofText (text : Text) : Line := { text }

def ofString (text : String) : Line := ofText text.toList

def length (line : Line) : Nat := line.text.byteLength

def isEmpty (line : Line) : Bool := line.text.isEmpty

def addAttribute (line : Line) (span : Span) (directive : Directive) : Line :=
  { line with attributes := line.attributes ++ [⟨span, directive⟩] }

def fault? (line : Line) : Option SpanFault :=
  line.attributes.findSome? (·.span.fault? line.length)

end Line

end LinePainter
