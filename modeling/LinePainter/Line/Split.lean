import LinePainter.Line.Edit

namespace LinePainter

/-! Parts of a line, cut out together with the attributes that touch them. -/

namespace Line

/-- The attributes that touch the bytes from `start` to `stop`, cut to them and counted
from `start`. -/
def attributesWithin (line : Line) (start stop : Nat) : List Attribute :=
  let window : Span := ⟨start, some stop⟩
  (line.attributes.filter fun attr => window.Touches attr.span).map
    (Attribute.mapSpan fun span =>
      (window.intersection span).shiftedWithin line.text.offsetLimit start (-start))

/-- The `length` bytes from `start`, or all bytes from there on. -/
def subline (line : Line) (start : Nat) (length : Option Nat) : Except EditError Line :=
  let stop := (length.map (start + ·)).getD line.length
  match Text.slice? start stop line.text with
  | none => .error (.sublineSpan start stop line.length)
  | some text =>
      let attributes := line.attributesWithin start stop
      match attributes.find? fun attr => text.byteLength < attr.span.stopOr 0 with
      | some attr => .error (.sublineOverrun attr.span text.byteLength)
      | none => .ok { text, attributes }

/-- Start and length of every newline-separated piece. The piece being read starts at
`start` and has `length` bytes so far. -/
def pieceBounds (start length : Nat) : Text → List (Nat × Nat)
  | [] => [(start, length)]
  | char :: rest =>
      if char = '\n' then (start, length) :: pieceBounds (start + length + 1) 0 rest
      else pieceBounds start (length + char.utf8Size) rest

/-- The pieces between newlines. A newline at the end makes an empty last piece. -/
def splitLines (line : Line) : Except EditError (List Line) :=
  (pieceBounds 0 0 line.text).mapM fun (start, length) => line.subline start (some length)

end Line

end LinePainter
