import LinePainter.Line.Basic

namespace LinePainter

/-! Edits move attributes along with the text they are on. -/

/-- An edit at an offset that is past the end or inside a character, or a subline
that an attribute sticks out of. -/
inductive EditError where
  | insertAt (index length : Nat)
  | insertCharsAt (index : Nat)
  | eraseSpan (start stop length : Nat)
  | sublineSpan (start stop length : Nat)
  | sublineOverrun (span : Span) (length : Nat)
  deriving DecidableEq

namespace EditError

def message : EditError → String
  | insertAt index length =>
      s!"insert index {index} is not a char boundary of a {length}-byte line"
  | insertCharsAt index => s!"insert index {index} is not a char boundary"
  | eraseSpan start stop length =>
      s!"erase span {start}..{stop} is not valid in a {length}-byte line"
  | sublineSpan start stop length =>
      s!"subline {start}..{stop} is not valid in a {length}-byte line"
  | sublineOverrun span length =>
      s!"subline produced range {span.toText} past length {length}"

end EditError

namespace Text

/-- Attribute offsets on a text stop at this one: the largest offset that can be
counted, or the text's length where that is larger. -/
def offsetLimit (text : Text) : Nat := max maxOffset text.byteLength

end Text

namespace Attribute

def mapSpan (move : Span → Span) (attr : Attribute) : Attribute :=
  { attr with span := move attr.span }

end Attribute

namespace Line

/-- The attributes after `amount` bytes were inserted at `index`, which made `text`. -/
def shiftAttributes (line : Line) (text : Text) (index amount : Nat) : List Attribute :=
  line.attributes.map
    (Attribute.mapSpan fun span => span.shiftedWithin text.offsetLimit index amount)

/-- Puts `fragment` between `before` and `after`, the two parts of the line's text.
At the end of the text no attribute moves. Open attributes of the fragment are closed
at its end. -/
def splice (line : Line) (before after : Text) (fragment : Line) : Line :=
  let text := before ++ fragment.text ++ after
  let index := before.byteLength
  let stop := index + fragment.length
  let attributes :=
    if index < line.length then line.shiftAttributes text index fragment.length
    else line.attributes
  { text
    attributes :=
      attributes ++ fragment.attributes.map (Attribute.mapSpan fun span =>
        ⟨span.start + index, some ((span.stop.map (· + index)).getD stop)⟩) }

def insertPlain (line : Line) (index : Nat) (fragment : Line) : Except EditError Line :=
  match Text.splitAt? index line.text with
  | some (before, after) => .ok (line.splice before after fragment)
  | none => .error (.insertAt index line.length)

def append (line fragment : Line) : Line :=
  line.splice line.text [] fragment

def appendText (line : Line) (text : Text) : Line :=
  { line with text := line.text ++ text }

/-- Inserts copies of a character. Attributes that end at `index` grow over them,
also at the end of the line. -/
def insertChars (line : Line) (index count : Nat) (char : Char) : Except EditError Line :=
  match Text.splitAt? index line.text with
  | some (before, after) =>
      if count = 0 then .ok line
      else
        let run : Text := List.replicate count char
        let text := before ++ run ++ after
        .ok { text, attributes := line.shiftAttributes text index run.byteLength }
  | none => .error (.insertCharsAt index)

def erase (line : Line) (index length : Nat) : Except EditError Line :=
  let removed := do
    let (before, fromIndex) ← Text.splitAt? index line.text
    let (_, after) ← Text.splitAt? length fromIndex
    return before ++ after
  match removed with
  | some text =>
      .ok {
        text
        attributes := line.attributes.map (Attribute.mapSpan (·.erased index length)) }
  | none => .error (.eraseSpan index (index + length) line.length)

end Line

end LinePainter
