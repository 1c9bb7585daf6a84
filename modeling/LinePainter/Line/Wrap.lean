import LinePainter.Line.Edit

namespace LinePainter

/-! Word wrap. The pass reads the text from the insertion point on and decides piece
by piece what becomes of it; the line is then edited accordingly. A unit is a run of
ASCII letters, digits and `,` `_` `.` `;` that ends after its first full stop. What
follows up to the next letter, digit or underscore is filler. A unit that does not fit
goes to a new line, and a line that becomes exactly full ends there. -/

structure TextWrap where
  width : Nat
  indent : Nat

namespace TextWrap

def usable (wrap : TextWrap) : Nat := max (wrap.width - wrap.indent) 1

theorem usable_pos (wrap : TextWrap) : 0 < wrap.usable := by
  unfold usable
  omega

end TextWrap

namespace Wrap

def isWordChar (char : Char) : Bool :=
  char.isAlphanum || char == '_'

def isUnitChar (char : Char) : Bool :=
  isWordChar char || char == ',' || char == '.' || char == ';'

theorem isUnitChar_iff {char : Char} :
    isUnitChar char = true ↔ char.isAlphanum = true ∨ char ∈ ['_', ',', '.', ';'] := by
  simp [isUnitChar, isWordChar, or_assoc]

theorem isUnitChar_of_isWordChar {char : Char} (hword : isWordChar char = true) :
    isUnitChar char = true := by
  simp [isUnitChar, hword]

def leadingUnit : Text → Text
  | [] => []
  | char :: rest =>
      if isUnitChar char then
        if char = '.' then [char] else char :: leadingUnit rest
      else []

/-- What becomes of the next part of the text. -/
inductive Piece where
  /-- A character that stays. -/
  | kept (char : Char)
  /-- A newline and an indent that are put in. -/
  | lineBreak
  /-- An indent that is put in behind a newline of the text. -/
  | margin
  /-- Spaces that are taken out behind a line break. -/
  | dropped (count : Nat)
  deriving DecidableEq

/-- The columns left on the current line, negative when a unit has overrun it. There
is no limit on a line that was full before the pass began. -/
abbrev Room := Option Int

structure Filler where
  pieces : List Piece
  room : Room
  rest : Text

/-- The filler at the front of a text, as far as the room goes. A newline of the text
ends it and starts a fresh line. -/
def takeFiller (usable : Nat) (room : Room) : Text → Filler
  | [] => ⟨[], room, []⟩
  | char :: rest =>
      if room = some 0 then ⟨[], room, char :: rest⟩
      else if char = '\n' then ⟨[.kept char, .margin], some usable, rest⟩
      else if isWordChar char then ⟨[], room, char :: rest⟩
      else
        let filler := takeFiller usable (room.map (· - 1)) rest
        { filler with pieces := .kept char :: filler.pieces }

/-- Whether a unit goes to a new line. It stays if its line is still empty. -/
def Overflows (usable : Nat) (room : Room) (unit : Text) : Prop :=
  ∃ left ∈ room, left ≠ usable ∧ left < unit.length

instance (usable : Nat) (room : Room) (unit : Text) :
    Decidable (Overflows usable room unit) :=
  match room with
  | none => isFalse (by simp [Overflows])
  | some left => decidable_of_iff (left ≠ usable ∧ left < unit.length) (by simp [Overflows])

theorem takeFiller_rest_length_le (usable : Nat) (room : Room) (text : Text) :
    (takeFiller usable room text).rest.length ≤ text.length := by
  induction text generalizing room with
  | nil => simp [takeFiller]
  | cons char rest ih =>
      have hrest := ih (room.map (· - 1))
      unfold takeFiller
      split
      · exact Nat.le_refl _
      · split
        · simp
        · split
          · exact Nat.le_refl _
          · simp only [List.length_cons]
            omega

theorem takeFiller_progress {usable : Nat} {room : Room} {first : Char} {rest : Text}
    (hroom : room ≠ some 0) (hfirst : isWordChar first = false) :
    (takeFiller usable room (first :: rest)).rest.length < (first :: rest).length := by
  have hrest := takeFiller_rest_length_le usable (room.map (· - 1)) rest
  rw [takeFiller, if_neg hroom]
  simp only [hfirst, Bool.false_eq_true, if_false, List.length_cons]
  split
  · simp
  · simp only
    omega

theorem isWordChar_eq_false_of_leadingUnit_eq_nil {first : Char} {rest : Text}
    (hunit : leadingUnit (first :: rest) = []) : isWordChar first = false := by
  cases hword : isWordChar first with
  | false => rfl
  | true =>
      rw [leadingUnit, if_pos (isUnitChar_of_isWordChar hword)] at hunit
      split at hunit <;> cases hunit

/-- One round of the pass: what becomes of a unit and its filler, and what is left to
do. -/
structure Round where
  pieces : List Piece
  room : Room
  rest : Text

/-- The room in front of a unit, once it has been moved to a new line if need be. -/
def roomForUnit (wrap : TextWrap) (room : Room) (unit : Text) : Room :=
  if Overflows wrap.usable room unit then some wrap.usable else room

/-- The round that starts at the unit in front of `text`, with `room` left. -/
def round (wrap : TextWrap) (room : Room) (text : Text) : Round :=
  let unit := leadingUnit text
  let moved := if Overflows wrap.usable room unit then [Piece.lineBreak] else []
  let filler :=
    takeFiller wrap.usable ((roomForUnit wrap room unit).map (· - unit.length))
      (text.drop unit.length)
  let pieces := moved ++ unit.map .kept ++ filler.pieces
  if filler.room = some 0 then
    let spaces := filler.rest.takeWhile (· = ' ')
    { pieces := pieces ++ [.lineBreak, .dropped spaces.length]
      room := some wrap.usable
      rest := filler.rest.drop spaces.length }
  else { pieces, room := filler.room, rest := filler.rest }

/-- Work left to do: text, or else a line break that is due. -/
def workLeft (room : Room) (text : Text) : Nat :=
  2 * text.length + if room = some 0 then 1 else 0

theorem usable_ne_zero (wrap : TextWrap) : (some (wrap.usable : Int)) ≠ some 0 := by
  have hpos := wrap.usable_pos
  simp only [ne_eq, Option.some.injEq]
  omega

theorem round_workLeft_lt (wrap : TextWrap) (room : Room) {text : Text}
    (htext : text ≠ []) :
    workLeft (round wrap room text).room (round wrap room text).rest <
      workLeft room text := by
  obtain ⟨first, rest, rfl⟩ := List.exists_cons_of_ne_nil htext
  generalize hunit : leadingUnit (first :: rest) = unit
  have hle := takeFiller_rest_length_le wrap.usable
    ((roomForUnit wrap room unit).map (· - unit.length)) ((first :: rest).drop unit.length)
  have hprogress :
      (takeFiller wrap.usable ((roomForUnit wrap room unit).map (· - unit.length))
        ((first :: rest).drop unit.length)).rest.length < (first :: rest).length ∨
      room = some 0 ∧
        (takeFiller wrap.usable ((roomForUnit wrap room unit).map (· - unit.length))
          ((first :: rest).drop unit.length)).room = some 0 := by
    cases unit with
    | cons char unit =>
        left
        simp only [List.length_drop, List.length_cons] at hle ⊢
        omega
    | nil =>
        have hword := isWordChar_eq_false_of_leadingUnit_eq_nil hunit
        by_cases hroom : roomForUnit wrap room [] = some 0
        · right
          have hstays : ¬ Overflows wrap.usable room [] := by
            intro hoverflows
            rw [roomForUnit, if_pos hoverflows] at hroom
            exact usable_ne_zero wrap hroom
          refine ⟨by simpa [roomForUnit, hstays] using hroom, ?_⟩
          simp [hroom, takeFiller]
        · left
          refine takeFiller_progress ?_ hword
          simpa using hroom
  have hspaces (filler : Text) :
      (filler.drop (filler.takeWhile (· = ' ')).length).length ≤ filler.length := by
    simp
  simp only [round, hunit]
  rcases hprogress with hshorter | ⟨hroom, hfull⟩
  · split
    · have hdrop := hspaces (takeFiller wrap.usable
        ((roomForUnit wrap room unit).map (· - unit.length))
        ((first :: rest).drop unit.length)).rest
      simp only [workLeft]
      split <;> split <;> omega
    · simp only [workLeft]
      split <;> split <;> omega
  · rw [if_pos hfull]
    have hdrop := hspaces (takeFiller wrap.usable
      ((roomForUnit wrap room unit).map (· - unit.length))
      ((first :: rest).drop unit.length)).rest
    simp only [workLeft]
    rw [if_neg (usable_ne_zero wrap), if_pos hroom]
    rw [List.length_drop] at hle
    omega

/-- What becomes of a text, with `room` left on the line it starts on. -/
def layout (wrap : TextWrap) (room : Room) (text : Text) : List Piece :=
  if _hdone : text = [] then []
  else
    let next := round wrap room text
    next.pieces ++ layout wrap next.room next.rest
termination_by workLeft room text
decreasing_by exact round_workLeft_lt wrap room ‹¬text = []›

end Wrap

namespace Line

/-- Does to a line what a piece says. The position is where the piece starts, and
afterwards where it ends. -/
def applyPiece (wrap : TextWrap) (state : Line × Nat) (piece : Wrap.Piece) :
    Except EditError (Line × Nat) := do
  let (line, position) := state
  match piece with
  | .kept char => return (line, position + char.utf8Size)
  | .lineBreak =>
      let line ← line.insertChars position 1 '\n'
      let line ← line.insertChars (position + 1) wrap.indent ' '
      return (line, position + 1 + wrap.indent)
  | .margin =>
      let line ← line.insertChars position wrap.indent ' '
      return (line, position + wrap.indent)
  | .dropped count =>
      let line ← line.erase position count
      return (line, position)

/-- The room on the line that the text after `before` continues. A newline right
there leaves one column more than the width. -/
def roomAt (wrap : TextWrap) (before after : Text) : Wrap.Room :=
  let column : Int :=
    if after.head? = some '\n' then -1
    else Text.byteLength (before.reverse.takeWhile (· ≠ '\n'))
  if wrap.width ≤ column then none else some (wrap.width - column)

def wrapFrom (wrap : TextWrap) (line : Line) (index : Nat) : Except EditError Line :=
  match Text.splitAt? index line.text with
  | none => .error (.insertAt index line.length)
  | some (before, after) => do
      let pieces := Wrap.layout wrap (roomAt wrap before after) after
      let (wrapped, _) ← pieces.foldlM (applyPiece wrap) (line, index)
      return wrapped

/-- Inserts a line at a byte offset, and wraps the result from there on if it is wider
than asked for. -/
def insert (line : Line) (index : Nat) (fragment : Line) (wrap : Option TextWrap) :
    Except EditError Line := do
  let joined ← line.insertPlain index fragment
  match wrap with
  | some wrap =>
      if wrap.width < joined.length then joined.wrapFrom wrap index else return joined
  | none => return joined

end Line

end LinePainter
