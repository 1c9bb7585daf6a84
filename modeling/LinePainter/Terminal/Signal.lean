import LinePainter.Color.Indexed
import LinePainter.Style

namespace LinePainter

/-! What a terminal is told: characters to print, and control sequences that move the
cursor or change how later characters look. -/

inductive Signal where
  /-- Moves the cursor to a row and a column, both counted from one. -/
  | moveTo (row column : Nat)
  /-- Changes the rendition; 0 takes every change back. -/
  | rendition (parameters : List Nat)
  | print (char : Char)
  deriving DecidableEq

namespace Signal

def decimal (number : Nat) : List Char :=
  Nat.toDigits 10 number

/-- A control sequence: its parameters and the character that names it. -/
def control (parameters : List Nat) (final : Char) : List Char :=
  '\x1b' :: '[' :: ([';'].intercalate (parameters.map decimal) ++ [final])

def encode : Signal → List Char
  | moveTo row column => control [row, column] 'H'
  | rendition parameters => control parameters 'm'
  | print char => [char]

def encodeAll (signals : List Signal) : List Char :=
  signals.flatMap encode

def reset : Signal := rendition [0]

/-- The cursor position `(x, y)`, counted from zero. -/
def cursor (x y : Nat) : Signal := moveTo (y + 1) (x + 1)

end Signal

namespace CellColor

/-- The base colors and their bright variants have parameters of their own. -/
def foregroundParameters : CellColor → List Nat
  | indexed id =>
      if id.val < 8 then [30 + id.val]
      else if id.val < 16 then [82 + id.val]
      else [38, 5, id.val]
  | terminalDefault => [39]

def backgroundParameters : CellColor → List Nat
  | indexed id =>
      if id.val < 8 then [40 + id.val]
      else if id.val < 16 then [92 + id.val]
      else [48, 5, id.val]
  | terminalDefault => [49]

end CellColor

namespace Style

/-- Standout is bold and reverse. Reverse on top of standout swaps back. -/
def parameters (style : Style) : List Nat :=
  (if style.bold || style.standout then [1] else []) ++
  (if style.dim then [2] else []) ++
  (if style.italic then [3] else []) ++
  (if style.underline then [4] else []) ++
  (if style.blink then [5] else []) ++
  (if style.reverse != style.standout then [7] else []) ++
  (if style.hidden then [8] else [])

/-- A plain style needs no signal. -/
def signals (style : Style) : List Signal :=
  if style.parameters = [] then [] else [.rendition style.parameters]

end Style

end LinePainter
