import LinePainter.Frame
import LinePainter.PairTable
import LinePainter.Terminal.Signal

namespace LinePainter

/-! The signals that show a frame. Neighbours that look the same share the signals
that set their look up. -/

namespace Look

def signals (look : Look) (colorsOf : PairId → PairColors) : List Signal :=
  let colors := colorsOf look.pair
  .reset :: look.style.signals ++
    [.rendition colors.foreground.foregroundParameters,
      .rendition colors.background.backgroundParameters]

end Look

namespace Cell

/-- A codepoint that is no character prints as a space. -/
def signal (cell : Cell) : Signal := .print (cell.charD ' ')

def runSignals (colorsOf : PairId → PairColors) : List Cell → List Signal
  | [] => []
  | first :: rest =>
      first.look.signals colorsOf ++ (first :: rest).map signal

/-- A row ends with a reset, so the next one starts from a known state. -/
def rowSignals (colorsOf : PairId → PairColors) (cells : List Cell) : List Signal :=
  (runs cells).flatMap (runSignals colorsOf) ++ [.reset]

end Cell

namespace Frame

def signals (frame : Frame) (colorsOf : PairId → PairColors) : List Signal :=
  (frame.rows.zipIdx.flatMap fun (row, y) =>
    .cursor 0 y :: Cell.rowSignals colorsOf row) ++ [.reset]

def toTerminal (frame : Frame) (colorsOf : PairId → PairColors) : String :=
  String.ofList (Signal.encodeAll (frame.signals colorsOf))

end Frame

end LinePainter
