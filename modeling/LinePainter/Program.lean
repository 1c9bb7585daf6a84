import LinePainter.Options
import LinePainter.Painting
import LinePainter.Palette.Xterm
import LinePainter.SampleLog
import LinePainter.Terminal.Screen

namespace LinePainter

/-! The program paints the sample on a frame as wide as asked for and shows it. -/

inductive ProgramError where
  | sample (error : SampleError)
  | tooManyLines
  | paint (error : PaintError)
  deriving DecidableEq

namespace ProgramError

def message : ProgramError → String
  | sample error => error.message
  | tooManyLines => "too many lines"
  | paint error => error.message

end ProgramError

namespace Program

/-- Paints lines on the rows from `y` down. The last one is the status line. -/
def paintRows (frame : Frame) (theme : Theme) (y : Nat) :
    List Line → Except PaintError (Frame × Theme)
  | [] => .ok (frame, theme)
  | line :: rest => do
      let role := if rest.isEmpty then Role.status else Role.text
      let (frame, theme) ← frame.paint theme 0 y line ⟨0, some frame.width⟩ role
      paintRows frame theme (y + 1) rest

def picture (options : Options) : Except ProgramError (Frame × Theme) := do
  let theme := Theme.build Palette.xterm options.capabilities options.settings
  let lines ← (SampleLog.lines theme options.width).mapError .sample
  if 65536 ≤ lines.length then throw .tooManyLines
  (paintRows (Frame.empty options.width lines.length) theme 0 lines).mapError .paint

def run (options : Options) : Except ProgramError String := do
  let (frame, theme) ← picture options
  return frame.toTerminal theme.colorsOf ++ "\n"

/-- What a run leaves behind: an exit code and two texts. -/
structure Outcome where
  code : Nat
  output : String
  complaint : String

def complain (code : Nat) (message : String) : Outcome :=
  ⟨code, "", s!"vista: {message}\n"⟩

def outcome (arguments : List String) : Outcome :=
  match Options.parse arguments with
  | .error error => complain 2 error.message
  | .ok options =>
      match run options with
      | .error error => complain 1 error.message
      | .ok output => ⟨0, output, ""⟩

end Program

end LinePainter
