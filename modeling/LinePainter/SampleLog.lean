import LinePainter.Line.Split
import LinePainter.Line.Wrap
import LinePainter.Theme

namespace LinePainter

/-! The sample: a few log lines with attributes of every kind, a rule, a note that is
wrapped to the width, and a status line. -/

inductive SampleError where
  | colorText (error : ColorTextError)
  | edit (error : EditError)
  deriving DecidableEq

namespace SampleError

def message : SampleError → String
  | colorText error => error.message
  | edit error => error.message

end SampleError

namespace Line

def mark (line : Line) (word : String) (directive : Directive) : Line :=
  let start := (Text.find? word.toList line.text).getD 0
  line.addAttribute ⟨start, some (start + Text.byteLength word.toList)⟩ directive

def appendMarked (line : Line) (words : String) (directive : Directive) : Line :=
  (line.appendText words.toList).addAttribute
    ⟨line.length, some (line.length + Text.byteLength words.toList)⟩ directive

end Line

namespace SampleLog

def entry (theme : Theme) (time level : String) (levelRole : Role) (message : String) :
    Line :=
  let timed := ({} : Line).appendMarked time (.style (theme.look .offsetTime))
  let leveled :=
    (timed.appendText [' ']).appendMarked level (.style (theme.look levelRole))
  (leveled.appendText [' ']).appendText message.toList

def info (theme : Theme) : Line :=
  (entry theme "09:30:00.120" "INFO" .ok "server: listening on 0.0.0.0:8080").mark
    "server" (.foreground .cyan)

def warning (theme : Theme) : Line :=
  (entry theme "09:30:01.004" "WARN" .warning "cache:\tmiss rate 42% for café-menu").mark
    "42%" (.style (.ofStyle { bold := true, underline := true }))

def error (theme : Theme) : Except SampleError Line := do
  let highlight ← (theme.pairs.palette.parseColor "#5f87af").mapError .colorText
  let line := entry theme "09:30:02.517" "ERROR" .error "disk: /var is full, 0 bytes free"
  return (line.mark "/var" (.background (theme.pairs.palette.matchColor highlight))).mark
    "/var" (.foreground .white)

def rule (width : Nat) : Line :=
  (Line.ofText (List.replicate width ' ')).addAttribute Span.full (.graphic '─')

def noteText : String :=
  "attributes stay attached to the words they covered when a long message is " ++
    "wrapped, and continuation lines are indented under the first one"

def note (theme : Theme) (width : Nat) : Except EditError Line :=
  let heading :=
    (Line.ofString "note: ").addAttribute ⟨0, some 4⟩ (.style (theme.look .keyword))
  let body :=
    (Line.ofString noteText).addAttribute ⟨0, some 10⟩ (.style (theme.look .variableName))
  heading.insert heading.length body (some { width, indent := 4 })

def status (theme : Theme) : Line :=
  let switched := if theme.pairs.settings.defaultColors then "on]" else "off]"
  (Line.ofString (" vista  sample log  [default colors: " ++ switched)).addAttribute
    ⟨1, some 6⟩ (.style (theme.look .activeStatus2))

/-- All lines, top to bottom. Every piece of the note is a line of its own. -/
def lines (theme : Theme) (width : Nat) : Except SampleError (List Line) := do
  let error ← error theme
  let note ← (note theme width).mapError .edit
  let pieces ← note.splitLines.mapError .edit
  return [info theme, warning theme, error, rule width] ++ pieces ++ [status theme]

end SampleLog

end LinePainter
