import LinePainter.PairTable

namespace LinePainter

/-! A role says what a piece of text means. Its recipe says how it should look. -/

inductive Role where
  | text
  | search
  | ok
  | error
  | warning
  | altRow
  | hidden
  | adjustedTime
  | skewedTime
  | offsetTime
  | status
  | warnStatus
  | alertStatus
  | activeStatus
  | activeStatus2
  | boldStatus
  | viewStatus
  | inactiveStatus
  | popup
  | keyword
  | stringLiteral
  | comment
  | variableName
  | symbol
  | reSpecial
  | reRepeat
  | file
  | diffDelete
  | diffAdd
  | diffSection
  | lowThreshold
  | medThreshold
  | highThreshold
  deriving DecidableEq

/-- A palette color by name, and the color to use where no entry has that name. -/
structure NamedColor where
  name : String
  fallback : Rgb

inductive Recipe where
  | styleOnly (style : Style)
  | base (foreground background : ColorId) (style : Style)
  /-- The look of body text, which the settings can dim, under a style. -/
  | body (style : Style)
  | named (foreground background : NamedColor)

namespace Role

def all : List Role := [
  text, search, ok, error, warning, altRow, hidden, adjustedTime, skewedTime, offsetTime,
  status, warnStatus, alertStatus, activeStatus, activeStatus2, boldStatus, viewStatus,
  inactiveStatus, popup, keyword, stringLiteral, comment, variableName, symbol, reSpecial,
  reRepeat, file, diffDelete, diffAdd, diffSection, lowThreshold, medThreshold, highThreshold]

def count : Nat := 33

def index (role : Role) : Fin count :=
  ⟨role.ctorIdx, by cases role <;> decide⟩

theorem mem_all (role : Role) : role ∈ all := by
  cases role <;> decide

def name : Role → String
  | text => "Text"
  | search => "Search"
  | ok => "Ok"
  | error => "Error"
  | warning => "Warning"
  | altRow => "AltRow"
  | hidden => "Hidden"
  | adjustedTime => "AdjustedTime"
  | skewedTime => "SkewedTime"
  | offsetTime => "OffsetTime"
  | status => "Status"
  | warnStatus => "WarnStatus"
  | alertStatus => "AlertStatus"
  | activeStatus => "ActiveStatus"
  | activeStatus2 => "ActiveStatus2"
  | boldStatus => "BoldStatus"
  | viewStatus => "ViewStatus"
  | inactiveStatus => "InactiveStatus"
  | popup => "Popup"
  | keyword => "Keyword"
  | stringLiteral => "String"
  | comment => "Comment"
  | variableName => "Variable"
  | symbol => "Symbol"
  | reSpecial => "ReSpecial"
  | reRepeat => "ReRepeat"
  | file => "File"
  | diffDelete => "DiffDelete"
  | diffAdd => "DiffAdd"
  | diffSection => "DiffSection"
  | lowThreshold => "LowThreshold"
  | medThreshold => "MedThreshold"
  | highThreshold => "HighThreshold"

def ofName? (name : String) : Option Role :=
  all.find? (·.name = name)

def recipe : Role → Recipe
  | text => .body .plain
  | search => .styleOnly { reverse := true }
  | ok => .base .green .black { bold := true }
  | error => .base .red .black { bold := true }
  | warning => .base .yellow .black { bold := true }
  | altRow => .body { bold := true }
  | hidden => .base .yellow .black .plain
  | adjustedTime => .base .magenta .black .plain
  | skewedTime => .base .yellow .black { underline := true }
  | offsetTime => .base .cyan .black .plain
  | status => .base .black .white .plain
  | warnStatus => .base .yellow .white { bold := true }
  | alertStatus => .base .red .white { bold := true }
  | activeStatus => .base .green .white .plain
  | activeStatus2 => .base .green .white { bold := true }
  | boldStatus => .base .black .white { bold := true }
  | viewStatus => .base .white .blue { bold := true }
  | inactiveStatus => .named ⟨"White", Rgb.white⟩ ⟨"Grey37", ⟨95, 95, 95⟩⟩
  | popup => .base .white .cyan { bold := true }
  | keyword => .base .blue .black .plain
  | stringLiteral => .base .green .black { bold := true }
  | comment => .base .green .black .plain
  | variableName => .base .cyan .black .plain
  | symbol => .base .magenta .black .plain
  | reSpecial => .base .cyan .black .plain
  | reRepeat => .base .yellow .black .plain
  | file => .base .blue .black .plain
  | diffDelete => .base .red .black .plain
  | diffAdd => .base .green .black .plain
  | diffSection => .base .magenta .black .plain
  | lowThreshold => .base .black .green .plain
  | medThreshold => .base .black .yellow .plain
  | highThreshold => .base .black .red .plain

end Role

end LinePainter
