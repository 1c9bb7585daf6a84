import LinePainter.Color.Rgb

namespace LinePainter

/-! The 256 numbered terminal colors: eight base colors and their bright
variants, a cube of six levels a side, and a grey ramp. -/

abbrev ColorId := Fin 256

namespace ColorId

def black : ColorId := 0
def red : ColorId := 1
def green : ColorId := 2
def yellow : ColorId := 3
def blue : ColorId := 4
def magenta : ColorId := 5
def cyan : ColorId := 6
def white : ColorId := 7

def IsBase (id : ColorId) : Prop :=
  id.val < 8

instance (id : ColorId) : Decidable id.IsBase :=
  inferInstanceAs (Decidable (id.val < 8))

def systemColors : List Rgb := [
  ⟨0, 0, 0⟩, ⟨128, 0, 0⟩, ⟨0, 128, 0⟩, ⟨128, 128, 0⟩,
  ⟨0, 0, 128⟩, ⟨128, 0, 128⟩, ⟨0, 128, 128⟩, ⟨192, 192, 192⟩,
  ⟨128, 128, 128⟩, ⟨255, 0, 0⟩, ⟨0, 255, 0⟩, ⟨255, 255, 0⟩,
  ⟨0, 0, 255⟩, ⟨255, 0, 255⟩, ⟨0, 255, 255⟩, ⟨255, 255, 255⟩]

def cubeLevel (level : Nat) : Channel :=
  if level = 0 then 0 else Fin.ofNat 256 (55 + 40 * level)

def toRgb (id : ColorId) : Rgb :=
  if id.val < 16 then systemColors[id.val]?.getD Rgb.black
  else if id.val < 232 then
    let cell := id.val - 16
    ⟨cubeLevel (cell / 36), cubeLevel (cell % 36 / 6), cubeLevel (cell % 6)⟩
  else
    let grey := Fin.ofNat 256 (8 + 10 * (id.val - 232))
    ⟨grey, grey, grey⟩

end ColorId

/-- One side of a color pair: a numbered color, or whatever the terminal uses
when it is not told. -/
inductive CellColor where
  | indexed (id : ColorId)
  | terminalDefault
  deriving DecidableEq, Hashable

namespace CellColor

def isDefault : CellColor → Bool
  | indexed _ => false
  | terminalDefault => true

def id? : CellColor → Option ColorId
  | indexed id => some id
  | terminalDefault => none

def ofId? : Option ColorId → CellColor
  | some id => indexed id
  | none => terminalDefault

def describe : CellColor → String
  | indexed id => s!"ansi({id.val})"
  | terminalDefault => "default"

end CellColor

end LinePainter
