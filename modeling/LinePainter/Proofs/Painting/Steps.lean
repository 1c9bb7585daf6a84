import LinePainter.CheckedPainting
import LinePainter.Proofs.Frame.Grid
import LinePainter.Proofs.Painting.Permanence

namespace LinePainter

/-! Painting one step after the other on a frame. Every part that is taken of the glyphs,
the colors or the cells and every column of the screen is checked before it is used. -/

/-- Columns of the screen are counted in 16 bits. -/
def screenColumns : Nat := 0x10000

/-- Why painting step by step stops. -/
inductive PaintStop where
  | stopped (stop : ColumnStop)
  | outOfRange (start stop length : Nat)
  | offScreen (column : Nat)
  deriving DecidableEq

/-- A step of painting. Where it stops, what was painted before it stays. -/
abbrev PaintStep := EStateM PaintStop Canvas

namespace Frame

/-- Where in the cells of the frame a run along a row starts and stops. -/
def run? (frame : Frame) (x y length : Nat) : Option (Nat × Nat) :=
  if frame.InBounds x y ∧ 0 < length then
    some (frame.position x y, frame.position x y + min length (frame.width - x))
  else none

theorem run?_cases (frame : Frame) (x y length : Nat) :
    (frame.run? x y length = none ∧ min length (frame.room x y) = 0) ∨
      (frame.run? x y length =
          some (frame.position x y, frame.position x y + min length (frame.room x y)) ∧
        frame.position x y + min length (frame.room x y) ≤ frame.width * frame.height) := by
  unfold run?
  split
  · next hrun =>
      have hsize := position_add_room_le hrun.1
      refine .inr ⟨by rw [room_of_lt hrun.1.2], ?_⟩
      omega
  · next hnone =>
      refine .inl ⟨rfl, ?_⟩
      rw [Nat.min_eq_zero_iff, or_iff_not_imp_left]
      intro hlength
      exact room_eq_zero_of_not_inBounds fun hinside =>
        hnone ⟨hinside, Nat.pos_of_ne_zero hlength⟩

end Frame

/-- The colors asked for on each column of a row, from the first time on that one is
asked for. -/
structure Inks where
  foregrounds : Option (List ColorId) := none
  backgrounds : Option (List ColorId) := none

namespace Inks

def foregroundsOf (inks : Inks) (width : Nat) : List ColorId :=
  inks.foregrounds.getD (List.replicate width .white)

def backgroundsOf (inks : Inks) (width : Nat) : List ColorId :=
  inks.backgrounds.getD (List.replicate width .black)

def colorsOf (inks : Inks) (width : Nat) : List (ColorId × ColorId) :=
  (inks.foregroundsOf width).zip (inks.backgroundsOf width)

end Inks

namespace PaintStep

def ofColumns {α : Type} : Except ColumnStop α → PaintStep α
  | .ok value => pure value
  | .error stop => throw (.stopped stop)

def checkRange (start stop length : Nat) : PaintStep Unit :=
  if start ≤ stop ∧ stop ≤ length then pure () else throw (.outOfRange start stop length)

def slice {α : Type} (values : List α) (start stop : Nat) : PaintStep (List α) := do
  checkRange start stop values.length
  return values.extract start stop

def fill (colors : List ColorId) (start stop : Nat) (color : ColorId) :
    PaintStep (List ColorId) := do
  checkRange start stop colors.length
  return colors.mapIdx fun position old =>
    if start ≤ position ∧ position < stop then color else old

def screenColumn (x offset : Nat) : PaintStep Nat :=
  if x + offset < screenColumns then return x + offset else throw (.offScreen (x + offset))

def readCells (x y length : Nat) : PaintStep (List Cell) := do
  let canvas ← get
  match canvas.frame.run? x y length with
  | none => return []
  | some (start, stop) => slice canvas.frame.cells.toList start stop

def writeCells (x y : Nat) (cells : List Cell) : PaintStep Unit := do
  let canvas ← get
  match canvas.frame.run? x y cells.length with
  | none => return ()
  | some (start, stop) =>
      let part ← slice cells 0 (stop - start)
      checkRange start stop canvas.frame.cells.toList.length
      set { canvas with frame.cells := Frame.setRun canvas.frame.cells start part }

def changeCells (x y length : Nat) (change : Cell → Cell) : PaintStep Unit := do
  let cells ← readCells x y length
  writeCells x y (cells.map change)

def glyphsWithin (glyphs : List Char) (windowStart width : Nat) : PaintStep (List Char) :=
  if windowStart < glyphs.length then
    slice glyphs windowStart (min (windowStart + width) glyphs.length)
  else return []

def layBase (x y windowStart width : Nat) (glyphs : List Char) (look : Look) :
    PaintStep Unit := do
  let visible ← glyphsWithin glyphs windowStart width
  checkRange 0 visible.length width
  writeCells x y (visible.map (Cell.ofChar · look))
  let column ← screenColumn x visible.length
  writeCells column y (List.replicate (width - visible.length) (Cell.ofChar ' ' look))

def stampRun (x y width start stop : Nat) (inks : Inks) : Directive → PaintStep Inks
  | .style look =>
      if look.isNoop then return inks
      else do
        let column ← screenColumn x start
        changeCells column y (stop - start) fun cell =>
          { cell with look := cell.look.overlay look }
        return inks
  | .graphic glyph => do
      let column ← screenColumn x start
      changeCells column y (stop - start) (·.withChar glyph)
      return inks
  | .foreground color => do
      let colors ← fill (inks.foregroundsOf width) start stop color
      return { inks with foregrounds := some colors }
  | .background color => do
      let colors ← fill (inks.backgroundsOf width) start stop color
      return { inks with backgrounds := some colors }
  | .custom _ _ => return inks

def stampAttribute (counting : Counting) (expansion : Expansion) (x y windowStart width : Nat)
    (inks : Inks) (attr : Attribute) : PaintStep Inks :=
  if attr.directive.isShown then do
    match ← ofColumns (expansion.clipBy counting attr.span windowStart width) with
    | some (start, stop) => stampRun x y width start stop inks attr.directive
    | none => return inks
  else return inks

/-- Turns the colors into pairs, for as many columns as there are cells. -/
def flatten (x y width : Nat) (inks : Inks) : PaintStep Unit :=
  if inks.foregrounds.isSome || inks.backgrounds.isSome then do
    let cells ← readCells x y width
    let canvas ← get
    let (pairs, table) :=
      canvas.theme.pairs.requestAll ((inks.colorsOf width).take cells.length)
    set { canvas with theme.pairs := table }
    writeCells x y (List.zipWith Cell.withPair cells pairs)
  else return ()

def paintLine (counting : Counting) (x y : Nat) (line : Line) (window : Span) (role : Role) :
    PaintStep Unit := do
  match window.windowBounds, line.fault? with
  | .error error, _ => throw (.stopped (.rejected error))
  | .ok _, some fault => throw (.stopped (.rejected (.spanFault fault)))
  | .ok (start, length), none =>
      let canvas ← get
      let width := min length (canvas.frame.width - x)
      let expansion := Expansion.ofText line.text
      layBase x y start width expansion.glyphs (canvas.theme.look role)
      let inks ← line.stampOrder.foldlM (stampAttribute counting expansion x y start width) {}
      flatten x y width inks

end PaintStep

/-! Each step by itself. -/

namespace PaintStep

variable {canvas : Canvas}

theorem run_bind_of_ok {α β : Type} {step : PaintStep α} {value : α} {after : Canvas}
    (hstep : step.run canvas = .ok value after) (next : α → PaintStep β) :
    (step >>= next).run canvas = (next value).run after := by
  rw [EStateM.run_bind, hstep]

theorem run_checkRange {start stop length : Nat} (horder : start ≤ stop)
    (hlength : stop ≤ length) : (checkRange start stop length).run canvas = .ok () canvas := by
  rw [checkRange, if_pos ⟨horder, hlength⟩]
  rfl

theorem run_slice {α : Type} {values : List α} {start stop : Nat} (horder : start ≤ stop)
    (hlength : stop ≤ values.length) :
    (slice values start stop).run canvas = .ok (values.extract start stop) canvas := by
  rw [slice, run_bind_of_ok (run_checkRange horder hlength)]
  rfl

theorem run_screenColumn {x offset : Nat} (hscreen : x + offset < screenColumns) :
    (screenColumn x offset).run canvas = .ok (x + offset) canvas := by
  rw [screenColumn, if_pos hscreen]
  rfl

theorem run_readCells (x y length : Nat) :
    (readCells x y length).run canvas = .ok (canvas.frame.read x y length) canvas := by
  rw [readCells, run_bind_of_ok (EStateM.run_get _)]
  rcases canvas.frame.run?_cases x y length with ⟨hnone, hroom⟩ | ⟨hrun, hsize⟩
  · have hread : canvas.frame.read x y length = [] := by
      apply List.eq_nil_of_length_eq_zero
      rw [Frame.length_read, hroom]
    rw [hnone, hread]
    rfl
  · rw [hrun]
    dsimp only
    rw [run_slice (Nat.le_add_right ..) (by rwa [Vector.length_toList]), Frame.read,
      Array.toList_extract, Vector.toList_toArray]

theorem run_writeCells (x y : Nat) (cells : List Cell) :
    (writeCells x y cells).run canvas =
      .ok () { canvas with frame := canvas.frame.write x y cells } := by
  rw [writeCells, run_bind_of_ok (EStateM.run_get _)]
  rcases canvas.frame.run?_cases x y cells.length with ⟨hnone, hroom⟩ | ⟨hrun, hsize⟩
  · have hwrite : canvas.frame.write x y cells = canvas.frame := by
      rcases Nat.min_eq_zero_iff.mp hroom with hcells | hroom
      · rw [List.eq_nil_of_length_eq_zero hcells, Frame.write_nil]
      · exact Frame.write_eq_self_of_room hroom cells
    rw [hnone, hwrite]
    rfl
  · have hpart : cells.extract 0 (min cells.length (canvas.frame.room x y)) =
        cells.take (canvas.frame.room x y) := by
      rw [List.extract_eq_take_drop, Nat.sub_zero, List.drop_zero, List.take_eq_take_iff]
      omega
    rw [hrun]
    dsimp only
    rw [Nat.add_sub_cancel_left, run_bind_of_ok (run_slice (Nat.zero_le _) (Nat.min_le_left ..)),
      run_bind_of_ok (run_checkRange (Nat.le_add_right ..) (by rwa [Vector.length_toList])),
      hpart]
    rfl

theorem run_changeCells (x y length : Nat) (change : Cell → Cell) :
    (changeCells x y length change).run canvas = .ok () { canvas with
      frame := canvas.frame.write x y ((canvas.frame.read x y length).map change) } := by
  rw [changeCells, run_bind_of_ok (run_readCells x y length), run_writeCells]

theorem run_fill {colors : List ColorId} {start stop : Nat} (horder : start ≤ stop)
    (hlength : stop ≤ colors.length) (color : ColorId) :
    (fill colors start stop color).run canvas =
      .ok (colors.mapIdx fun position old =>
        if start ≤ position ∧ position < stop then color else old) canvas := by
  rw [fill, run_bind_of_ok (run_checkRange horder hlength)]
  rfl

end PaintStep

end LinePainter
