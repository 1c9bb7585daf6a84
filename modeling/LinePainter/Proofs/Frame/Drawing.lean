import LinePainter.Proofs.Frame.Grid

namespace LinePainter

/-! What is drawn on a frame shows as on a plane on which every cell is set by itself.
Drawings are cut off at the edges, also when they are read back. -/

inductive Drawing where
  | text (x y : Nat) (chars : List Char) (look : Look)
  | rule (x y : Nat) (char : Char) (count : Nat) (look : Look)
  | cells (x y : Nat) (cells : List Cell)
  | clear

namespace Drawing

/-- The only row that a drawing changes. -/
def row? : Drawing → Option Nat
  | text _ y _ _ => some y
  | rule _ y _ _ _ => some y
  | cells _ y _ => some y
  | clear => none

end Drawing

/-- A cell for every column and row. -/
abbrev Plane (width height : Nat) := Fin width → Fin height → Cell

namespace Plane

variable {width height : Nat}

def blank : Plane width height := fun _ _ => Cell.empty

/-- Cell `index` of the run goes `index` columns to the right of `(x, y)`. -/
def put (plane : Plane width height) (x y : Nat) (run : List Cell) : Plane width height :=
  fun column row =>
    if row.val = y ∧ x ≤ column.val then run[column.val - x]?.getD (plane column row)
    else plane column row

def draw (plane : Plane width height) : Drawing → Plane width height
  | .text x y chars look => plane.put x y (chars.map (Cell.ofChar · look))
  | .rule x y char count look => plane.put x y (List.replicate count (Cell.ofChar char look))
  | .cells x y cells => plane.put x y cells
  | .clear => blank

def drawAll (plane : Plane width height) (drawings : List Drawing) : Plane width height :=
  drawings.foldl draw plane

def get? (plane : Plane width height) (x y : Nat) : Option Cell :=
  if hinside : x < width ∧ y < height then some (plane ⟨x, hinside.1⟩ ⟨y, hinside.2⟩)
  else none

theorem get?_of_lt (plane : Plane width height) {x y : Nat} (hx : x < width) (hy : y < height) :
    plane.get? x y = some (plane ⟨x, hx⟩ ⟨y, hy⟩) :=
  dif_pos ⟨hx, hy⟩

theorem get?_eq_none (plane : Plane width height) {x y : Nat}
    (houtside : ¬ (x < width ∧ y < height)) : plane.get? x y = none :=
  dif_neg houtside

theorem put_of_ne (plane : Plane width height) (x : Nat) {y : Nat} (run : List Cell)
    (column : Fin width) {row : Fin height} (hrow : row.val ≠ y) :
    plane.put x y run column row = plane column row :=
  if_neg fun hhit => hrow hhit.1

/-- A drawing leaves the other rows alone. -/
theorem draw_of_ne (plane : Plane width height) {drawing : Drawing} {y : Nat}
    (hdrawing : drawing.row? = some y) (column : Fin width) {row : Fin height}
    (hrow : row.val ≠ y) : plane.draw drawing column row = plane column row := by
  cases drawing <;> cases hdrawing <;> exact put_of_ne plane _ _ column hrow

end Plane

namespace Frame

def draw (frame : Frame) : Drawing → Frame
  | .text x y chars look => frame.putText x y chars look
  | .rule x y char count look => frame.putRule x y char count look
  | .cells x y cells => frame.write x y cells
  | .clear => frame.clear

def drawAll (frame : Frame) (drawings : List Drawing) : Frame :=
  drawings.foldl draw frame

/-- A rule is as long as there is room for, which is what a write cuts it down to. -/
theorem putRule_eq_write (frame : Frame) (x y : Nat) (char : Char) (count : Nat) (look : Look) :
    frame.putRule x y char count look =
      frame.write x y (List.replicate count (Cell.ofChar char look)) := by
  rw [putRule, write, write, List.take_replicate, List.take_replicate, Nat.min_comm count,
    ← Nat.min_assoc, Nat.min_self]

/-- Cell by cell, the frame holds what the plane does. -/
structure Depicts {width height : Nat} (frame : Frame) (plane : Plane width height) : Prop where
  width_eq : frame.width = width
  height_eq : frame.height = height
  get?_eq : ∀ x y, frame.get? x y = plane.get? x y

theorem depicts_blank (width height : Nat) :
    (empty width height).Depicts (Plane.blank : Plane width height) := by
  refine ⟨rfl, rfl, fun x y => ?_⟩
  by_cases hinside : (empty width height).InBounds x y
  · obtain ⟨cell, hcell⟩ := hinside.exists_get?
    rw [hcell, eq_empty_of_get?_empty hcell]
    exact (Plane.blank.get?_of_lt hinside.1 hinside.2).symm
  · rw [get?, if_neg hinside]
    exact (Plane.blank.get?_eq_none hinside).symm

variable {width height : Nat} {frame : Frame} {plane : Plane width height}

namespace Depicts

theorem write (hdepicts : frame.Depicts plane) (x y : Nat) (cells : List Cell) :
    (frame.write x y cells).Depicts (plane.put x y cells) := by
  obtain ⟨rfl, rfl, hget⟩ := hdepicts
  refine ⟨rfl, rfl, fun x' y' => ?_⟩
  rw [get?_write, hget]
  by_cases hinside : frame.InBounds x' y'
  · rw [Plane.get?_of_lt _ hinside.1 hinside.2, Plane.get?_of_lt _ hinside.1 hinside.2, Plane.put]
    by_cases hrun : y' = y ∧ x ≤ x'
    · rw [if_pos hrun]
      by_cases hreached : x' < x + cells.length
      · have hindex : x' - x < cells.length := by omega
        rw [if_pos ⟨hinside, hrun.1, hrun.2, hreached⟩, List.getElem?_eq_getElem hindex,
          Option.getD_some]
      · have hpast : cells.length ≤ x' - x := by omega
        rw [if_neg fun hhit => hreached hhit.2.2.2, List.getElem?_eq_none hpast, Option.getD_none]
    · rw [if_neg fun hhit => hrun ⟨hhit.2.1, hhit.2.2.1⟩, if_neg hrun]
  · rw [if_neg fun hhit => hinside hhit.1, Plane.get?_eq_none _ hinside,
      Plane.get?_eq_none _ hinside]

theorem draw (hdepicts : frame.Depicts plane) (drawing : Drawing) :
    (frame.draw drawing).Depicts (plane.draw drawing) := by
  cases drawing with
  | text x y chars look => exact hdepicts.write x y _
  | rule x y char count look =>
      rw [Frame.draw, putRule_eq_write]
      exact hdepicts.write x y _
  | cells x y cells => exact hdepicts.write x y cells
  | clear =>
      obtain ⟨rfl, rfl, -⟩ := hdepicts
      exact depicts_blank frame.width frame.height

theorem drawAll (hdepicts : frame.Depicts plane) (drawings : List Drawing) :
    (frame.drawAll drawings).Depicts (plane.drawAll drawings) := by
  induction drawings generalizing frame plane with
  | nil => exact hdepicts
  | cons drawing rest ih => exact ih (hdepicts.draw drawing)

end Depicts

theorem take_read_succ (frame : Frame) (x y length : Nat) :
    (frame.read x y (length + 1)).take length = frame.read x y length := by
  apply List.ext_getElem?
  intro index
  rw [List.getElem?_take, getElem?_read, getElem?_read]
  by_cases hindex : index < length
  · rw [if_pos hindex, if_pos hindex, if_pos (Nat.lt_succ_of_lt hindex)]
  · rw [if_neg hindex, if_neg hindex]

theorem read_succ (frame : Frame) (x y length : Nat) :
    frame.read x y (length + 1) =
      frame.read x y length ++ (frame.get? (x + length) y).toList := by
  have hlength : (frame.read x y (length + 1)).length ≤ length + 1 := by
    rw [length_read]
    exact Nat.min_le_left ..
  calc
    frame.read x y (length + 1) = (frame.read x y (length + 1)).take (length + 1) :=
      (List.take_of_length_le hlength).symm
    _ = frame.read x y length ++ (frame.get? (x + length) y).toList := by
      rw [List.take_add_one, take_read_succ, getElem?_read, if_pos (Nat.lt_succ_self _)]

/-- Reading gives the cells of a run that are there. -/
theorem read_eq_filterMap (frame : Frame) (x y length : Nat) :
    frame.read x y length =
      (List.range length).filterMap fun index => frame.get? (x + index) y := by
  induction length with
  | zero =>
      apply List.eq_nil_of_length_eq_zero
      rw [length_read, Nat.zero_min]
  | succ length ih =>
      rw [read_succ, ih, List.range_succ, List.filterMap_append, List.filterMap_cons]
      cases frame.get? (x + length) y <;> rfl

namespace Depicts

theorem read_eq (hdepicts : frame.Depicts plane) (x y length : Nat) :
    frame.read x y length =
      (List.range length).filterMap fun index => plane.get? (x + index) y := by
  simp only [read_eq_filterMap, hdepicts.get?_eq]

theorem row?_eq (hdepicts : frame.Depicts plane) (y : Nat) :
    frame.row? y =
      if hrow : y < height then some (List.ofFn fun column => plane column ⟨y, hrow⟩)
      else none := by
  obtain ⟨rfl, rfl, hget⟩ := hdepicts
  rw [row?]
  split
  · next hrow =>
      rw [Option.some_inj]
      apply List.ext_getElem?
      intro x
      rw [getElem?_read, hget, Nat.zero_add, List.getElem?_ofFn]
      split
      · next hcolumn => exact plane.get?_of_lt hcolumn hrow
      · rfl
  · rfl

end Depicts

/-- The part of the cells that a run takes up lies within the part of its row. -/
theorem run_within_row {frame : Frame} {x y : Nat} (hinside : frame.InBounds x y)
    (length : Nat) :
    y * frame.width ≤ frame.position x y ∧
      frame.position x y + min length (frame.room x y) ≤ (y + 1) * frame.width ∧
      (y + 1) * frame.width ≤ frame.width * frame.height := by
  have hend := frame.row_end_le hinside.2
  have hcolumn := hinside.1
  rw [room_of_lt hinside.2, Nat.succ_mul]
  unfold position at hend ⊢
  omega

/-- A frame made of any drawings holds what a plane does on which every cell is set by
itself. Reads find those cells, rows are whole, and no drawing changes a second row. There
are as many cells as before, and no run leaves the part of them that is its row. -/
theorem drawings_are_clipped (width height : Nat) (drawings : List Drawing) :
    let frame := (empty width height).drawAll drawings
    let plane := (Plane.blank : Plane width height).drawAll drawings
    (∀ x y, frame.get? x y = plane.get? x y) ∧
      (∀ x y length, frame.read x y length =
        (List.range length).filterMap fun index => plane.get? (x + index) y) ∧
      (∀ y, frame.row? y =
        if hrow : y < height then some (List.ofFn fun column => plane column ⟨y, hrow⟩)
        else none) ∧
      (∀ drawing y, drawing.row? = some y →
        ∀ other, other ≠ y → (frame.draw drawing).row? other = frame.row? other) ∧
      frame.width = width ∧ frame.height = height ∧
      frame.cells.toList.length = width * height ∧
      ∀ x y length, frame.InBounds x y →
        y * width ≤ frame.position x y ∧
          frame.position x y + min length (frame.room x y) ≤ (y + 1) * width ∧
          (y + 1) * width ≤ width * height := by
  intro frame plane
  have hdepicts : frame.Depicts plane := (depicts_blank width height).drawAll drawings
  refine ⟨hdepicts.get?_eq, hdepicts.read_eq, hdepicts.row?_eq, ?_, hdepicts.width_eq,
    hdepicts.height_eq, ?_, ?_⟩
  · intro drawing y hdrawing other hother
    rw [(hdepicts.draw drawing).row?_eq, hdepicts.row?_eq]
    split
    · next hrow =>
        have hkept (column : Fin width) :
            plane.draw drawing column ⟨other, hrow⟩ = plane column ⟨other, hrow⟩ :=
          plane.draw_of_ne hdrawing column hother
        simp only [hkept]
    · rfl
  · rw [Vector.length_toList, hdepicts.width_eq, hdepicts.height_eq]
  · intro x y length hinside
    have hrun := run_within_row hinside length
    rwa [hdepicts.width_eq, hdepicts.height_eq] at hrun

end Frame

end LinePainter
