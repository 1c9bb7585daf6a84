import LinePainter.Frame

namespace LinePainter

namespace Frame

theorem getElem?_setRun {size : Nat} (cells : Vector Cell size) (position : Nat)
    (run : List Cell) (index : Nat) :
    (setRun cells position run)[index]? =
      if position ≤ index ∧ index < position + run.length ∧ index < size then
        run[index - position]?
      else cells[index]? := by
  induction run generalizing cells position with
  | nil =>
      rw [setRun, if_neg]
      rw [List.length_nil]
      omega
  | cons cell rest ih =>
      rw [setRun, ih, Vector.getElem?_setIfInBounds, List.length_cons]
      rcases Nat.lt_trichotomy index position with hbefore | hat | hafter
      · rw [if_neg (by omega), if_neg (by omega), if_neg (by omega)]
      · subst hat
        rw [if_neg (by omega), if_pos rfl, Nat.sub_self, List.getElem?_cons_zero]
        by_cases hinside : index < size
        · rw [if_pos hinside, if_pos (by omega)]
        · rw [if_neg hinside, if_neg (by omega)]
          exact (Vector.getElem?_eq_none (Nat.le_of_not_lt hinside)).symm
      · obtain ⟨steps, rfl⟩ : ∃ steps, index = position + 1 + steps :=
          Nat.exists_eq_add_of_lt hafter |>.imp fun steps heq => by omega
        rw [if_neg (by omega : position ≠ position + 1 + steps),
          Nat.add_sub_cancel_left,
          show position + 1 + steps - position = steps + 1 by omega,
          List.getElem?_cons_succ]
        congr 1
        apply propext
        omega

/-- A run that stays in its row has no cell of another row. -/
theorem position_within_iff (frame : Frame) {x y length x' y' : Nat}
    (hinside : frame.InBounds x' y') (hroom : length ≤ frame.width - x) :
    (frame.position x y ≤ frame.position x' y' ∧
        frame.position x' y' < frame.position x y + length) ↔
      y' = y ∧ x ≤ x' ∧ x' < x + length := by
  have hcolumn := hinside.1
  unfold position
  rcases Nat.lt_trichotomy y' y with habove | heq | hbelow
  · have hrows := Nat.mul_le_mul_right frame.width habove
    rw [Nat.succ_mul] at hrows
    omega
  · subst heq
    omega
  · have hrows := Nat.mul_le_mul_right frame.width hbelow
    rw [Nat.succ_mul] at hrows
    omega

theorem row_end_le (frame : Frame) {y : Nat} (hrow : y < frame.height) :
    frame.position 0 y + frame.width ≤ frame.width * frame.height := by
  have hrows := Nat.mul_le_mul_right frame.width hrow
  rw [Nat.succ_mul, Nat.mul_comm frame.height] at hrows
  unfold position
  omega

theorem InBounds.position_lt {frame : Frame} {x y : Nat} (hinside : frame.InBounds x y) :
    frame.position x y < frame.width * frame.height := by
  have hsize := frame.row_end_le hinside.2
  have hcolumn := hinside.1
  unfold position at hsize ⊢
  omega

theorem InBounds.exists_get? {frame : Frame} {x y : Nat} (hinside : frame.InBounds x y) :
    ∃ cell, frame.get? x y = some cell := by
  rw [get?, if_pos hinside, Vector.getElem?_eq_getElem hinside.position_lt]
  exact ⟨_, rfl⟩

theorem room_of_lt {frame : Frame} {y : Nat} (hrow : y < frame.height) (x : Nat) :
    frame.room x y = frame.width - x :=
  if_pos hrow

theorem room_eq_zero_of_not_inBounds {frame : Frame} {x y : Nat}
    (houtside : ¬ frame.InBounds x y) : frame.room x y = 0 := by
  unfold room
  split
  · next hrow => exact Nat.sub_eq_zero_of_le (Nat.le_of_not_lt fun hcolumn =>
      houtside ⟨hcolumn, hrow⟩)
  · rfl

theorem position_add_room_le {frame : Frame} {x y : Nat} (hinside : frame.InBounds x y) :
    frame.position x y + frame.room x y ≤ frame.width * frame.height := by
  have hsize := frame.row_end_le hinside.2
  have hcolumn := hinside.1
  rw [room_of_lt hinside.2]
  unfold position at hsize ⊢
  omega

theorem written_within_iff (frame : Frame) {x y x' y' : Nat} (cells : List Cell)
    (hinside : frame.InBounds x' y') :
    (frame.position x y ≤ frame.position x' y' ∧
        frame.position x' y' <
          frame.position x y + (cells.take (frame.room x y)).length) ↔
      y' = y ∧ x ≤ x' ∧ x' < x + cells.length := by
  have hcolumn := hinside.1
  have hroom : (cells.take (frame.room x y)).length ≤ frame.width - x := by
    rw [List.length_take, room]
    split <;> omega
  rw [frame.position_within_iff hinside hroom, List.length_take]
  apply and_congr_right
  intro hsame
  subst hsame
  rw [room_of_lt hinside.2]
  omega

theorem get?_write (frame : Frame) (x y : Nat) (cells : List Cell) (x' y' : Nat) :
    (frame.write x y cells).get? x' y' =
      if frame.InBounds x' y' ∧ y' = y ∧ x ≤ x' ∧ x' < x + cells.length then
        cells[x' - x]?
      else frame.get? x' y' := by
  have hwritten : (frame.write x y cells).get? x' y' =
      if frame.InBounds x' y' then
        (setRun frame.cells (frame.position x y)
          (cells.take (frame.room x y)))[frame.position x' y']?
      else none := rfl
  rw [hwritten, get?]
  by_cases hinside : frame.InBounds x' y'
  · have hwithin := frame.written_within_iff (x := x) (y := y) cells hinside
    rw [if_pos hinside, if_pos hinside, getElem?_setRun]
    by_cases hreached : y' = y ∧ x ≤ x' ∧ x' < x + cells.length
    · obtain ⟨hfrom, hto⟩ := hwithin.mpr hreached
      rw [if_pos ⟨hfrom, hto, hinside.position_lt⟩, if_pos ⟨hinside, hreached⟩]
      obtain ⟨rfl, hleft, -⟩ := hreached
      have hoffset : frame.position x' y' - frame.position x y' = x' - x := by
        unfold position
        omega
      have hcut : x' - x < frame.room x y' := by
        rw [room_of_lt hinside.2]
        exact Nat.sub_lt_sub_right hleft hinside.1
      rw [hoffset, List.getElem?_take_of_lt hcut]
    · rw [if_neg fun hhit => hreached (hwithin.mp ⟨hhit.1, hhit.2.1⟩),
        if_neg fun hhit => hreached hhit.2]
  · rw [if_neg hinside, if_neg hinside, if_neg fun hhit => hinside hhit.1]

theorem eq_empty_of_get?_empty {width height x y : Nat} {cell : Cell}
    (hcell : (empty width height).get? x y = some cell) : cell = Cell.empty := by
  rw [get?] at hcell
  split at hcell
  · exact Vector.eq_of_mem_replicate (Vector.mem_of_getElem? hcell)
  · cases hcell

theorem length_read (frame : Frame) (x y length : Nat) :
    (frame.read x y length).length = min length (frame.room x y) := by
  simp only [read, Array.length_toList, Array.size_extract, Vector.size_toArray]
  by_cases hinside : frame.InBounds x y
  · have hsize := position_add_room_le hinside
    omega
  · rw [room_eq_zero_of_not_inBounds hinside]
    omega

theorem getElem?_read (frame : Frame) (x y length index : Nat) :
    (frame.read x y length)[index]? =
      if index < length then frame.get? (x + index) y else none := by
  by_cases hinside : frame.InBounds (x + index) y
  · have hstart : frame.InBounds x y :=
      ⟨Nat.lt_of_le_of_lt (Nat.le_add_right ..) hinside.1, hinside.2⟩
    have hsize := position_add_room_le hstart
    have hposition : frame.position x y + index = frame.position (x + index) y :=
      Nat.add_assoc ..
    have hroom : index < frame.room x y := by
      have hcolumn := hinside.1
      rw [room_of_lt hinside.2]
      omega
    have hend : min (frame.position x y + min length (frame.room x y))
        (frame.width * frame.height) - frame.position x y = min length (frame.room x y) := by
      omega
    have hreached : index < min length (frame.room x y) ↔ index < length := by omega
    rw [read, Array.getElem?_toList, Array.getElem?_extract, Vector.size_toArray, hend,
      Vector.getElem?_toArray, hposition, get?, if_pos hinside]
    simp only [hreached]
  · have hroom : (frame.read x y length).length ≤ index := by
      rw [length_read, room]
      split
      · next hrow =>
          have hcolumn : ¬ x + index < frame.width := fun hlt => hinside ⟨hlt, hrow⟩
          omega
      · omega
    rw [List.getElem?_eq_none hroom, get?, if_neg hinside, ite_self]

theorem length_read_row (frame : Frame) {y : Nat} (hrow : y < frame.height) :
    (frame.read 0 y frame.width).length = frame.width := by
  rw [length_read, room_of_lt hrow, Nat.sub_zero, Nat.min_self]

/-- The rows of a frame hold its cells. -/
theorem getElem?_rows (frame : Frame) (x y : Nat) :
    frame.rows[y]?.bind (·[x]?) = frame.get? x y := by
  rw [rows, List.getElem?_map]
  by_cases hrow : y < frame.height
  · rw [List.getElem?_range hrow, Option.map_some, Option.bind_some, getElem?_read,
      Nat.zero_add]
    split
    · rfl
    · next hcolumn => rw [get?, if_neg fun hinside => hcolumn hinside.1]
  · rw [List.getElem?_eq_none (by simpa using hrow), get?,
      if_neg fun hinside => hrow hinside.2]
    rfl

theorem getElem?_rows_eq_row? (frame : Frame) (y : Nat) : frame.rows[y]? = frame.row? y := by
  unfold rows row?
  split
  · next hrow => simp [List.getElem?_range hrow]
  · next hrow => simp [Nat.le_of_not_lt hrow]

theorem mem_cells_of_mem_rows {frame : Frame} {row : List Cell} {cell : Cell}
    (hrow : row ∈ frame.rows) (hcell : cell ∈ row) : cell ∈ frame.cells := by
  obtain ⟨y, hy⟩ := List.getElem?_of_mem hrow
  obtain ⟨x, hx⟩ := List.getElem?_of_mem hcell
  have hget : frame.get? x y = some cell := by
    rw [← getElem?_rows, hy, Option.bind_some, hx]
  rw [get?] at hget
  split at hget
  · exact Vector.mem_of_getElem? hget
  · cases hget

end Frame

end LinePainter
