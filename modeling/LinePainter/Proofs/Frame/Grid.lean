import LinePainter.Proofs.Frame.Runs

namespace LinePainter

namespace Frame

/-! A frame is what its cells are, and reads and writes are cut off at the same column. -/

theorem ext_get? {left right : Frame} (hwidth : left.width = right.width)
    (hheight : left.height = right.height)
    (hcells : ∀ x y, left.get? x y = right.get? x y) : left = right := by
  obtain ⟨width, height, leftCells⟩ := left
  obtain ⟨_, _, rightCells⟩ := right
  dsimp only at hwidth hheight
  subst hwidth hheight
  congr 1
  apply Vector.ext
  intro index hindex
  have hwidth : 0 < width := Nat.pos_of_mul_pos_right (Nat.zero_lt_of_lt hindex)
  have hcolumn : index % width < width := Nat.mod_lt index hwidth
  have hrow : index / width < height := Nat.div_lt_of_lt_mul hindex
  have hposition : index / width * width + index % width = index := by
    rw [Nat.mul_comm]
    exact Nat.div_add_mod index width
  have hcell := hcells (index % width) (index / width)
  simp only [get?, InBounds, position, hcolumn, hrow, and_self, if_true, hposition] at hcell
  rwa [Vector.getElem?_eq_getElem hindex, Vector.getElem?_eq_getElem hindex,
    Option.some_inj] at hcell

variable (frame : Frame) (x y : Nat)

theorem write_eq_self_of_room {frame : Frame} {x y : Nat} (hroom : frame.room x y = 0)
    (cells : List Cell) : frame.write x y cells = frame := by
  rw [write, hroom, List.take_zero]
  rfl

@[simp] theorem inBounds_write (cells : List Cell) (x' y' : Nat) :
    (frame.write x y cells).InBounds x' y' ↔ frame.InBounds x' y' :=
  Iff.rfl

@[simp] theorem write_nil : frame.write x y [] = frame := by
  rw [write, List.take_nil]
  rfl

/-! Writes on the same row, one after the other. -/

theorem write_write_append (left right : List Cell) :
    (frame.write x y left).write (x + left.length) y right =
      frame.write x y (left ++ right) := by
  refine ext_get? rfl rfl fun x' y' => ?_
  simp only [get?_write, inBounds_write, List.length_append]
  by_cases hinside : frame.InBounds x' y'
  · simp only [hinside, true_and]
    by_cases hleft : y' = y ∧ x ≤ x' ∧ x' < x + left.length
    · rw [if_neg (by omega), if_pos hleft, if_pos (by omega),
        List.getElem?_append_left (by omega)]
    · by_cases hright : y' = y ∧ x + left.length ≤ x' ∧ x' < x + left.length + right.length
      · rw [if_pos hright, if_pos (by omega), List.getElem?_append_right (by omega),
          Nat.sub_sub]
      · rw [if_neg hright, if_neg hleft, if_neg (by omega)]
  · simp only [hinside, false_and, if_false]

/-- What was written before does not show under a run that reaches as far. -/
theorem write_write_of_length_le {under upper : List Cell}
    (hlength : under.length ≤ upper.length) :
    (frame.write x y under).write x y upper = frame.write x y upper := by
  refine ext_get? rfl rfl fun x' y' => ?_
  simp only [get?_write, inBounds_write]
  split
  · rfl
  · next houtside =>
      rw [if_neg]
      rintro ⟨hinside, hsame, hleft, hright⟩
      exact houtside ⟨hinside, hsame, hleft, by omega⟩

/-- Reading a run, changing its cells and writing it back changes the cells that it
reaches. -/
theorem get?_write_map_read (length : Nat) (change : Cell → Cell) (x' y' : Nat) :
    (frame.write x y ((frame.read x y length).map change)).get? x' y' =
      if y' = y ∧ x ≤ x' ∧ x' < x + length then (frame.get? x' y').map change
      else frame.get? x' y' := by
  rw [get?_write, List.length_map, length_read]
  by_cases hinside : frame.InBounds x' y'
  · have hcolumn := hinside.1
    by_cases hreached : y' = y ∧ x ≤ x' ∧ x' < x + length
    · obtain ⟨rfl, hleft, hright⟩ := hreached
      have hroom : x' < x + min length (frame.room x y') := by
        rw [room_of_lt hinside.2]
        omega
      rw [if_pos ⟨hinside, rfl, hleft, hroom⟩, if_pos ⟨rfl, hleft, hright⟩,
        List.getElem?_map, getElem?_read, if_pos (by omega), Nat.add_sub_cancel' hleft]
    · rw [if_neg hreached, if_neg]
      rintro ⟨-, hsame, hleft, hright⟩
      exact hreached ⟨hsame, hleft, by omega⟩
  · rw [if_neg (fun hhit => hinside hhit.1), get?, if_neg hinside, Option.map_none, ite_self]

/-- Changing a part of a run in place is the same as writing the run with that part
changed. -/
theorem change_written_run (cells : List Cell) (start : Nat) {stop : Nat}
    (hstop : stop ≤ cells.length) (change : Cell → Cell) :
    let written := frame.write x y cells
    written.write (x + start) y ((written.read (x + start) y (stop - start)).map change) =
      frame.write x y (cells.mapIdx fun index cell =>
        if start ≤ index ∧ index < stop then change cell else cell) := by
  intro written
  refine ext_get? rfl rfl fun x' y' => ?_
  rw [get?_write_map_read, get?_write, get?_write, List.length_mapIdx, List.getElem?_mapIdx]
  by_cases hreached : frame.InBounds x' y' ∧ y' = y ∧ x ≤ x' ∧ x' < x + cells.length
  · have hpart : (y' = y ∧ x + start ≤ x' ∧ x' < x + start + (stop - start)) ↔
        (start ≤ x' - x ∧ x' - x < stop) := by omega
    simp only [if_pos hreached, hpart]
    split
    · rfl
    · rw [Option.map_id']
  · rw [if_neg hreached, if_neg hreached]
    split
    · next hpart =>
        have houtside : ¬ frame.InBounds x' y' := fun hinside => hreached ⟨hinside, by omega⟩
        rw [get?, if_neg houtside, Option.map_none]
    · rfl

theorem read_write {frame : Frame} {x y : Nat} {cells : List Cell}
    (hroom : cells.length ≤ frame.room x y) :
    (frame.write x y cells).read x y cells.length = cells := by
  apply List.ext_getElem?
  intro index
  rw [getElem?_read]
  split
  · next hindex =>
      have hinside : frame.InBounds (x + index) y := by
        unfold room at hroom
        split at hroom
        · next hrow => exact ⟨by omega, hrow⟩
        · omega
      rw [get?_write, if_pos ⟨hinside, rfl, Nat.le_add_right .., Nat.add_lt_add_left hindex x⟩,
        Nat.add_sub_cancel_left]
  · next hindex => exact (List.getElem?_eq_none (Nat.le_of_not_lt hindex)).symm

end Frame

end LinePainter
