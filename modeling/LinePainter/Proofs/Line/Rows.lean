import LinePainter.Proofs.Line.Edits
import Mathlib.Data.List.DropRight

namespace LinePainter

namespace Text

/-! The rows of a text are what its newlines set apart. -/

def rows (text : Text) : List Text :=
  text.splitOn '\n'

/-- What of a text stands on its last row. -/
def lastRow (text : Text) : Text :=
  text.rtakeWhile (· ≠ '\n')

/-- The rows of a text that begins with `before`, from the one on in which `before`
ends. -/
def rowsFrom (text before : Text) : List Text :=
  text.rows.drop (before.count '\n')

variable {row text : Text}

theorem rows_of_not_mem (hrow : '\n' ∉ row) : rows row = [row] :=
  List.splitOn_eq_singleton hrow

theorem rows_append_newline (hrow : '\n' ∉ row) (rest : Text) :
    rows (row ++ '\n' :: rest) = row :: rows rest :=
  List.splitOn_append_cons_self_of_not_mem hrow rest

theorem length_rows (text : Text) : (rows text).length = text.count '\n' + 1 := by
  induction text with
  | nil => rfl
  | cons char rest ih =>
      rw [rows, List.splitOn_cons_eq_if_modifyHead, List.count_cons]
      split
      · exact congrArg (· + 1) ih
      · rw [List.length_modifyHead]
        exact ih

theorem head?_rows (text : Text) : (rows text).head? = some (text.takeWhile (· ≠ '\n')) := by
  induction text with
  | nil => rfl
  | cons char rest ih =>
      rw [rows, List.splitOn_cons_eq_if_modifyHead]
      by_cases hchar : char = '\n'
      · simp [hchar]
      · rw [if_neg (by simpa using hchar), List.head?_modifyHead]
        rw [rows] at ih
        rw [ih]
        simp [hchar]

theorem takeWhile_append_of_not_mem (hrow : '\n' ∉ row) (rest : Text) :
    (row ++ rest).takeWhile (· ≠ '\n') = row ++ rest.takeWhile (· ≠ '\n') :=
  List.takeWhile_append_of_pos fun char hmem => by
    simpa using ne_of_mem_of_not_mem hmem hrow

theorem length_le_of_mem_rows (hrow : row ∈ rows text) : row.length ≤ text.length := by
  induction text generalizing row with
  | nil =>
      cases List.mem_singleton.mp hrow
      exact Nat.le_refl 0
  | cons char rest ih =>
      rw [rows, List.splitOn_cons_eq_if_modifyHead] at hrow
      split at hrow
      · rcases List.mem_cons.mp hrow with rfl | hrest
        · exact Nat.zero_le _
        · exact Nat.le_succ_of_le (ih hrest)
      · obtain ⟨first, others, hrows⟩ :=
          List.exists_cons_of_ne_nil (List.splitOn_ne_nil '\n' rest)
        rw [hrows, List.modifyHead_cons] at hrow
        have hwithin {other : Text} (hother : other ∈ first :: others) :
            other.length ≤ rest.length := ih (by rwa [rows, hrows])
        rcases List.mem_cons.mp hrow with rfl | hlater
        · exact Nat.succ_le_succ (hwithin List.mem_cons_self)
        · exact Nat.le_succ_of_le (hwithin (List.mem_cons_of_mem _ hlater))

theorem length_le_byteLength (text : Text) : text.length ≤ text.byteLength := by
  induction text with
  | nil => exact Nat.le_refl 0
  | cons char rest ih =>
      have hsize := char.utf8Size_pos
      rw [List.length_cons, byteLength_cons]
      omega

theorem byteLength_reverse (text : Text) : byteLength text.reverse = text.byteLength := by
  induction text with
  | nil => rfl
  | cons char rest ih =>
      rw [List.reverse_cons, byteLength_append, ih, byteLength_cons, byteLength_cons,
        byteLength_nil, Nat.add_zero, Nat.add_comm]

theorem newline_not_mem_lastRow (text : Text) : '\n' ∉ text.lastRow := fun hmem => by
  simpa using List.mem_rtakeWhile_imp hmem

/-- A text is on one row, or its last row follows a newline. -/
theorem lastRow_cases (text : Text) :
    '\n' ∉ text ∧ text.lastRow = text ∨ ∃ upper, text = upper ++ '\n' :: text.lastRow := by
  have hparts : text.rdropWhile (· ≠ '\n') ++ text.lastRow = text :=
    List.rdropWhile_append_rtakeWhile ..
  have hstop := List.rdropWhile_last_not (· ≠ '\n') text
  generalize text.rdropWhile (· ≠ '\n') = front at hparts hstop
  rcases List.eq_nil_or_concat front with rfl | ⟨upper, last, rfl⟩
  · rw [List.nil_append] at hparts
    exact .inl ⟨hparts ▸ newline_not_mem_lastRow text, hparts⟩
  · have hlast : last = '\n' := by simpa using hstop
    rw [hlast] at hparts
    exact .inr ⟨upper, by simpa using hparts.symm⟩

theorem rowsFrom_append (before rest : Text) :
    rowsFrom (before ++ rest) before = rows (before.lastRow ++ rest) := by
  rcases before.lastRow_cases with ⟨hnone, hlast⟩ | ⟨upper, hupper⟩
  · rw [rowsFrom, List.count_eq_zero.mpr hnone, hlast, List.drop_zero]
  · have hcount : before.count '\n' = (rows upper).length := by
      conv_lhs => rw [hupper]
      rw [length_rows, List.count_append, List.count_cons_self,
        List.count_eq_zero.mpr (newline_not_mem_lastRow before)]
    have hrows : rows (before ++ rest) = rows upper ++ rows (before.lastRow ++ rest) := by
      conv_lhs => rw [hupper]
      rw [List.append_assoc]
      exact List.splitOn_append_cons_self upper (before.lastRow ++ rest)
    rw [rowsFrom, hrows, hcount, List.drop_left]

end Text

end LinePainter
