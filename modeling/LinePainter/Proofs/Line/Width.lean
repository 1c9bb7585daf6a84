import LinePainter.Proofs.Line.Typesetting

namespace LinePainter

namespace Wrap

open Text

/-! How wide the rows are that a wrap pass makes. -/

/-- More than `limit` unit characters stand side by side on the row. -/
def HasLongRun (limit : Nat) (row : Text) : Prop :=
  ∃ run, run <:+: row ∧ (∀ char ∈ run, isUnitChar char = true) ∧ limit < run.length

def FitsOrOverruns (wrap : TextWrap) (row : Text) : Prop :=
  row.length ≤ wrap.width ∨ HasLongRun (wrap.width - wrap.indent) row

/-- The room that is left goes with the row as it stands, or a unit has overrun it. -/
def WithinRoom (wrap : TextWrap) (row : Text) (room : Room) : Prop :=
  ∃ left ∈ room,
    0 ≤ left ∧ row.length + left ≤ wrap.width ∨ HasLongRun (wrap.width - wrap.indent) row

variable {wrap : TextWrap} {behind : Bool} {room : Room} {row text unit : Text}

theorem HasLongRun.append {limit : Nat} (hlong : HasLongRun limit row) (more : Text) :
    HasLongRun limit (row ++ more) := by
  obtain ⟨run, hinside, hchars, hlength⟩ := hlong
  exact ⟨run, hinside.trans (List.prefix_append row more).isInfix, hchars, hlength⟩

theorem usable_of_lt (hindent : wrap.indent < wrap.width) :
    wrap.usable = wrap.width - wrap.indent := by
  unfold TextWrap.usable
  omega

namespace WithinRoom

theorem fitsOrOverruns (hwithin : WithinRoom wrap row room) : FitsOrOverruns wrap row := by
  obtain ⟨left, -, ⟨hleft, hlength⟩ | hlong⟩ := hwithin
  · exact .inl (by omega)
  · exact .inr hlong

theorem keepUnit (hwithin : WithinRoom wrap row room) (hindent : wrap.indent < wrap.width)
    (hchars : ∀ char ∈ unit, isUnitChar char = true)
    (hfits : ¬ Overflows wrap.usable room unit) :
    WithinRoom wrap (row ++ unit) (room.map (· - unit.length)) := by
  obtain ⟨left, hleft, ⟨hpos, hlength⟩ | hlong⟩ := hwithin
  · refine ⟨left - unit.length, Option.mem_map_of_mem _ hleft, ?_⟩
    by_cases hshort : (unit.length : Int) ≤ left
    · refine .inl ⟨by omega, ?_⟩
      rw [List.length_append]
      omega
    · -- A unit that does not fit stays where all of the usable width is left.
      have hfresh : left = wrap.usable := by
        by_contra hother
        exact hfits ⟨left, hleft, hother, by omega⟩
      rw [usable_of_lt hindent] at hfresh
      exact .inr ⟨unit, (List.suffix_append row unit).isInfix, hchars, by omega⟩
  · exact ⟨_, Option.mem_map_of_mem _ hleft, .inr (hlong.append unit)⟩

theorem keepFiller (hwithin : WithinRoom wrap row room) (hroom : room ≠ some 0) (char : Char) :
    WithinRoom wrap (row ++ [char]) (room.map (· - 1)) := by
  obtain ⟨left, hleft, hcase⟩ := hwithin
  refine ⟨left - 1, Option.mem_map_of_mem _ hleft, ?_⟩
  have hsome : left ≠ 0 := by
    rintro rfl
    exact hroom hleft
  rcases hcase with ⟨hpos, hlength⟩ | hlong
  · refine .inl ⟨by omega, ?_⟩
    rw [List.length_append, List.length_singleton]
    omega
  · exact .inr (hlong.append [char])

theorem newLine (hindent : wrap.indent < wrap.width) :
    WithinRoom wrap (List.replicate wrap.indent ' ') (some wrap.usable) := by
  refine ⟨wrap.usable, rfl, .inl ⟨by omega, ?_⟩⟩
  rw [List.length_replicate, usable_of_lt hindent]
  omega

theorem behind_taken {taken : Text} (htaken : taken.byteLength < wrap.width) :
    WithinRoom wrap taken (roomBehind wrap taken) := by
  rw [roomBehind, if_neg (Nat.not_le.mpr htaken)]
  have hlength := length_le_byteLength taken
  exact ⟨_, rfl, .inl ⟨by omega, by omega⟩⟩

end WithinRoom

theorem newline_not_mem_of_isUnitChar (hchars : ∀ char ∈ unit, isUnitChar char = true) :
    '\n' ∉ unit :=
  fun hmem => absurd (hchars '\n' hmem) (by decide)

theorem newline_not_mem_replicate (count : Nat) : '\n' ∉ List.replicate count ' ' :=
  fun hmem => absurd (List.eq_of_mem_replicate hmem) (by decide)

theorem Typeset.rows_fit (hset : Typeset wrap behind room text)
    (hindent : wrap.indent < wrap.width) (hrow : '\n' ∉ row)
    (hwithin : WithinRoom wrap row room) :
    ∀ other ∈ rows (row ++ text), FitsOrOverruns wrap other := by
  -- `row` is the line at hand so far. Each step but a newline makes it longer.
  induction hset generalizing row with
  | done =>
      rw [List.append_nil, rows_of_not_mem hrow]
      exact List.forall_mem_singleton.mpr hwithin.fitsOrOverruns
  | @unit _ _ unit _ _ hwhole _ _ hfits _ ih =>
      have hchars := isUnitChar_of_mem_unit hwhole
      rw [← List.append_assoc]
      refine ih ?_ (hwithin.keepUnit hindent hchars hfits)
      rw [List.mem_append, not_or]
      exact ⟨hrow, newline_not_mem_of_isUnitChar hchars⟩
  | @filler _ _ char _ _ hchar hroom _ ih =>
      rw [List.append_cons]
      refine ih ?_ (hwithin.keepFiller hroom char)
      rw [List.mem_append, List.mem_singleton, not_or]
      exact ⟨hrow, Ne.symm hchar⟩
  | newline _ ih =>
      rw [rows_append_newline hrow]
      exact List.forall_mem_cons.mpr ⟨hwithin.fitsOrOverruns,
        ih (newline_not_mem_replicate _) (WithinRoom.newLine hindent)⟩

end Wrap

namespace Line

open Wrap Text

/-- Where the insertion point is within the width, no row from there on is wider than asked
for, unless more unit characters than a fresh line has room for stand on it side by side. -/
theorem insert_keeps_width {line : Line} {before after : Text}
    (htext : line.text = before ++ after) (fragment : Line) (wrap : TextWrap)
    (hindent : wrap.indent < wrap.width) (hcolumn : before.lastRow.byteLength < wrap.width) :
    ∃ wrapped, line.insert before.byteLength fragment (some wrap) = .ok wrapped ∧
      before <+: wrapped.text ∧
      ∀ row ∈ wrapped.text.rowsFrom before,
        row.length ≤ wrap.width ∨ HasLongRun (wrap.width - wrap.indent) row := by
  obtain ⟨wrapped, new, hwrapped, hnew, hcases⟩ := exists_laidOut htext fragment wrap
  refine ⟨wrapped, hwrapped, hnew ▸ List.prefix_append before new, fun row hrow => ?_⟩
  rcases hcases with ⟨hnarrow, -⟩ | hlaid
  · have hlength := length_le_of_mem_rows (List.mem_of_mem_drop hrow)
    exact .inl ((hlength.trans (length_le_byteLength _)).trans hnarrow)
  · have hset : Typeset wrap false (roomBehind wrap before.lastRow) new :=
      hlaid ▸ typeset_roomAt wrap before _
    rw [hnew, rowsFrom_append] at hrow
    exact hset.rows_fit hindent (newline_not_mem_lastRow before)
      (WithinRoom.behind_taken hcolumn) row hrow

theorem insert_keeps_width_beside_overrun :
    let line : Line := ⟨['x', '\n', 'a', 'é', 'x'], []⟩
    let fragment : Line :=
      ⟨['b', 'c', '.', ' ', 'd', 'e', 'f', 'g', 'h', 'i', 'j', ' ', 'é', '\n'], []⟩
    ∃ wrapped, line.insert 3 fragment (some ⟨6, 2⟩) = .ok wrapped ∧
      ['x', '\n', 'a'] <+: wrapped.text ∧
      ∀ row ∈ wrapped.text.rowsFrom ['x', '\n', 'a'],
        row.length ≤ 6 ∨ HasLongRun 4 row := by
  intro line fragment
  have htext : line.text = ['x', '\n', 'a'] ++ ['é', 'x'] := rfl
  exact insert_keeps_width htext fragment ⟨6, 2⟩ (by decide) (by decide)

end Line

end LinePainter
