import LinePainter.Proofs.Line.RowFilling

namespace LinePainter

namespace Wrap

open Text

/-! Which units overrun the width. On a row that is not full in front of the insertion point
it is those that are first on it; nothing is said of a unit that begins there where just the
usable width is left and is longer than that. -/

variable {wrap : TextWrap} {text more : Text}

/-! A line without limit goes on to the next newline of the text. -/

theorem takeFiller_none_room (usable : Nat) (text : Text) :
    (takeFiller usable none text).room = none ∨
      (takeFiller usable none text).room = some (usable : Int) := by
  induction text with
  | nil => exact .inl rfl
  | cons char rest ih =>
      rw [takeFiller, if_neg (Option.some_ne_none 0).symm]
      split
      · exact .inr rfl
      · split
        · exact .inl rfl
        · exact ih

theorem takeWhile_takeFiller {usable : Nat}
    (hrest : (takeFiller usable none text).room = none →
      more.takeWhile (· ≠ '\n') = (takeFiller usable none text).rest.takeWhile (· ≠ '\n')) :
    ((takeFiller usable none text).pieces.flatMap (Piece.replacement wrap) ++ more).takeWhile
      (· ≠ '\n') = text.takeWhile (· ≠ '\n') := by
  induction text with
  | nil => exact hrest rfl
  | cons char rest ih =>
      rw [takeFiller, if_neg (Option.some_ne_none 0).symm] at hrest ⊢
      by_cases hnewline : char = '\n'
      · rw [if_pos hnewline]
        simp [hnewline, Piece.replacement]
      · rw [if_neg hnewline] at hrest ⊢
        split at hrest
        · next hword =>
            rw [if_pos hword]
            exact hrest rfl
        · next hword =>
            rw [if_neg hword]
            simpa [hnewline, Piece.replacement] using ih hrest

theorem takeWhile_layout (wrap : TextWrap) (room : Room) (text : Text) :
    room = none →
      ((layout wrap room text).flatMap (Piece.replacement wrap)).takeWhile (· ≠ '\n') =
        text.takeWhile (· ≠ '\n') := by
  fun_induction layout wrap room text with
  | case1 room => exact fun _ => rfl
  | case2 room text _ next ih =>
      rintro rfl
      have hstays : ¬ Overflows wrap.usable none (leadingUnit text) := by simp [Overflows]
      have hunlimited : roomForUnit wrap none (leadingUnit text) = none := if_neg hstays
      have hnotFull : (takeFiller wrap.usable none
          (text.drop (leadingUnit text).length)).room ≠ some 0 := by
        rcases takeFiller_none_room wrap.usable (text.drop (leadingUnit text).length) with
          hnone | hfresh
        · rw [hnone]
          exact (Option.some_ne_none 0).symm
        · rw [hfresh]
          exact usable_ne_zero wrap
      have hround : next = ⟨(leadingUnit text).map .kept ++
          (takeFiller wrap.usable none (text.drop (leadingUnit text).length)).pieces,
          (takeFiller wrap.usable none (text.drop (leadingUnit text).length)).room,
          (takeFiller wrap.usable none (text.drop (leadingUnit text).length)).rest⟩ := by
        simp only [next, round, hunlimited, if_neg hstays, Option.map_none, if_neg hnotFull,
          List.nil_append]
      clear_value next
      subst hround
      rw [List.flatMap_append, List.flatMap_append, flatMap_replacement_kept, List.append_assoc,
        takeWhile_append_of_not_mem (newline_not_mem_leadingUnit text), takeWhile_takeFiller ih,
        ← takeWhile_append_of_not_mem (newline_not_mem_leadingUnit text),
        leadingUnit_append_drop]

end Wrap

namespace Line

open Wrap Text

/-- A full line takes what is put behind it up to the next newline. -/
theorem takeWhile_layout_of_full {wrap : TextWrap} {before : Text} (after : Text)
    (hfull : wrap.width ≤ before.lastRow.byteLength) :
    ((layout wrap (roomAt wrap before after) after).flatMap (Piece.replacement wrap)).takeWhile
      (· ≠ '\n') = after.takeWhile (· ≠ '\n') := by
  by_cases hafter : after.head? = some '\n'
  · have hreflows := continues_layout wrap (roomAt wrap before after) after none false nofun
    have hnewline := hreflows.head?_cases.elim (·.trans hafter) id
    obtain ⟨rest, hrest⟩ := List.head?_eq_some_iff.mp hnewline
    obtain ⟨others, rfl⟩ := List.head?_eq_some_iff.mp hafter
    rw [hrest]
    simp
  · exact takeWhile_layout wrap _ after ((roomAt_eq wrap before hafter).trans (if_pos hfull))

/-- A unit that follows something on its row ends within the width. On the row of the
insertion point this is so if the row is not full in front of it, and unless a unit longer
than the usable width begins there where just that is left. On a row that is full in front
of it, nothing is moved up to the next newline of the text. -/
theorem following_units_fit {line : Line} {before after : Text}
    (htext : line.text = before ++ after) (fragment : Line) (wrap : TextWrap)
    (hindent : wrap.indent < wrap.width) :
    ∃ wrapped first later,
      line.insert before.byteLength fragment (some wrap) = .ok wrapped ∧
        before <+: wrapped.text ∧
        wrapped.text.rowsFrom before = first :: later ∧
        (∀ row ∈ later, RunsEndWithin wrap.width 0 (fun _ _ => False) row) ∧
        (before.lastRow.byteLength < wrap.width →
          RunsEndWithin wrap.width before.lastRow.length
            (LongUnitBegins wrap before.lastRow) first) ∧
        (wrap.width ≤ before.lastRow.byteLength →
          first = before.lastRow ++ (fragment.text ++ after).takeWhile (· ≠ '\n')) := by
  obtain ⟨wrapped, new, hwrapped, hnew, hcases⟩ := exists_laidOut htext fragment wrap
  have hrow := newline_not_mem_lastRow before
  have hends : ∃ first later, rows (before.lastRow ++ new) = first :: later ∧
      EndWithin wrap before.lastRow first later := by
    rcases hcases with ⟨hnarrow, -⟩ | hlaid
    · refine exists_endWithin_of_length_le fun row hmem => ?_
      rw [← rowsFrom_append, ← hnew] at hmem
      have hlength := length_le_of_mem_rows (List.mem_of_mem_drop hmem)
      exact (hlength.trans (length_le_byteLength _)).trans hnarrow
    · have hset : Typeset wrap false (roomBehind wrap before.lastRow) new :=
        hlaid ▸ typeset_roomAt wrap before _
      exact hset.exists_endWithin hindent hrow
  have hsame (hfull : wrap.width ≤ before.lastRow.byteLength) :
      new.takeWhile (· ≠ '\n') = (fragment.text ++ after).takeWhile (· ≠ '\n') := by
    rcases hcases with ⟨-, rfl⟩ | rfl
    · rfl
    · exact takeWhile_layout_of_full _ hfull
  obtain ⟨first, later, hrows, hends⟩ := hends
  refine ⟨wrapped, first, later, hwrapped, hnew ▸ List.prefix_append before new, ?_,
    hends.later_rows, hends.first_row, fun hfull => ?_⟩
  · rw [hnew, rowsFrom_append, hrows]
  · have hhead := head?_rows (before.lastRow ++ new)
    rw [hrows, takeWhile_append_of_not_mem hrow, hsame hfull] at hhead
    exact Option.some.inj hhead

theorem following_units_fit_behind_two_bytes :
    let line : Line := ⟨['x', '\n', 'é', '-', 'é'], []⟩
    let fragment : Line :=
      ⟨['b', 'c', '.', 'd', 'e', 'f', 'g', ' ', 'h', '\n', 'k', '-', 'l', 'm', 'n', 'o', 'p'], []⟩
    ∃ wrapped first later,
      line.insert 5 fragment (some ⟨7, 1⟩) = .ok wrapped ∧
        wrapped.text.rowsFrom ['x', '\n', 'é', '-'] = first :: later ∧
        (∀ row ∈ later, RunsEndWithin 7 0 (fun _ _ => False) row) ∧
        RunsEndWithin 7 2 (LongUnitBegins ⟨7, 1⟩ ['é', '-']) first := by
  intro line fragment
  have htext : line.text = ['x', '\n', 'é', '-'] ++ ['é'] := rfl
  obtain ⟨wrapped, first, later, hwrapped, -, hrows, hlater, hfirst, -⟩ :=
    following_units_fit htext fragment ⟨7, 1⟩ (by decide)
  exact ⟨wrapped, first, later, hwrapped, hrows, hlater, hfirst (by decide)⟩

/-- On a row that is full already, a unit overruns the width behind others. -/
theorem following_unit_overruns_full_row :
    ¬ ∀ (line fragment : Line) (before after : Text) (wrap : TextWrap),
      line.text = before ++ after → wrap.indent < wrap.width →
      ∃ wrapped first later,
        line.insert before.byteLength fragment (some wrap) = .ok wrapped ∧
          wrapped.text.rowsFrom before = first :: later ∧
          RunsEndWithin wrap.width before.lastRow.length (fun _ _ => False) first ∧
          ∀ row ∈ later, RunsEndWithin wrap.width 0 (fun _ _ => False) row := by
  intro hall
  obtain ⟨wrapped, first, later, hwrapped, hrows, hfirst, -⟩ :=
    hall ⟨['a', 'b', '-'], []⟩ ⟨['c', 'd'], []⟩ ['a', 'b', '-'] [] ⟨3, 0⟩ rfl (by decide)
  have hunbroken : Line.insert ⟨['a', 'b', '-'], []⟩ 3 ⟨['c', 'd'], []⟩ (some ⟨3, 0⟩) =
      .ok ⟨['a', 'b', '-', 'c', 'd'], []⟩ := by
    decide +kernel
  cases hunbroken.symm.trans hwrapped
  cases hrows
  have hchars : ∀ char ∈ ['c', 'd'], isUnitChar char = true :=
    List.forall_mem_cons.mpr ⟨rfl, List.forall_mem_singleton.mpr rfl⟩
  have hshort := hfirst ['a', 'b', '-'] ['c', 'd'] [] rfl
    ⟨hchars, rfl, rfl, 'a', by decide, by decide⟩ rfl (by decide) id
  exact absurd hshort (by decide)

end Line

end LinePainter
