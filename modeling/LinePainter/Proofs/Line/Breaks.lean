import LinePainter.Proofs.Line.Wrapping

namespace LinePainter

namespace Wrap

/-! A wrap pass puts in at most two line breaks a round, and it has no more rounds than
work. -/

theorem count_newline_replacement (wrap : TextWrap) (pieces : List Piece) :
    (pieces.flatMap (Piece.replacement wrap)).count '\n' =
      (pieces.flatMap Piece.source).count '\n' + pieces.count .lineBreak := by
  induction pieces with
  | nil => rfl
  | cons piece rest ih =>
      cases piece with
      | kept char =>
          simp [Piece.replacement, Piece.source, List.count_cons, ih]
          omega
      | lineBreak =>
          simp [Piece.replacement, Piece.source, List.count_replicate, ih]
          omega
      | margin => simp [Piece.replacement, Piece.source, List.count_replicate, ih]
      | dropped count => simp [Piece.replacement, Piece.source, List.count_replicate, ih]

theorem lineBreak_not_mem_takeFiller (usable : Nat) (room : Room) (text : Text) :
    .lineBreak ∉ (takeFiller usable room text).pieces := by
  induction text generalizing room with
  | nil => simp [takeFiller]
  | cons char rest ih =>
      unfold takeFiller
      split
      · simp
      · split
        · simp
        · split
          · simp
          · simpa using ih (room.map (· - 1))

theorem count_lineBreak_kept (text : Text) : (text.map Piece.kept).count .lineBreak = 0 := by
  simp [List.count_eq_zero]

theorem count_lineBreak_round (wrap : TextWrap) (room : Room) (text : Text) :
    (round wrap room text).pieces.count .lineBreak ≤ 2 := by
  have hfiller := List.count_eq_zero.mpr <| lineBreak_not_mem_takeFiller wrap.usable
    ((roomForUnit wrap room (leadingUnit text)).map (· - (leadingUnit text).length))
    (text.drop (leadingUnit text).length)
  have hmoved : (if Overflows wrap.usable room (leadingUnit text) then [Piece.lineBreak]
      else []).count .lineBreak ≤ 1 := by
    split <;> simp
  unfold round
  dsimp only
  split <;> simp only [List.count_append, count_lineBreak_kept, hfiller]
  · exact Nat.add_le_add hmoved (Nat.le_refl 1)
  · omega

theorem count_lineBreak_layout (wrap : TextWrap) (room : Room) (text : Text) :
    (layout wrap room text).count .lineBreak ≤ 2 * workLeft room text := by
  fun_induction layout wrap room text with
  | case1 room => simp
  | case2 room text htext next ih =>
      have hround : next.pieces.count .lineBreak ≤ 2 := count_lineBreak_round wrap room text
      have hless : workLeft next.room next.rest < workLeft room text :=
        round_workLeft_lt wrap room htext
      rw [List.count_append]
      omega

end Wrap

namespace Line

open Wrap

/-- Wrapping what was inserted adds no more line breaks than the text has room for,
whatever the width. -/
theorem count_newline_insert {line fragment result : Line} {index : Nat} {wrap : TextWrap}
    (hindex : line.text.IsBoundary index)
    (hinsert : line.insert index fragment (some wrap) = .ok result) :
    result.text.count '\n' ≤
      line.text.count '\n' + fragment.text.count '\n' +
        2 * (2 * (line.text.length + fragment.text.length) + 1) := by
  obtain ⟨before, after, htext, rfl⟩ := hindex
  rw [insert_some_eq htext] at hinsert
  split at hinsert
  · obtain ⟨wrapped, hwrapped, hresult⟩ :=
      exists_wrapFrom wrap (line.text_splice before after fragment)
    cases hwrapped.symm.trans hinsert
    have hbreaks := count_lineBreak_layout wrap
      (roomAt wrap before (fragment.text ++ after)) (fragment.text ++ after)
    have hwork : workLeft (roomAt wrap before (fragment.text ++ after))
        (fragment.text ++ after) ≤ 2 * (fragment.text ++ after).length + 1 := by
      unfold workLeft
      split <;> omega
    simp only [List.length_append] at hwork
    simp only [hresult.text_eq, htext, List.count_append, List.length_append,
      count_newline_replacement, layout_source]
    omega
  · cases hinsert
    simp only [text_splice, htext, List.count_append, List.length_append]
    omega

end Line

end LinePainter
