import LinePainter.Proofs.Line.Wrapping

namespace LinePainter

namespace Wrap

/-! A wrap pass comes to an end, and on its way it only edits the line between
characters. -/

/-- Where a pass stands: the room on the line it is on, and the text that is left. -/
abbrev Place := Room × Text

def advance (wrap : TextWrap) (place : Place) : Place :=
  let next := round wrap place.1 place.2
  (next.room, next.rest)

def placeAfter (wrap : TextWrap) : Nat → Place → Place
  | 0, place => place
  | rounds + 1, place => placeAfter wrap rounds (advance wrap place)

/-- What a number of rounds make of the text. -/
def piecesOf (wrap : TextWrap) : Nat → Place → List Piece
  | 0, _ => []
  | rounds + 1, place =>
      (round wrap place.1 place.2).pieces ++ piecesOf wrap rounds (advance wrap place)

/-- The pass from `place` ends after that many rounds: there is text left in front of each
of them and none behind the last. -/
structure EndsAfter (wrap : TextWrap) (rounds : Nat) (place : Place) : Prop where
  text_left : ∀ earlier < rounds, (placeAfter wrap earlier place).2 ≠ []
  none_left : (placeAfter wrap rounds place).2 = []

theorem EndsAfter.succ {wrap : TextWrap} {rounds : Nat} {place : Place} (htext : place.2 ≠ [])
    (hrest : EndsAfter wrap rounds (advance wrap place)) : EndsAfter wrap (rounds + 1) place where
  text_left earlier hearlier := by
    cases earlier with
    | zero => exact htext
    | succ earlier => exact hrest.text_left earlier (Nat.lt_of_succ_lt_succ hearlier)
  none_left := hrest.none_left

theorem exists_endsAfter (wrap : TextWrap) (room : Room) (text : Text) :
    ∃ rounds ≤ workLeft room text,
      EndsAfter wrap rounds (room, text) ∧
        piecesOf wrap rounds (room, text) = layout wrap room text := by
  -- Each round leaves less work, so the work at the start bounds their number.
  fun_induction layout wrap room text with
  | case1 room => exact ⟨0, Nat.zero_le _, ⟨fun _ => (absurd · (Nat.not_lt_zero _)), rfl⟩, rfl⟩
  | case2 room text htext next ih =>
      obtain ⟨rounds, hrounds, hends, hpieces⟩ := ih
      have hless : workLeft next.room next.rest < workLeft room text :=
        round_workLeft_lt wrap room htext
      exact ⟨rounds + 1, Nat.lt_of_le_of_lt hrounds hless, .succ htext hends,
        congrArg (next.pieces ++ ·) hpieces⟩

theorem workLeft_le (room : Room) (text : Text) : workLeft room text ≤ 2 * text.length + 1 := by
  unfold workLeft
  split <;> omega

end Wrap

namespace Line

open Wrap

variable {line current : Line} {before passed after : Text} {wrap : TextWrap}

/-- The offsets at which applying the piece edits the line lie between two characters of it,
or at an end. A character that is kept is the one at the position. -/
def EditsInPlace (current : Line) (position : Nat) : Piece → Prop
  | .kept char => ∃ passed after,
      current.text = passed ++ char :: after ∧ passed.byteLength = position
  | .lineBreak => current.text.IsBoundary position ∧
      ∀ broken, current.insertChars position 1 '\n' = .ok broken →
        broken.text.IsBoundary (position + 1)
  | .margin => current.text.IsBoundary position
  | .dropped count =>
      current.text.IsBoundary position ∧ current.text.IsBoundary (position + count)

theorem editsInPlace {piece : Piece} (htext : current.text = passed ++ (piece.source ++ after)) :
    current.EditsInPlace passed.byteLength piece := by
  have hhere : current.text.IsBoundary passed.byteLength := ⟨passed, _, htext, rfl⟩
  cases piece with
  | kept char => exact ⟨passed, after, htext, rfl⟩
  | lineBreak =>
      refine ⟨hhere, fun broken hbroken => ?_⟩
      obtain ⟨result, hresult, hrewrapped⟩ := exists_insertChars htext 1 '\n'
      cases hresult.symm.trans hbroken
      exact ⟨passed ++ ['\n'], _, hrewrapped.text_eq, Text.byteLength_append ..⟩
  | margin => exact hhere
  | dropped count =>
      refine ⟨hhere, passed ++ List.replicate count ' ', after, ?_, ?_⟩
      · rw [htext, List.append_assoc]
        rfl
      · simp

theorem exists_reached (wrap : TextWrap) (done : List Piece) (piece : Piece) (todo : List Piece)
    (htext : line.text = before ++ (done ++ piece :: todo).flatMap Piece.source) :
    ∃ current passed,
      done.foldlM (applyPiece wrap) (line, before.byteLength) =
        .ok (current, passed.byteLength) ∧
      current.text = passed ++ (piece.source ++ todo.flatMap Piece.source) := by
  -- Each piece in front leaves the sources of those behind it as they are.
  induction done generalizing line before with
  | nil => exact ⟨line, before, rfl, htext⟩
  | cons first done ih =>
      obtain ⟨middle, hmiddle, hfirst⟩ := exists_applyPiece wrap htext
      obtain ⟨current, passed, hdone, hcurrent⟩ := ih hfirst.text_eq
      refine ⟨current, passed, ?_, hcurrent⟩
      rw [List.foldlM_cons, hmiddle]
      exact hdone

/-- On any line, with any width and indent, a wrap pass ends after a number of rounds that
the text bounds, at the end of the line, and all its edits are in place. -/
theorem wrap_pass_completes {index : Nat} (hindex : line.text.IsBoundary index)
    (wrap : TextWrap) :
    ∃ before after rounds wrapped,
      line.text = before ++ after ∧ before.byteLength = index ∧
        rounds ≤ 2 * after.length + 1 ∧
        EndsAfter wrap rounds (roomAt wrap before after, after) ∧
        (piecesOf wrap rounds (roomAt wrap before after, after)).foldlM (applyPiece wrap)
          (line, index) = .ok (wrapped, wrapped.length) ∧
        line.wrapFrom wrap index = .ok wrapped ∧
        ∀ done piece todo,
          piecesOf wrap rounds (roomAt wrap before after, after) = done ++ piece :: todo →
          ∃ current position,
            done.foldlM (applyPiece wrap) (line, index) = .ok (current, position) ∧
              current.EditsInPlace position piece := by
  obtain ⟨before, after, htext, rfl⟩ := hindex
  obtain ⟨rounds, hrounds, hends, hpieces⟩ :=
    exists_endsAfter wrap (roomAt wrap before after) after
  have hsource : line.text = before ++
      (layout wrap (roomAt wrap before after) after).flatMap Piece.source := by
    rw [layout_source, htext]
  obtain ⟨wrapped, hfold, hrewrapped⟩ := exists_foldlM_applyPiece wrap _ line before hsource
  rw [← hrewrapped.text_eq] at hfold
  refine ⟨before, after, rounds, wrapped, htext, rfl, Nat.le_trans hrounds (workLeft_le ..), hends,
    ?_, ?_, fun done piece todo hsplit => ?_⟩
  · rw [hpieces]
    exact hfold
  · rw [wrapFrom, htext, Text.splitAt?_append]
    dsimp only
    rw [hfold]
    rfl
  · rw [hpieces] at hsplit
    rw [hsplit] at hsource
    obtain ⟨current, passed, hdone, hcurrent⟩ := exists_reached wrap done piece todo hsource
    exact ⟨current, passed.byteLength, hdone, editsInPlace hcurrent⟩

theorem wrap_pass_completes_without_width :
    let line : Line := ⟨['é', '\n', 'a', 'b', ' ', 'é'], [⟨⟨9, some 2⟩, .graphic '─'⟩]⟩
    ∃ before after rounds wrapped,
      line.text = before ++ after ∧ before.byteLength = 2 ∧
        rounds ≤ 2 * after.length + 1 ∧
        EndsAfter ⟨0, 3⟩ rounds (roomAt ⟨0, 3⟩ before after, after) ∧
        line.wrapFrom ⟨0, 3⟩ 2 = .ok wrapped ∧
        ∀ done piece todo,
          piecesOf ⟨0, 3⟩ rounds (roomAt ⟨0, 3⟩ before after, after) = done ++ piece :: todo →
          ∃ current position,
            done.foldlM (applyPiece ⟨0, 3⟩) (line, 2) = .ok (current, position) ∧
              current.EditsInPlace position piece := by
  intro line
  obtain ⟨before, after, rounds, wrapped, htext, hbefore, hrounds, hends, -, hwrapped, hplaces⟩ :=
    @wrap_pass_completes line 2 (by decide) ⟨0, 3⟩
  exact ⟨before, after, rounds, wrapped, htext, hbefore, hrounds, hends, hwrapped, hplaces⟩

end Line

end LinePainter
