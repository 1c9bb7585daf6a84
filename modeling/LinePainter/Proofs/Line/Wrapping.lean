import LinePainter.Line.Wrap
import LinePainter.Proofs.Line.Edits

namespace LinePainter

namespace Wrap

/-! A wrap pass reads its text once from front to back. Each piece has a part of the
old text, and puts a part of the new text in its place. -/

namespace Piece

def source : Piece → Text
  | kept char => [char]
  | lineBreak => []
  | margin => []
  | dropped count => List.replicate count ' '

def replacement (wrap : TextWrap) : Piece → Text
  | kept char => [char]
  | lineBreak => '\n' :: List.replicate wrap.indent ' '
  | margin => List.replicate wrap.indent ' '
  | dropped _ => []

end Piece

theorem flatMap_source_kept (text : Text) : (text.map Piece.kept).flatMap Piece.source = text := by
  induction text with
  | nil => rfl
  | cons char rest ih =>
      rw [List.map_cons, List.flatMap_cons, ih]
      rfl

theorem leadingUnit_append_drop (text : Text) :
    leadingUnit text ++ text.drop (leadingUnit text).length = text := by
  induction text with
  | nil => rfl
  | cons char rest ih =>
      rw [leadingUnit]
      split
      · split
        · rfl
        · rw [List.length_cons, List.drop_succ_cons, List.cons_append, ih]
      · rfl

theorem takeFiller_source (usable : Nat) (room : Room) (text : Text) :
    (takeFiller usable room text).pieces.flatMap Piece.source ++
      (takeFiller usable room text).rest = text := by
  induction text generalizing room with
  | nil => rfl
  | cons char rest ih =>
      rw [takeFiller]
      split
      · rfl
      · split
        · rfl
        · split
          · rfl
          · exact congrArg (List.cons char) (ih (room.map (· - 1)))

theorem replicate_takeWhile_append_drop (text : Text) (char : Char) :
    List.replicate (text.takeWhile (· = char)).length char ++
      text.drop (text.takeWhile (· = char)).length = text := by
  induction text with
  | nil => rfl
  | cons first rest ih =>
      by_cases hfirst : first = char
      · subst hfirst
        simpa [List.replicate_succ] using ih
      · simp [hfirst]

theorem round_source (wrap : TextWrap) (room : Room) (text : Text) :
    (round wrap room text).pieces.flatMap Piece.source ++ (round wrap room text).rest =
      text := by
  have hmoved : (if Overflows wrap.usable room (leadingUnit text) then [Piece.lineBreak]
      else []).flatMap Piece.source = [] := by
    split <;> rfl
  have hfiller := takeFiller_source wrap.usable
    ((roomForUnit wrap room (leadingUnit text)).map (· - (leadingUnit text).length))
    (text.drop (leadingUnit text).length)
  rw [round]
  dsimp only
  split
  · simp only [List.flatMap_append, hmoved, flatMap_source_kept, List.nil_append,
      List.flatMap_cons, List.flatMap_nil, List.append_nil, Piece.source, List.append_assoc]
    rw [replicate_takeWhile_append_drop, hfiller, leadingUnit_append_drop]
  · simp only [List.flatMap_append, hmoved, flatMap_source_kept, List.nil_append,
      List.append_assoc]
    rw [hfiller, leadingUnit_append_drop]

theorem layout_source (wrap : TextWrap) (room : Room) (text : Text) :
    (layout wrap room text).flatMap Piece.source = text := by
  fun_induction layout wrap room text with
  | case1 room => rfl
  | case2 room text _ next ih =>
      rw [List.flatMap_append, ih]
      exact round_source wrap room text

end Wrap

namespace Line

open Wrap

variable {line : Line} {before after : Text}

/-! Applying pieces. No edit of the pass fails, whatever the attributes are, and a
valid line stays valid. -/

/-- What the pass keeps true of the line at hand: its text, and that it is valid if
`line` was. -/
structure Rewrapped (line : Line) (text : Text) (result : Line) : Prop where
  text_eq : result.text = text
  valid : line.Valid → result.Valid

theorem Rewrapped.trans {middle result : Line} {middleText text : Text}
    (hfirst : line.Rewrapped middleText middle) (hsecond : middle.Rewrapped text result) :
    line.Rewrapped text result :=
  ⟨hsecond.text_eq, fun hvalid => hsecond.valid (hfirst.valid hvalid)⟩

theorem exists_insertChars (htext : line.text = before ++ after) (count : Nat) (char : Char) :
    ∃ result, line.insertChars before.byteLength count char = .ok result ∧
      line.Rewrapped (before ++ List.replicate count char ++ after) result := by
  by_cases hvalid : line.Valid
  · exact ⟨_, insertChars_eq hvalid htext count char, rfl,
      fun _ => valid_pushedApart hvalid htext _⟩
  · rw [insertChars, htext, Text.splitAt?_append]
    dsimp only
    split
    · next hcount => exact ⟨line, rfl, by simp [hcount, htext], fun h => absurd h hvalid⟩
    · exact ⟨_, rfl, rfl, fun h => absurd h hvalid⟩

theorem exists_erase {removed : Text} (htext : line.text = before ++ removed ++ after) :
    ∃ result, line.erase before.byteLength removed.byteLength = .ok result ∧
      line.Rewrapped (before ++ after) result :=
  ⟨_, erase_eq htext, rfl, fun hvalid => valid_closedUp hvalid htext⟩

theorem exists_applyPiece (wrap : TextWrap) {piece : Piece}
    (htext : line.text = before ++ (piece.source ++ after)) :
    ∃ result,
      applyPiece wrap (line, before.byteLength) piece =
        .ok (result, (before ++ piece.replacement wrap).byteLength) ∧
      line.Rewrapped (before ++ piece.replacement wrap ++ after) result := by
  cases piece with
  | kept char =>
      refine ⟨line, ?_, by simpa [Piece.source, Piece.replacement] using htext, id⟩
      simp [applyPiece, Piece.replacement]
      rfl
  | lineBreak =>
      obtain ⟨broken, hbroken, hfirst⟩ := exists_insertChars htext 1 '\n'
      have hbreak : broken.text = (before ++ ['\n']) ++ after := hfirst.text_eq
      obtain ⟨result, hresult, hsecond⟩ := exists_insertChars hbreak wrap.indent ' '
      have hplace : (before ++ ['\n']).byteLength = before.byteLength + 1 :=
        Text.byteLength_append ..
      rw [hplace] at hresult
      refine ⟨result, ?_, by simpa [Piece.replacement] using hfirst.trans hsecond⟩
      simp only [applyPiece, hbroken, hresult, bind, Except.bind, pure, Except.pure]
      simp [Piece.replacement, Nat.add_assoc]
  | margin =>
      obtain ⟨result, hresult, hmargin⟩ := exists_insertChars htext wrap.indent ' '
      refine ⟨result, ?_, hmargin⟩
      simp only [applyPiece, hresult, bind, Except.bind, pure, Except.pure]
      simp [Piece.replacement]
  | dropped count =>
      rw [← List.append_assoc] at htext
      obtain ⟨result, hresult, hdropped⟩ := exists_erase htext
      have hcount : (Piece.dropped count).source.byteLength = count := by
        simp [Piece.source]
      rw [hcount] at hresult
      refine ⟨result, ?_, by simpa [Piece.replacement] using hdropped⟩
      simp only [applyPiece, hresult, bind, Except.bind, pure, Except.pure]
      simp [Piece.replacement]

theorem exists_foldlM_applyPiece (wrap : TextWrap) (pieces : List Piece) (line : Line) (before : Text)
    (htext : line.text = before ++ pieces.flatMap Piece.source) :
    ∃ result,
      pieces.foldlM (applyPiece wrap) (line, before.byteLength) =
        .ok (result, (before ++ pieces.flatMap (Piece.replacement wrap)).byteLength) ∧
      line.Rewrapped (before ++ pieces.flatMap (Piece.replacement wrap)) result := by
  induction pieces generalizing line before with
  | nil => exact ⟨line, by simp [pure, Except.pure], by simpa using htext, id⟩
  | cons piece rest ih =>
      obtain ⟨middle, hmiddle, hfirst⟩ := exists_applyPiece wrap htext
      obtain ⟨result, hresult, hrest⟩ := ih middle _ hfirst.text_eq
      refine ⟨result, ?_, by simpa using hfirst.trans hrest⟩
      rw [List.foldlM_cons, hmiddle]
      simpa [bind, Except.bind] using hresult

theorem exists_wrapFrom (wrap : TextWrap) (htext : line.text = before ++ after) :
    ∃ result, line.wrapFrom wrap before.byteLength = .ok result ∧
      line.Rewrapped
        (before ++ (layout wrap (roomAt wrap before after) after).flatMap
          (Piece.replacement wrap)) result := by
  obtain ⟨result, hresult, hwrapped⟩ := exists_foldlM_applyPiece wrap
    (layout wrap (roomAt wrap before after) after) line before (by rw [layout_source, htext])
  refine ⟨result, ?_, hwrapped⟩
  rw [wrapFrom, htext, Text.splitAt?_append]
  dsimp only
  rw [hresult]
  rfl

theorem insert_none_eq (htext : line.text = before ++ after) (fragment : Line) :
    line.insert before.byteLength fragment none = .ok (line.splice before after fragment) := by
  rw [insert, insertPlain_eq htext]
  rfl

theorem insert_some_eq (htext : line.text = before ++ after) (fragment : Line)
    (wrap : TextWrap) :
    line.insert before.byteLength fragment (some wrap) =
      if wrap.width < (line.splice before after fragment).length then
        (line.splice before after fragment).wrapFrom wrap before.byteLength
      else .ok (line.splice before after fragment) := by
  rw [insert, insertPlain_eq htext]
  rfl

theorem text_splice (line : Line) (before after : Text) (fragment : Line) :
    (line.splice before after fragment).text = before ++ (fragment.text ++ after) :=
  List.append_assoc ..

/-- Inserting a valid line in a valid line works at every boundary, wrapped or not. -/
theorem exists_insert {fragment : Line} {index : Nat} (hline : line.Valid)
    (hfragment : fragment.Valid) (hindex : line.text.IsBoundary index)
    (wrap : Option TextWrap) :
    ∃ result, line.insert index fragment wrap = .ok result ∧ result.Valid := by
  obtain ⟨before, after, htext, rfl⟩ := hindex
  have hjoined := valid_splice hline hfragment htext
  cases wrap with
  | none => exact ⟨_, insert_none_eq htext fragment, hjoined⟩
  | some wrap =>
      rw [insert_some_eq htext]
      split
      · obtain ⟨wrapped, hwrapped, hkeeps⟩ :=
          exists_wrapFrom wrap (line.text_splice before after fragment)
        exact ⟨wrapped, hwrapped, hkeeps.valid hjoined⟩
      · exact ⟨_, rfl, hjoined⟩

end Line

end LinePainter
