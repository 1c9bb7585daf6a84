import LinePainter.Proofs.Line.Coverage
import LinePainter.Proofs.Line.Reflow

namespace LinePainter

namespace Line

open Wrap

/-! What is written on a line: the characters that are no blanks, each with the attributes
that cover it, byte by byte. Edits that put blanks in or take blanks out do not change it. -/

def writingFrom (line : Line) (offset : Nat) : Text → List (Char × List (List Bool))
  | [] => []
  | char :: rest =>
      let later := writingFrom line (offset + char.utf8Size) rest
      if Text.isBlank char then later
      else
        (char, (List.range char.utf8Size).map fun byte => line.coverage (offset + byte)) ::
          later

def writing (line : Line) : List (Char × List (List Bool)) :=
  line.writingFrom 0 line.text

structure SameWriting (line result : Line) : Prop where
  directives_eq : result.directives = line.directives
  writing_eq : result.writing = line.writing

theorem SameWriting.refl (line : Line) : line.SameWriting line :=
  ⟨rfl, rfl⟩

theorem SameWriting.trans {line middle result : Line} (hfirst : line.SameWriting middle)
    (hsecond : middle.SameWriting result) : line.SameWriting result :=
  ⟨hsecond.directives_eq.trans hfirst.directives_eq,
    hsecond.writing_eq.trans hfirst.writing_eq⟩

variable {line result : Line} {before after : Text}

theorem writingFrom_append (line : Line) (offset : Nat) (before after : Text) :
    line.writingFrom offset (before ++ after) =
      line.writingFrom offset before ++
        line.writingFrom (offset + before.byteLength) after := by
  induction before generalizing offset with
  | nil => rfl
  | cons char before ih =>
      simp only [List.cons_append, writingFrom, ih, Text.byteLength_cons, Nat.add_assoc]
      split <;> rfl

theorem writingFrom_blank (line : Line) (offset : Nat) {text : Text}
    (hblank : ∀ char ∈ text, Text.isBlank char = true) : line.writingFrom offset text = [] := by
  induction text generalizing offset with
  | nil => rfl
  | cons char rest ih =>
      rw [writingFrom, if_pos (hblank char List.mem_cons_self)]
      exact ih _ fun other hother => hblank other (List.mem_cons_of_mem _ hother)

theorem writingFrom_congr {text : Text} {start start' : Nat}
    (hcoverage : ∀ byte < text.byteLength,
      result.coverage (start' + byte) = line.coverage (start + byte)) :
    result.writingFrom start' text = line.writingFrom start text := by
  induction text generalizing start start' with
  | nil => rfl
  | cons char rest ih =>
      rw [Text.byteLength_cons] at hcoverage
      have hrest : result.writingFrom (start' + char.utf8Size) rest =
          line.writingFrom (start + char.utf8Size) rest := by
        apply ih
        intro byte hbyte
        rw [Nat.add_assoc, Nat.add_assoc]
        exact hcoverage _ (Nat.add_lt_add_left hbyte _)
      have hchar : (List.range char.utf8Size).map (fun byte => result.coverage (start' + byte)) =
          (List.range char.utf8Size).map fun byte => line.coverage (start + byte) := by
        apply List.map_congr_left
        intro byte hbyte
        exact hcoverage byte (Nat.lt_add_right _ (List.mem_range.mp hbyte))
      simp only [writingFrom, hrest, hchar]

theorem RunInserted.sameWriting {index : Nat} {run : Text}
    (hinserted : RunInserted line index run result)
    (hblank : ∀ char ∈ run, Text.isBlank char = true) : line.SameWriting result := by
  refine ⟨hinserted.directives, ?_⟩
  obtain ⟨before, after, htext, rfl, hresult⟩ := hinserted.text
  have hfront : result.writingFrom 0 before = line.writingFrom 0 before := by
    apply writingFrom_congr
    intro byte hbyte
    rw [Nat.zero_add]
    exact hinserted.in_front byte hbyte
  have hbehind : result.writingFrom (before.byteLength + run.byteLength) after =
      line.writingFrom before.byteLength after := by
    apply writingFrom_congr
    intro byte _
    rw [Nat.add_right_comm]
    exact hinserted.behind _ (Nat.le_add_right ..)
  rw [writing, writing, hresult, htext, writingFrom_append, writingFrom_append,
    writingFrom_append, writingFrom_blank _ _ hblank, List.append_nil, Nat.zero_add,
    Text.byteLength_append, hfront, hbehind, Nat.zero_add]

theorem RunRemoved.sameWriting {removed : Text}
    (hremoved : RunRemoved line before.byteLength removed.byteLength result)
    (htext : line.text = before ++ removed ++ after) (hresult : result.text = before ++ after)
    (hblank : ∀ char ∈ removed, Text.isBlank char = true) : line.SameWriting result := by
  refine ⟨hremoved.directives, ?_⟩
  have hfront : result.writingFrom 0 before = line.writingFrom 0 before := by
    apply writingFrom_congr
    intro byte hbyte
    rw [Nat.zero_add]
    exact hremoved.in_front byte hbyte
  have hbehind : result.writingFrom before.byteLength after =
      line.writingFrom (before.byteLength + removed.byteLength) after := by
    apply writingFrom_congr
    intro byte _
    have hplace : before.byteLength + byte =
        before.byteLength + removed.byteLength + byte - removed.byteLength := by omega
    rw [hplace]
    exact hremoved.behind _ (Nat.le_add_right ..)
  rw [writing, writing, hresult, htext, writingFrom_append, writingFrom_append,
    writingFrom_append, writingFrom_blank _ _ hblank, List.append_nil, Nat.zero_add,
    Text.byteLength_append, hfront, hbehind, Nat.zero_add]

/-! A wrap pass only ever puts in or takes out blanks. -/

theorem isBlank_of_mem_replicate {char other : Char} {count : Nat}
    (hchar : Text.isBlank char = true) (hmem : other ∈ List.replicate count char) :
    Text.isBlank other = true := by
  rwa [List.eq_of_mem_replicate hmem]

theorem sameWriting_of_insertChars {count : Nat} {char : Char} (hvalid : line.Valid)
    (htext : line.text = before ++ after) (hchar : Text.isBlank char = true)
    (hinsert : line.insertChars before.byteLength count char = .ok result) :
    line.SameWriting result := by
  rw [insertChars_eq hvalid htext] at hinsert
  cases hinsert
  exact (runInserted_pushedApart htext _).sameWriting
    fun _ hmem => isBlank_of_mem_replicate hchar hmem

theorem sameWriting_of_applyPiece {wrap : TextWrap} {piece : Piece} {position : Nat}
    (hvalid : line.Valid) (htext : line.text = before ++ (piece.source ++ after))
    (happly : applyPiece wrap (line, before.byteLength) piece = .ok (result, position)) :
    line.SameWriting result := by
  cases piece with
  | kept char =>
      cases happly
      exact .refl line
  | lineBreak =>
      obtain ⟨middle, hbroken, hmiddle⟩ := exists_insertChars htext 1 '\n'
      have hbreak : middle.text = (before ++ ['\n']) ++ after := hmiddle.text_eq
      obtain ⟨final, hindented, -⟩ := exists_insertChars hbreak wrap.indent ' '
      have hfirst := sameWriting_of_insertChars hvalid htext rfl hbroken
      have hsecond := sameWriting_of_insertChars (hmiddle.valid hvalid) hbreak rfl hindented
      have hplace : (before ++ ['\n']).byteLength = before.byteLength + 1 :=
        Text.byteLength_append ..
      rw [hplace] at hindented
      simp only [applyPiece, hbroken, hindented, bind, Except.bind] at happly
      cases happly
      exact hfirst.trans hsecond
  | margin =>
      have hindented := insertChars_eq hvalid htext wrap.indent ' '
      simp only [applyPiece, hindented, bind, Except.bind] at happly
      cases happly
      exact sameWriting_of_insertChars hvalid htext rfl hindented
  | dropped count =>
      rw [← List.append_assoc] at htext
      have hcount : (Piece.dropped count).source.byteLength = count := by
        simp [Piece.source]
      have hremoved := (runRemoved_closedUp htext).sameWriting htext rfl
        fun _ hmem => isBlank_of_mem_replicate rfl hmem
      have herased := erase_eq htext
      rw [hcount] at herased
      simp only [applyPiece, herased, bind, Except.bind] at happly
      cases happly
      rwa [hcount] at hremoved

theorem sameWriting_of_foldlM {wrap : TextWrap} (pieces : List Piece) {position : Nat}
    (hvalid : line.Valid) (htext : line.text = before ++ pieces.flatMap Piece.source)
    (hfold : pieces.foldlM (applyPiece wrap) (line, before.byteLength) =
      .ok (result, position)) :
    line.SameWriting result := by
  induction pieces generalizing line before with
  | nil =>
      cases hfold
      exact .refl _
  | cons piece rest ih =>
      obtain ⟨middle, hmiddle, hkeeps⟩ := exists_applyPiece wrap htext
      rw [List.foldlM_cons, hmiddle] at hfold
      exact (sameWriting_of_applyPiece hvalid htext hmiddle).trans
        (ih (hkeeps.valid hvalid) hkeeps.text_eq hfold)

theorem sameWriting_of_wrapFrom {wrap : TextWrap} (hvalid : line.Valid)
    (htext : line.text = before ++ after)
    (hwrap : line.wrapFrom wrap before.byteLength = .ok result) : line.SameWriting result := by
  have hsource : line.text = before ++
      (layout wrap (roomAt wrap before after) after).flatMap Piece.source := by
    rw [layout_source, htext]
  obtain ⟨wrapped, hfold, -⟩ := exists_foldlM_applyPiece wrap _ line before hsource
  rw [wrapFrom, htext, Text.splitAt?_append] at hwrap
  dsimp only at hwrap
  rw [hfold] at hwrap
  cases hwrap
  exact sameWriting_of_foldlM _ hvalid hsource hfold

/-- Insertion with word wrap leaves the attributes on what they were on. With and without
it they are the same in the same order, and so are the characters written on the line; each
of these is covered, byte by byte, by the same attributes. -/
theorem insert_keeps_writing {line fragment : Line} {index : Nat}
    (hline : line.fault? = none) (hfragment : fragment.fault? = none)
    (hindex : line.text.IsBoundary index) (wrap : TextWrap) :
    ∃ plain wrapped,
      line.insert index fragment none = .ok plain ∧
        line.insert index fragment (some wrap) = .ok wrapped ∧
        wrapped.directives = plain.directives ∧
        wrapped.writing = plain.writing := by
  rw [← valid_iff_fault?_eq_none] at hline hfragment
  obtain ⟨before, after, htext, rfl⟩ := hindex
  have hsplit := line.text_splice before after fragment
  rw [insert_none_eq htext, insert_some_eq htext]
  split
  · obtain ⟨wrapped, hwrapped, -⟩ := exists_wrapFrom wrap hsplit
    have hsame := sameWriting_of_wrapFrom (valid_splice hline hfragment htext) hsplit hwrapped
    exact ⟨_, wrapped, rfl, hwrapped, hsame.directives_eq, hsame.writing_eq⟩
  · exact ⟨_, _, rfl, rfl, rfl, rfl⟩

theorem insert_keeps_writing_across_break :
    let line : Line := ⟨['a', ' ', 'é'], [⟨⟨1, some 3⟩, .foreground .red⟩]⟩
    let fragment : Line := ⟨['b', 'c', ' ', ' ', 'd'], [⟨⟨1, none⟩, .background .blue⟩]⟩
    ∃ plain wrapped,
      line.insert 2 fragment none = .ok plain ∧
        line.insert 2 fragment (some ⟨4, 1⟩) = .ok wrapped ∧
        wrapped.directives = plain.directives ∧
        wrapped.writing = plain.writing :=
  insert_keeps_writing (by decide) (by decide) (by decide) ⟨4, 1⟩

end Line

end LinePainter
