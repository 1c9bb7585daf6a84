import LinePainter.Proofs.Painting.InPlace

namespace LinePainter

/-! What can come of painting a line step by step. -/

namespace Canvas

open PaintStep

/-- Painting step by step rejects a line for the reason that comes first, with nothing
painted and no pair asked for. Every other line it paints, so that no part that is taken of
the glyphs, the colors or the cells is out of range and no column is off the screen, unless
columns are checked and one of the line is out of range. All of this comes out as painting
the row at once does. -/
theorem paint_rejects_exactly {canvas : Canvas} {x : Nat} (hcolumn : x < screenColumns)
    (hwidth : canvas.frame.width < screenColumns) {counting : Counting} {line : Line}
    (hlength : counting = .checked → line.length < 2 ^ 59) (y : Nat) (window : Span)
    (role : Role) :
    let answer := (paintLine counting x y line window role).run canvas
    let atOnce := canvas.frame.paintBy counting canvas.theme x y line window role
    let overflows := counting = .checked ∧ line.Overflows window.start
    (∀ error, answer = .error (.stopped (.rejected error)) canvas ↔
        line.RejectedIn window error) ∧
      ((∃ after, answer = .ok () after) ↔ line.AcceptedIn window ∧ ¬ overflows) ∧
      (∀ stop after, answer = .error stop after →
        (after = canvas ∧ ∃ error, stop = .stopped (.rejected error)) ∨
          (line.AcceptedIn window ∧ overflows) ∧
            stop = .stopped (.overflow (minColumn - 1))) ∧
      (∀ error, atOnce = .error (.rejected error) ↔ line.RejectedIn window error) ∧
      ∀ frame theme, atOnce = .ok (frame, theme) ↔ answer = .ok () { frame, theme } := by
  intro answer atOnce overflows
  have hrefused (error : PaintError) : line.RejectedIn window error ↔
      canvas.frame.paint canvas.theme x y line window role = .error error :=
    Frame.paint_eq_error_iff.symm
  have haccepts : line.AcceptedIn window ↔ ∃ frame theme,
      canvas.frame.paint canvas.theme x y line window role = .ok (frame, theme) :=
    Frame.exists_painted_iff.symm
  rcases canvas.frame.paintBy_cases canvas.theme x y role hlength window with
    ⟨error, hrejected, hatOnce⟩ | ⟨haccepted, hoverflows, hatOnce⟩ |
      ⟨haccepted, hcounts, ⟨frame, theme⟩, hatOnce, hpaint⟩
  · have hanswer : answer = _ := run_paintLine_of_rejected hrejected counting x y role
    have hpaint := (hrefused error).mp hrejected
    simp [hanswer, atOnce, hatOnce, hrefused, haccepts, hpaint]
  · obtain ⟨painted, theme, hpaint⟩ := haccepts.mp haccepted
    obtain ⟨start, _⟩ := window
    obtain ⟨hvalid, stop, hstop, hordered⟩ := haccepted
    cases hstop
    obtain ⟨after, hanswer⟩ := run_paintLine_of_overflows hcolumn hwidth
      (Line.valid_iff_fault?_eq_none.mp hvalid) hordered hlength hoverflows y role
    have hanswer : answer = _ := hanswer
    simp [hanswer, atOnce, hatOnce, hrefused, haccepts, hpaint, overflows, hoverflows]
  · obtain ⟨start, _⟩ := window
    obtain ⟨hvalid, stop, hstop, hordered⟩ := haccepted
    cases hstop
    rw [Line.valid_iff_fault?_eq_none] at hvalid
    have hanswer : answer = _ :=
      run_paintLine_of_valid hcolumn hwidth hvalid hordered hlength hcounts y role
    have hrow := hpaint
    rw [Frame.paint_of_valid hvalid hordered] at hrow
    cases hrow
    simp [hanswer, atOnce, hatOnce, hrefused, haccepts, hpaint, overflows, hcounts]

/-- Offsets within a character of four bytes, in a window that starts behind it and reaches
far past the text. -/
theorem paint_rejects_exactly_within_character :
    let canvas := fresh .xterm {} {} 4 1
    let crooked : Line := ⟨['😀', 'b'], [⟨⟨1, some 2⟩, .foreground .red⟩,
      ⟨⟨3, some 3⟩, .graphic '-'⟩, ⟨⟨2, none⟩, .background .blue⟩]⟩
    let faulty : Line := ⟨['😀', 'b'], [⟨⟨5, none⟩, .graphic '-'⟩,
      ⟨⟨4, some 3⟩, .foreground .red⟩, ⟨⟨0, some 9⟩, .foreground .red⟩]⟩
    (∃ after, (paintLine .checked 3 0 crooked ⟨2, some maxOffset⟩ .text).run canvas =
        .ok () after) ∧
      (paintLine .checked 9 0 faulty ⟨2, some maxOffset⟩ .text).run canvas =
        .error (.stopped (.rejected (.spanFault (.inverted ⟨4, some 3⟩)))) canvas := by
  intro canvas crooked faulty
  have hwidth : canvas.frame.width < screenColumns := by decide
  have hclosed : ∃ stop ∈ some maxOffset, 2 ≤ stop := ⟨maxOffset, rfl, by decide⟩
  have hvalid : crooked.Valid := Line.valid_iff_fault?_eq_none.mpr (by decide)
  have hfault : faulty.FirstFault (.inverted ⟨4, some 3⟩) :=
    Line.fault?_eq_some_iff.mp (by decide)
  have hcounts : ¬ crooked.Overflows 2 := crooked.not_overflows_of_lt (by decide)
  obtain ⟨-, hpainted, -⟩ := @paint_rejects_exactly canvas 3 (by decide) hwidth .checked crooked
    (fun _ => by decide) 0 ⟨2, some maxOffset⟩ .text
  obtain ⟨hrejected, -⟩ := @paint_rejects_exactly canvas 9 (by decide) hwidth .checked faulty
    (fun _ => by decide) 0 ⟨2, some maxOffset⟩ .text
  exact ⟨hpainted.mpr ⟨⟨hvalid, hclosed⟩, fun hoverflows => hcounts hoverflows.2⟩,
    (hrejected _).mpr (.spanFault hclosed hfault)⟩

/-- With columns checked, painting stops at an attribute within the first character where
the window is the last one, although the line is not rejected. -/
theorem paint_stops_left_of_last_window :
    let canvas := fresh .xterm {} {} 4 1
    let line : Line := ⟨['😀', 'b'], [⟨⟨0, some 1⟩, .graphic '-'⟩]⟩
    let window : Span := ⟨maxColumn, some (maxColumn + 4)⟩
    line.AcceptedIn window ∧
      ∃ after, (paintLine .checked 0 0 line window .text).run canvas =
        .error (.stopped (.overflow (minColumn - 1))) after := by
  intro canvas line window
  have hvalid : line.fault? = none := by decide
  have hoverflows : line.Overflows maxColumn :=
    ⟨_, List.mem_cons_self, rfl, 1, by decide, Text.tooFarLeft_one rfl _⟩
  have hordered : maxColumn ≤ maxColumn + 4 := Nat.le_add_right ..
  exact ⟨⟨Line.valid_iff_fault?_eq_none.mpr hvalid, _, rfl, hordered⟩,
    run_paintLine_of_overflows (by decide) (by decide) hvalid hordered (fun _ => by decide)
      ⟨rfl, hoverflows⟩ 0 .text⟩

end Canvas

end LinePainter
