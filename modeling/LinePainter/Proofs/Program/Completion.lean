import LinePainter.Program
import LinePainter.Proofs.Painting.Flattening
import LinePainter.Proofs.SampleLog.Lines
import LinePainter.Proofs.Terminal.DrawnRows

namespace LinePainter

/-! The program comes to an end with all lines of the sample on the screen, whatever the
terminal can do and however narrow it is. -/

namespace Program

theorem exists_paintRows {lines : List Line} (hlines : ∀ line ∈ lines, line.fault? = none)
    (frame : Frame) (theme : Theme) (y : Nat) :
    ∃ painted paintedTheme, paintRows frame theme y lines = .ok (painted, paintedTheme) ∧
      painted.width = frame.width ∧ painted.height = frame.height := by
  induction lines generalizing frame theme y with
  | nil => exact ⟨frame, theme, rfl, rfl, rfl⟩
  | cons line rest ih =>
      have hrest : ∀ other ∈ rest, other.fault? = none :=
        fun other hother => hlines other (List.mem_cons_of_mem _ hother)
      have hpaint := Frame.paint_of_valid (hlines line List.mem_cons_self)
        (Nat.zero_le frame.width) frame theme 0 y (if rest.isEmpty then .status else .text)
      rw [paintRows, hpaint]
      exact ih hrest ..

theorem picture_eq {options : Options} {theme painted : Theme} {lines : List Line}
    {frame : Frame}
    (htheme : theme = Theme.build Palette.xterm options.capabilities options.settings)
    (hlines : SampleLog.lines theme options.width = .ok lines)
    (hfew : lines.length < 65536)
    (hpaint : paintRows (Frame.empty options.width lines.length) theme 0 lines =
      .ok (frame, painted)) :
    picture options = .ok (frame, painted) := by
  rw [picture, ← htheme, hlines]
  simp only [bind, Except.bind, mapError_ok]
  rw [if_neg (Nat.not_le_of_lt hfew), hpaint, mapError_ok]

theorem run_eq {options : Options} {frame : Frame} {painted : Theme}
    (hpicture : picture options = .ok (frame, painted)) :
    run options = .ok (frame.toTerminal painted.colorsOf ++ "\n") := by
  rw [run, hpicture]
  rfl

theorem outcome_eq {arguments : List String} {options : Options} {output : String}
    (harguments : Options.parse arguments = .ok options) (hrun : run options = .ok output) :
    outcome arguments = ⟨0, output, ""⟩ := by
  unfold outcome
  simp only [harguments, hrun]

/-- Whatever is asked for, the program shows every line of the sample on a row of its own,
which it fills, and reports no failure. -/
theorem run_completes (options : Options) :
    let theme := Theme.build Palette.xterm options.capabilities options.settings
    ∃ lines frame painted, ∃ rows : List (List Signal), ∃ output,
      SampleLog.lines theme options.width = .ok lines ∧
      (∀ line ∈ lines, line.fault? = none) ∧ 0 < lines.length ∧ lines.length < 65536 ∧
      paintRows (Frame.empty options.width lines.length) theme 0 lines =
        .ok (frame, painted) ∧
      run options = .ok output ∧
      output = String.ofList (Signal.encodeAll (rows.flatten ++ [Signal.reset])) ++
        "\n" ∧
      rows.length = lines.length ∧
      (∀ y signals, rows[y]? = some signals → ∃ cells, frame.row? y = some cells ∧
        cells.length = options.width ∧ Signal.DrawsRow y cells signals) ∧
      ∀ arguments, Options.parse arguments = .ok options →
        outcome arguments = ⟨0, output, ""⟩ := by
  intro theme
  obtain ⟨lines, hlines, hvalid, hpos, hfew⟩ := SampleLog.exists_lines theme options.width
  obtain ⟨frame, painted, hpaint, hwidth, hheight⟩ :=
    exists_paintRows hvalid (Frame.empty options.width lines.length) theme 0
  have hrun := run_eq
    (picture_eq rfl hlines (Nat.lt_of_le_of_lt hfew (by decide)) hpaint)
  refine ⟨lines, frame, painted, frame.signalsByRow painted.colorsOf, _, hlines, hvalid, hpos,
    by omega, hpaint, hrun, ?_, ?_, ?_, ?_⟩
  · rw [Frame.toTerminal, Frame.signals_eq_flatten]
  · rw [Frame.length_signalsByRow, hheight]
    rfl
  · intro y signals hsignals
    obtain ⟨cells, hcells, hlength, hdraws⟩ := frame.drawsRow_signalsByRow _ hsignals
    exact ⟨cells, hcells, hlength.trans hwidth, hdraws⟩
  · exact fun arguments harguments => outcome_eq harguments hrun

end Program

end LinePainter
