import LinePainter.Proofs.Frame.Grid
import LinePainter.Proofs.Painting.RowOrder

namespace LinePainter

/-! Painting a line a second time changes nothing. The first time has put down whatever cells
the line has, and has asked for all its pairs. -/

namespace Theme

/-- What can become of a theme until it is reloaded: it is used to paint lines, on any frames,
and to answer requests. -/
inductive GrowsInto (theme : Theme) : Theme → Prop
  | refl : GrowsInto theme theme
  | perform {later : Theme} (frame : Frame) (action : Canvas.Action) :
      GrowsInto theme later → GrowsInto theme (Canvas.perform ⟨frame, later⟩ action).theme

/-- The themes that there can be. -/
inductive Reachable : Theme → Prop
  | build (palette : Palette) (capabilities : Capabilities) (settings : ColorSettings) :
      Reachable (build palette capabilities settings)
  | reload {theme : Theme} (capabilities : Capabilities) (settings : ColorSettings) :
      Reachable theme → Reachable (theme.reload capabilities settings)
  | grow {theme later : Theme} :
      Reachable theme → theme.GrowsInto later → Reachable later

variable {theme later : Theme}

theorem GrowsInto.looks_eq (hgrows : theme.GrowsInto later) : later.looks = theme.looks := by
  induction hgrows with
  | refl => rfl
  | perform frame action _ ih => exact (Canvas.size_frame_perform _ action).2.2.trans ih

theorem GrowsInto.ready (hgrows : theme.GrowsInto later) (hready : theme.Ready) :
    later.Ready := by
  induction hgrows with
  | refl => exact hready
  | @perform later frame action _ ih => exact (@Canvas.theme_perform ⟨frame, later⟩ ih action).1

theorem Reachable.ready (hreachable : theme.Reachable) : theme.Ready := by
  induction hreachable with
  | build palette capabilities settings => exact ready_build palette capabilities settings
  | reload capabilities settings _ ih => exact ih.undergo (.reload capabilities settings)
  | grow _ hgrows ih => exact hgrows.ready ih

end Theme

namespace Canvas

variable {canvas : Canvas}

/-- What painting a line answers, and the canvas after it. -/
def paint (canvas : Canvas) (x y : Nat) (line : Line) (window : Span) (role : Role) :
    Except PaintError Unit × Canvas :=
  ((canvas.frame.paint canvas.theme x y line window role).map fun _ => (),
    canvas.perform (.paint x y line window role))

/-- The answer is about the line and the window, and not about what is painted on. -/
theorem paint_fst (canvas : Canvas) (x y : Nat) (line : Line) (window : Span) (role : Role) :
    (canvas.paint x y line window role).1 =
      match window.windowBounds, line.fault? with
      | .error error, _ => .error error
      | .ok _, some fault => .error (.spanFault fault)
      | .ok _, none => .ok () := by
  rw [paint, Frame.paint]
  cases window.windowBounds with
  | error error => rfl
  | ok bounds => cases line.fault? <;> rfl

theorem perform_paint_again (hinUse : canvas.theme.pairs.InUse) (x y : Nat) (line : Line)
    (window : Span) (role : Role) :
    (canvas.perform (.paint x y line window role)).perform (.paint x y line window role) =
      canvas.perform (.paint x y line window role) := by
  have hfirst := canvas.perform_paint x y line window role
  cases hwindow : window.windowBounds with
  | error error =>
      rw [hwindow] at hfirst
      rw [hfirst, hfirst]
  | ok bounds =>
      obtain ⟨start, length⟩ := bounds
      cases hline : line.fault? with
      | some fault =>
          rw [hwindow, hline] at hfirst
          rw [hfirst, hfirst]
      | none =>
          rw [hwindow, hline] at hfirst
          let row := canvas.frame.rowOf canvas.theme x y line start length role
          -- Neither the room nor the look of the role is another one after the first time.
          have hagain : Frame.rowOf (canvas.frame.write x y row.1)
              { canvas.theme with pairs := row.2 } x y line start length role = row :=
            Strip.flatten_again _ hinUse
          rw [hfirst, perform_paint, hwindow, hline]
          dsimp only
          rw [hagain, Frame.write_write_of_length_le _ _ _ (Nat.le_refl _)]

/-- Painting the same line at the same place again answers the same and leaves the frame and
the theme as they are. It does so if the line is rejected, and also if pairs were turned away
because the table became full. -/
theorem repainting_changes_nothing (hreachable : canvas.theme.Reachable) (x y : Nat)
    (line : Line) (window : Span) (role : Role) :
    let first := canvas.paint x y line window role
    first.2.paint x y line window role = first := by
  intro first
  apply Prod.ext
  · rw [paint_fst, paint_fst]
  · exact perform_paint_again hreachable.ready.inUse x y line window role

theorem repainting_changes_nothing_beside_full_table :
    let built := Theme.build .xterm ⟨256, 66⟩ { defaultColors := true }
    let canvas := perform ⟨.empty 6 2, built⟩ (.request (.indexed 200 17))
    let line : Line := ⟨['a', '\t', 'c'],
      [⟨⟨0, some 2⟩, .foreground 200⟩, ⟨⟨1, none⟩, .style ⟨{ reverse := true }, 9⟩⟩]⟩
    let first := canvas.paint 1 0 line ⟨0, some 9⟩ .error
    first.1 = .ok () ∧ first.2.paint 1 0 line ⟨0, some 9⟩ .error = first := by
  have hbuilt := Theme.Reachable.build .xterm ⟨256, 66⟩ { defaultColors := true }
  generalize Theme.build .xterm ⟨256, 66⟩ { defaultColors := true } = built at *
  intro built' canvas line first
  have hreachable : canvas.theme.Reachable := hbuilt.grow (.perform _ _ .refl)
  have hvalid : line.fault? = none := by decide
  refine ⟨?_, repainting_changes_nothing hreachable 1 0 line ⟨0, some 9⟩ .error⟩
  rw [paint_fst, hvalid]
  rfl

end Canvas

end LinePainter
