import LinePainter.Proofs.Painting.Composition
import LinePainter.Proofs.Painting.Repainting

namespace LinePainter

/-! A line has one picture. A window shows a part of it, whichever part is painted where, and
the order in which attributes of unequal spans were added does not matter to it. -/

namespace Line

/-- No attribute asks for a color. -/
def Inkless (line : Line) : Prop :=
  ∀ attr ∈ line.attributes, attr.directive.isInk = false

instance (line : Line) : Decidable line.Inkless :=
  inferInstanceAs (Decidable (∀ attr ∈ line.attributes, _))

/-- The cell shows a column of the line. Its pair is known from the line only if no color is
asked for; otherwise it is what a table has answered. -/
structure Shows (line : Line) (base : Look) (column : Nat) (cell : Cell) : Prop where
  glyph : cell.codepoint = (line.glyphAt column).toNat
  style : cell.look.style = line.styleAt base.style column
  pair : line.Inkless → cell.look.pair = line.pairAt base.pair column

variable {line other : Line}

theorem Inkless.pairsWithin_eq (hinkless : line.Inkless) (table : PairTable) (base : PairId)
    (start width : Nat) :
    line.pairsWithin table base start width =
      ((List.range' start width).map (line.pairAt base), table) := by
  apply if_neg
  rintro ⟨_, -, attr, hattr, hink, -⟩
  rw [hinkless attr hattr] at hink
  cases hink

theorem exists_shows_compose (line : Line) (table : PairTable) (base : Look) (start : Nat)
    {position width : Nat} (hposition : position < width) :
    ∃ cell, (line.compose table base start width).1[position]? = some cell ∧
      line.Shows base (start + position) cell := by
  obtain ⟨pair, hpair⟩ :
      ∃ pair, (line.pairsWithin table base.pair start width).1[position]? = some pair := by
    rw [← length_pairsWithin line table base.pair start width] at hposition
    exact ⟨_, List.getElem?_eq_getElem hposition⟩
  refine ⟨_, by rw [getElem?_compose _ _ _ _ hposition, hpair]; rfl, rfl, rfl, fun hinkless => ?_⟩
  rw [hinkless.pairsWithin_eq, List.getElem?_map, List.getElem?_range' hposition,
    Nat.one_mul] at hpair
  exact (Option.some.inj hpair).symm

theorem fault?_of_reordered (hvalid : line.fault? = none) (htext : other.text = line.text)
    (hreordered : Reordered line.attributes other.attributes) : other.fault? = none := by
  rw [← valid_iff_fault?_eq_none] at hvalid ⊢
  intro attr hattr
  rw [length, htext]
  exact hvalid attr (hreordered.perm.mem_iff.mp hattr)

end Line

namespace Frame

/-- The column is in the window from `start` to `stop`, and on the frame when that window is
painted from `(x, y)` on. -/
structure Lands (frame : Frame) (x y start stop column : Nat) : Prop where
  start_le : start ≤ column
  lt_stop : column < stop
  inBounds : frame.InBounds (x + (column - start)) y

variable {frame frame' painted painted' : Frame} {theme later after after' : Theme}
  {line other : Line} {x x' y y' start start' stop stop' column : Nat} {role : Role}

theorem exists_shows_of_paint
    (hpaint : frame.paint theme x y line ⟨start, some stop⟩ role = .ok (painted, after))
    (hcounts : ¬ line.Overflows start) (hlands : frame.Lands x y start stop column) :
    ∃ cell, painted.get? (x + (column - start)) y = some cell ∧
      line.Shows (theme.look role) column cell := by
  obtain ⟨position, rfl⟩ := Nat.exists_eq_add_of_le hlands.start_le
  have hinside := hlands.inBounds
  have hcolumn := hlands.lt_stop
  rw [Nat.add_sub_cancel_left] at hinside ⊢
  obtain ⟨hvalid, -⟩ := exists_painted_iff.mp ⟨painted, after, hpaint⟩
  rw [Line.valid_iff_fault?_eq_none] at hvalid
  rw [paint_of_valid hvalid (by omega), rowOf_eq_compose hvalid hcounts] at hpaint
  cases hpaint
  have hposition : position < min (stop - start) (frame.room x y) := by
    rw [room_of_lt hinside.2]
    have hwidth := hinside.1
    omega
  obtain ⟨cell, hcell, hshows⟩ :=
    line.exists_shows_compose theme.pairs (theme.look role) start hposition
  refine ⟨cell, ?_, hshows⟩
  rw [get?_write, if_pos, Nat.add_sub_cancel_left, hcell]
  rw [Line.length_compose]
  exact ⟨hinside, rfl, Nat.le_add_right .., Nat.add_lt_add_left hposition x⟩

/-- Windows of a line show slices of one picture. A column that two of them show has the same
glyph and style in both, and the same pair too if the line asks for no color; where the windows
lie, how large the frames are and what was on them does not matter, nor what the theme was used
for in between. -/
theorem windows_show_one_picture {counting : Counting}
    (hlength : counting = .checked → line.length < 2 ^ 59)
    (hcounts : counting = .wrapping → ¬ line.Overflows start ∧ ¬ line.Overflows start')
    (hpaint : frame.paintBy counting theme x y line ⟨start, some stop⟩ role =
      .ok (painted, after))
    (hgrows : theme.GrowsInto later)
    (hpaint' : frame'.paintBy counting later x' y' line ⟨start', some stop'⟩ role =
      .ok (painted', after'))
    (hlands : frame.Lands x y start stop column)
    (hlands' : frame'.Lands x' y' start' stop' column) :
    ∃ cell cell',
      painted.get? (x + (column - start)) y = some cell ∧
      painted'.get? (x' + (column - start')) y' = some cell' ∧
      cell.codepoint = cell'.codepoint ∧ cell.look.style = cell'.look.style ∧
      (line.Inkless → cell.look.pair = cell'.look.pair) := by
  obtain ⟨hpaint, hstopped⟩ := paint_of_paintBy hlength hpaint
  obtain ⟨hpaint', hstopped'⟩ := paint_of_paintBy hlength hpaint'
  have hinRange : ¬ line.Overflows start ∧ ¬ line.Overflows start' := by
    cases counting with
    | checked => exact ⟨fun h => hstopped ⟨rfl, h⟩, fun h => hstopped' ⟨rfl, h⟩⟩
    | wrapping => exact hcounts rfl
  have hlook : later.look role = theme.look role := by
    rw [Theme.look, Theme.look, hgrows.looks_eq]
  obtain ⟨cell, hcell, hshows⟩ := exists_shows_of_paint hpaint hinRange.1 hlands
  obtain ⟨cell', hcell', hshows'⟩ := exists_shows_of_paint hpaint' hinRange.2 hlands'
  rw [hlook] at hshows'
  exact ⟨cell, cell', hcell, hcell', hshows.glyph.trans hshows'.glyph.symm,
    hshows.style.trans hshows'.style.symm,
    fun hinkless => (hshows.pair hinkless).trans (hshows'.pair hinkless).symm⟩

theorem windows_show_one_picture_across_tab :
    let line : Line := ⟨['a', '\t', 'é', 'b'],
      [⟨⟨1, none⟩, .style ⟨{ reverse := true }, 9⟩⟩, ⟨⟨0, some 2⟩, .graphic '-'⟩]⟩
    let theme := Theme.build .xterm {} {}
    let later := (Canvas.perform ⟨empty 1 1, theme⟩ (.request (.indexed 200 17))).theme
    ∃ painted after painted' after',
      (empty 8 2).paintBy .wrapping theme 1 1 line ⟨2, some 9⟩ .error = .ok (painted, after) ∧
        (empty 30 1).paintBy .wrapping later 0 0 line ⟨5, some 40⟩ .error =
          .ok (painted', after') ∧
        painted.get? 5 1 = painted'.get? 1 0 := by
  generalize Theme.build .xterm {} {} = theme
  intro line theme later
  have hgrows : theme.GrowsInto later := .perform _ _ .refl
  have hvalid : line.fault? = none := by decide
  have hpaint := paintBy_wrapping
    (paint_of_valid hvalid (by decide : 2 ≤ 9) (empty 8 2) theme 1 1 .error)
  have hpaint' := paintBy_wrapping
    (paint_of_valid hvalid (by decide : 5 ≤ 40) (empty 30 1) later 0 0 .error)
  have hlands : (empty 8 2).Lands 1 1 2 9 6 := ⟨by decide, by decide, by decide⟩
  have hlands' : (empty 30 1).Lands 0 0 5 40 6 := ⟨by decide, by decide, by decide⟩
  obtain ⟨⟨glyph, style, pair⟩, ⟨glyph', style', pair'⟩, hcell, hcell', hglyph, hstyle, hpair⟩ :=
    windows_show_one_picture Counting.noConfusion
      (fun _ => ⟨line.not_overflows_of_lt (by decide), line.not_overflows_of_lt (by decide)⟩)
      hpaint hgrows hpaint' hlands hlands'
  cases hglyph
  cases hstyle
  cases hpair (by decide)
  exact ⟨_, _, _, _, hpaint, hpaint', hcell.trans hcell'.symm⟩

/-- Where columns wrap around, windows from the last column on and from the one before it
show different glyphs there. -/
theorem last_windows_show_two_pictures :
    let line : Line := ⟨['😀', 'b'], [⟨⟨0, some 1⟩, .graphic '-'⟩]⟩
    let theme := Theme.build .xterm {} {}
    ∃ painted after painted' after',
      (empty 4 1).paintBy .wrapping theme 0 0 line ⟨maxColumn - 1, some (maxColumn + 4)⟩ .text =
          .ok (painted, after) ∧
        (empty 4 1).paintBy .wrapping theme 0 0 line ⟨maxColumn, some (maxColumn + 4)⟩ .text =
          .ok (painted', after') ∧
        (painted.get? 1 0).map (·.codepoint) = some ' '.toNat ∧
        (painted'.get? 0 0).map (·.codepoint) = some '-'.toNat := by
  generalize Theme.build .xterm {} {} = theme
  intro line theme
  have hvalid : line.fault? = none := by decide
  have hpaint := paint_of_valid hvalid (by decide : maxColumn - 1 ≤ maxColumn + 4) (empty 4 1)
    theme 0 0 .text
  have hpaint' := paint_of_valid hvalid (by decide : maxColumn ≤ maxColumn + 4) (empty 4 1)
    theme 0 0 .text
  refine ⟨_, _, _, _, paintBy_wrapping hpaint, paintBy_wrapping hpaint', ?_, ?_⟩
  · have hcounts : ¬ line.Overflows (maxColumn - 1) := line.not_overflows_of_lt (by decide)
    have hlands : (empty 4 1).Lands 0 0 (maxColumn - 1) (maxColumn + 4) maxColumn :=
      ⟨by decide, by decide, by decide⟩
    have hglyph : line.glyphAt maxColumn = ' ' := by
      rw [Line.glyphAt, Line.covering, Line.stampOrder_singleton]
      decide
    obtain ⟨cell, hcell, hshows⟩ := exists_shows_of_paint hpaint hcounts hlands
    refine (congrArg (Option.map (·.codepoint)) hcell).trans ?_
    rw [Option.map_some, hshows.glyph, hglyph]
  · have hnear : ¬ line.text.TooFarLeft maxColumn 0 := Text.not_tooFarLeft_zero _ _
    have hfar : line.text.TooFarLeft maxColumn 1 := Text.tooFarLeft_one rfl _
    rw [Nat.add_sub_cancel_left, rowOf_of_stop_tooFarLeft (by decide) (by decide) hnear hfar
      (by decide) (by decide)]
    rfl

/-- The order of the attributes of a line matters only among those of equal spans. -/
theorem paint_eq_of_reordered (hvalid : line.fault? = none) (htext : other.text = line.text)
    (hreordered : Reordered line.attributes other.attributes) (frame : Frame) (theme : Theme)
    (x y : Nat) (window : Span) (role : Role) :
    frame.paint theme x y other window role = frame.paint theme x y line window role := by
  have hvalid' := Line.fault?_of_reordered hvalid htext hreordered
  have hstrip (start width : Nat) (look : Look) :
      Strip.ofLine other start width look = Strip.ofLine line start width look := by
    rw [Strip.ofLine, Strip.ofLine, htext, Line.stampOrder_eq_of_reordered hreordered]
  simp only [paint, hvalid, hvalid', hstrip]

theorem paint_eq_of_reordered_around_open_span :
    let text : Text := ['a', 'b', 'c']
    let line : Line := ⟨text, [⟨⟨0, some 2⟩, .foreground .red⟩,
      ⟨⟨1, none⟩, .background .blue⟩, ⟨⟨0, some 2⟩, .foreground .green⟩]⟩
    let other : Line := ⟨text, [⟨⟨1, none⟩, .background .blue⟩,
      ⟨⟨0, some 2⟩, .foreground .red⟩, ⟨⟨0, some 2⟩, .foreground .green⟩]⟩
    let theme := Theme.build .xterm {} {}
    (empty 4 2).paint theme 1 1 other ⟨0, some 3⟩ .text =
      (empty 4 2).paint theme 1 1 line ⟨0, some 3⟩ .text := by
  intro text line other theme
  have hreordered : Reordered line.attributes other.attributes := by
    refine ⟨by decide, fun span => ?_⟩
    by_cases hopen : (⟨1, none⟩ : Span) = span
    · subst hopen
      rfl
    · simp [line, other, List.filter_cons, hopen]
  have hvalid : line.fault? = none := by decide
  have htext : other.text = line.text := rfl
  exact paint_eq_of_reordered hvalid htext hreordered (empty 4 2) theme 1 1 ⟨0, some 3⟩ .text

end Frame

end LinePainter
