import LinePainter.Proofs.Painting.Overflow
import LinePainter.Proofs.Strip.Stamping

namespace LinePainter

namespace Line

/-! What a display column of a line shows, taken by itself. -/

/-- The directives on a column, in stamp order. -/
def covering (line : Line) (column : Nat) : List Directive :=
  (line.stampOrder.filter fun attr =>
    (Expansion.ofText line.text).Covers attr.span column).map (·.directive)

def glyphAt (line : Line) (column : Nat) : Char :=
  ((line.covering column).filterMap (·.graphic?)).getLast?.getD
    ((Expansion.ofText line.text).glyphs[column]?.getD ' ')

def styleAt (line : Line) (base : Style) (column : Nat) : Style :=
  Style.stack (base :: ((line.covering column).filterMap (·.look?)).map (·.style))

def pairAt (line : Line) (base : PairId) (column : Nat) : PairId :=
  ((line.covering column).filterMap (·.pair?)).getLast?.getD base

def inkAt (line : Line) (column : Nat) : ColorId × ColorId :=
  (((line.covering column).filterMap (·.foreground?)).getLast?.getD .white,
    ((line.covering column).filterMap (·.background?)).getLast?.getD .black)

/-- Whether a color is asked for anywhere among `width` columns from `start` on. -/
def IsInkedWithin (line : Line) (start width : Nat) : Prop :=
  ∃ position < width, ∃ attr ∈ line.attributes,
    attr.directive.isInk = true ∧
      (Expansion.ofText line.text).Covers attr.span (start + position)

instance (line : Line) (start width : Nat) : Decidable (line.IsInkedWithin start width) :=
  inferInstanceAs (Decidable (∃ position < width, ∃ attr ∈ line.attributes, _ ∧ _))

/-- The pairs of `width` columns from `start` on. Where colors are asked for, every column
gets the pair of its colors, from left to right. -/
def pairsWithin (line : Line) (table : PairTable) (base : PairId) (start width : Nat) :
    List PairId × PairTable :=
  if line.IsInkedWithin start width then
    table.requestAll ((List.range' start width).map line.inkAt)
  else ((List.range' start width).map (line.pairAt base), table)

def compose (line : Line) (table : PairTable) (base : Look) (start width : Nat) :
    List Cell × PairTable :=
  let (pairs, table) := line.pairsWithin table base.pair start width
  (List.zipWith
    (fun column pair =>
      ⟨(line.glyphAt column).toNat, ⟨line.styleAt base.style column, pair⟩⟩)
    (List.range' start width) pairs, table)

end Line

namespace Strip

theorem getElem?_base (expansion : Expansion) (windowStart : Nat) (look : Look)
    {position width : Nat} (hposition : position < width) :
    (base expansion windowStart width look)[position]? =
      some { cell := Cell.ofChar (expansion.glyphs[windowStart + position]?.getD ' ') look } := by
  have hglyph : ((expansion.glyphs.drop windowStart).take width ++ List.replicate
      (width - ((expansion.glyphs.drop windowStart).take width).length) ' ')[position]? =
      some (expansion.glyphs[windowStart + position]?.getD ' ') := by
    rw [List.getElem?_append, List.getElem?_take_of_lt hposition, List.getElem?_drop,
      List.length_take, List.length_drop]
    split
    · next hshown =>
        have hglyphs : windowStart + position < expansion.glyphs.length := by omega
        rw [List.getElem?_eq_getElem hglyphs]
        rfl
    · next hpast =>
        have hglyphs : expansion.glyphs.length ≤ windowStart + position := by omega
        rw [List.getElem?_eq_none hglyphs, List.getElem?_replicate_of_lt (by omega)]
        rfl
  rw [base, List.getElem?_map, hglyph]
  rfl

/-- Behind the text there are spaces only. -/
theorem base_of_width_le {expansion : Expansion} {windowStart : Nat}
    (hbehind : expansion.width ≤ windowStart) (width : Nat) (look : Look) :
    base expansion windowStart width look =
      List.replicate width { cell := Cell.ofChar ' ' look } := by
  rw [base, List.drop_eq_nil_of_le hbehind, List.take_nil]
  exact List.map_replicate

theorem stampRun_whole (strip : Strip) (directive : Directive) :
    strip.stampRun 0 strip.length directive = strip.map directive.stamp := by
  apply List.ext_getElem
  · rw [stampRun, List.length_mapIdx, List.length_map]
  · intro position hposition hmapped
    rw [List.length_map] at hmapped
    simp only [stampRun, List.getElem_mapIdx, List.getElem_map]
    rw [if_pos ⟨Nat.zero_le _, hmapped⟩]

theorem getElem?_stampAttribute {text : Text} {attr : Attribute} {windowStart : Nat}
    (hfits : attr.span.Fits text.byteLength) (hcounts : ¬ attr.Overflows text windowStart)
    (strip : Strip) {position width : Nat} (hposition : position < width) :
    (stampAttribute (Expansion.ofText text) windowStart width strip attr)[position]? =
      strip[position]?.map fun column =>
        if (Expansion.ofText text).Covers attr.span (windowStart + position) then
          attr.directive.stamp column
        else column := by
  cases hshown : attr.directive.isShown with
  | false =>
      simp only [strip.stampAttribute_of_not_isShown width _ _ hshown,
        Directive.stamp_of_not_isShown hshown, ite_self, Option.map_id']
  | true =>
      have hclip := Expansion.mem_clip_iff hfits
        (fun offset hend hfar => hcounts ⟨hshown, offset, hend, hfar⟩) hposition
      unfold stampAttribute
      cases hrun : (Expansion.ofText text).clip attr.span windowStart width with
      | none =>
          have hbare : ¬ (Expansion.ofText text).Covers attr.span (windowStart + position) := by
            rw [← hclip, hrun]
            rintro ⟨run, hmem, -⟩
            cases hmem
          simp only [hbare, if_false, Option.map_id']
      | some run =>
          have hreached : (run.1 ≤ position ∧ position < run.2) ↔
              (Expansion.ofText text).Covers attr.span (windowStart + position) := by
            rw [← hclip, hrun]
            simp
          simp only [stampRun, List.getElem?_mapIdx, hreached]

theorem getElem?_foldl_stampAttribute {text : Text} {windowStart : Nat}
    {attributes : List Attribute}
    (hfits : ∀ attr ∈ attributes, attr.span.Fits text.byteLength)
    (hcounts : ∀ attr ∈ attributes, ¬ attr.Overflows text windowStart)
    (strip : Strip) {position width : Nat} (hposition : position < width) :
    (attributes.foldl (stampAttribute (Expansion.ofText text) windowStart width)
        strip)[position]? =
      strip[position]?.map fun column =>
        ((attributes.filter fun attr =>
          (Expansion.ofText text).Covers attr.span (windowStart + position)).map
            (·.directive)).foldl Directive.stamp column := by
  induction attributes generalizing strip with
  | nil => simp
  | cons attr rest ih =>
      obtain ⟨hattr, hrest⟩ := List.forall_mem_cons.mp hfits
      obtain ⟨hcountsAttr, hcountsRest⟩ := List.forall_mem_cons.mp hcounts
      rw [List.foldl_cons, ih hrest hcountsRest,
        getElem?_stampAttribute hattr hcountsAttr _ hposition, Option.map_map]
      congr 1
      funext column
      by_cases hcovers : (Expansion.ofText text).Covers attr.span (windowStart + position)
      · simp [hcovers]
      · simp [hcovers]

end Strip

namespace Line

def columnAt (line : Line) (look : Look) (column : Nat) : Column :=
  (line.covering column).foldl Directive.stamp
    { cell := Cell.ofChar ((Expansion.ofText line.text).glyphs[column]?.getD ' ') look }

variable {line : Line}

theorem ofLine_eq_map {start : Nat} (hvalid : line.Valid) (hcounts : ¬ line.Overflows start)
    (look : Look) (width : Nat) :
    Strip.ofLine line start width look =
      (List.range' start width).map (line.columnAt look) := by
  have hfits : ∀ attr ∈ line.stampOrder, attr.span.Fits line.text.byteLength :=
    fun attr hmem => hvalid attr (mem_stampOrder.mp hmem)
  have hinRange : ∀ attr ∈ line.stampOrder, ¬ attr.Overflows line.text start :=
    fun attr hmem hoverflows => hcounts ⟨attr, mem_stampOrder.mp hmem, hoverflows⟩
  apply List.ext_getElem?
  intro position
  by_cases hposition : position < width
  · rw [Strip.ofLine, Strip.getElem?_foldl_stampAttribute hfits hinRange _ hposition,
      Strip.getElem?_base _ _ _ hposition, List.getElem?_map,
      List.getElem?_range' hposition, Nat.one_mul]
    rfl
  · rw [List.getElem?_eq_none, List.getElem?_eq_none]
    · rw [List.length_map, List.length_range']
      exact Nat.le_of_not_lt hposition
    · rw [Strip.length_ofLine]
      exact Nat.le_of_not_lt hposition

theorem cell_columnAt (line : Line) (look : Look) (column : Nat) :
    (line.columnAt look column).cell =
      ⟨(line.glyphAt column).toNat,
        ⟨line.styleAt look.style column, line.pairAt look.pair column⟩⟩ := by
  have hcell (cell : Cell) : cell = ⟨cell.codepoint, ⟨cell.look.style, cell.look.pair⟩⟩ := rfl
  rw [hcell (line.columnAt look column).cell, columnAt, Directive.codepoint_foldl_stamp,
    Directive.style_foldl_stamp, Directive.pair_foldl_stamp, glyphAt]
  congr 1
  cases ((line.covering column).filterMap Directive.graphic?).getLast? <;> rfl

theorem ink_columnAt (line : Line) (look : Look) (column : Nat) :
    (line.columnAt look column).ink = line.inkAt column := by
  rw [Column.ink, columnAt, Directive.foreground_foldl_stamp, Directive.background_foldl_stamp,
    Option.or_none, Option.or_none, inkAt]

theorem mem_covering {column : Nat} {directive : Directive} :
    directive ∈ line.covering column ↔
      ∃ attr ∈ line.attributes, attr.directive = directive ∧
        (Expansion.ofText line.text).Covers attr.span column := by
  simp only [covering, List.mem_map, List.mem_filter, decide_eq_true_eq, mem_stampOrder]
  constructor
  · rintro ⟨attr, ⟨hmem, hcovers⟩, hdirective⟩
    exact ⟨attr, hmem, hdirective, hcovers⟩
  · rintro ⟨attr, hmem, hdirective, hcovers⟩
    exact ⟨attr, ⟨hmem, hcovers⟩, hdirective⟩

theorem isInked_columnAt (line : Line) (look : Look) (column : Nat) :
    (line.columnAt look column).isInked = true ↔
      ∃ attr ∈ line.attributes, attr.directive.isInk = true ∧
        (Expansion.ofText line.text).Covers attr.span column := by
  have hasked (ask : Directive → Option ColorId) :
      ((line.covering column).filterMap ask).getLast?.isSome = true ↔
        ∃ attr ∈ line.attributes, (ask attr.directive).isSome = true ∧
          (Expansion.ofText line.text).Covers attr.span column := by
    constructor
    · intro hlast
      obtain ⟨color, hcolor⟩ := Option.isSome_iff_exists.mp hlast
      obtain ⟨directive, hmem, hask⟩ := List.mem_filterMap.mp (List.mem_of_getLast? hcolor)
      obtain ⟨attr, hattr, rfl, hcovers⟩ := mem_covering.mp hmem
      exact ⟨attr, hattr, Option.isSome_of_eq_some hask, hcovers⟩
    · rintro ⟨attr, hattr, hask, hcovers⟩
      obtain ⟨color, hcolor⟩ := Option.isSome_iff_exists.mp hask
      have hmem := mem_covering.mpr ⟨attr, hattr, rfl, hcovers⟩
      exact List.getLast?_isSome.mpr
        (List.ne_nil_of_mem (List.mem_filterMap.mpr ⟨_, hmem, hcolor⟩))
  rw [Column.isInked, columnAt, Directive.foreground_foldl_stamp,
    Directive.background_foldl_stamp, Option.or_none, Option.or_none, Bool.or_eq_true,
    hasked, hasked]
  simp only [Directive.isInk, Bool.or_eq_true, or_and_right, and_or_left, exists_or]

/-- The strip of a line comes out as its columns taken one by one. -/
theorem flatten_ofLine {start : Nat} (hvalid : line.Valid) (hcounts : ¬ line.Overflows start)
    (table : PairTable) (look : Look) (width : Nat) :
    (Strip.ofLine line start width look).flatten table =
      line.compose table look start width := by
  have hinked : ((List.range' start width).map (line.columnAt look)).any (·.isInked) = true ↔
      line.IsInkedWithin start width := by
    rw [List.any_map, List.any_eq_true]
    simp only [Function.comp_apply, isInked_columnAt]
    constructor
    · rintro ⟨column, hmem, hcolumn⟩
      obtain ⟨hfrom, hto⟩ := List.mem_range'_1.mp hmem
      obtain ⟨position, rfl⟩ := Nat.exists_eq_add_of_le hfrom
      exact ⟨position, Nat.lt_of_add_lt_add_left hto, hcolumn⟩
    · rintro ⟨position, hposition, hcolumn⟩
      refine ⟨start + position, List.mem_range'_1.mpr ⟨Nat.le_add_right .., ?_⟩, hcolumn⟩
      exact Nat.add_lt_add_left hposition start
  rw [ofLine_eq_map hvalid hcounts, Strip.flatten, compose, pairsWithin]
  by_cases hwithin : line.IsInkedWithin start width
  · have hinks : ((List.range' start width).map (line.columnAt look)).map (·.ink) =
        (List.range' start width).map line.inkAt := by
      rw [List.map_map]
      exact List.map_congr_left fun column _ => ink_columnAt line look column
    rw [if_pos (hinked.mpr hwithin), if_pos hwithin, hinks]
    dsimp only
    rw [List.zipWith_map_left]
    simp only [cell_columnAt, Cell.withPair]
  · rw [if_neg (fun hany => hwithin (hinked.mp hany)), if_neg hwithin, List.map_map]
    dsimp only
    rw [List.zipWith_map_right, List.zipWith_self]
    simp only [Function.comp_def, cell_columnAt]

theorem length_pairsWithin (line : Line) (table : PairTable) (base : PairId)
    (start width : Nat) : (line.pairsWithin table base start width).1.length = width := by
  unfold pairsWithin
  split
  · rw [PairTable.length_requestAll, List.length_map, List.length_range']
  · rw [List.length_map, List.length_range']

theorem length_compose (line : Line) (table : PairTable) (base : Look) (start width : Nat) :
    (line.compose table base start width).1.length = width := by
  rw [compose, List.length_zipWith, List.length_range', length_pairsWithin, Nat.min_self]

theorem getElem?_compose (line : Line) (table : PairTable) (base : Look) (start : Nat)
    {position width : Nat} (hposition : position < width) :
    (line.compose table base start width).1[position]? =
      (line.pairsWithin table base.pair start width).1[position]?.map fun pair =>
        ⟨(line.glyphAt (start + position)).toNat,
          ⟨line.styleAt base.style (start + position), pair⟩⟩ := by
  rw [compose, List.getElem?_zipWith, List.getElem?_range' hposition, Nat.one_mul]
  cases (line.pairsWithin table base.pair start width).1[position]? <;> rfl

end Line

namespace Frame

variable {frame : Frame} {theme : Theme} {line : Line} {y start stop : Nat}

theorem rowOf_eq_compose (hvalid : line.fault? = none) (hcounts : ¬ line.Overflows start)
    (frame : Frame) (theme : Theme) (x y length : Nat) (role : Role) :
    frame.rowOf theme x y line start length role =
      line.compose theme.pairs (theme.look role) start (min length (frame.room x y)) :=
  Line.flatten_ofLine (Line.valid_iff_fault?_eq_none.mpr hvalid) hcounts ..

/-- A painted row shows every column of the window as it is by itself, and nothing else of
the frame changes. -/
theorem paint_composes_columns (hrow : y < frame.height) (hvalid : line.fault? = none)
    (hwindow : start ≤ stop) (hcounts : ¬ line.Overflows start) {counting : Counting}
    (hlength : counting = .checked → line.length < 2 ^ 59) (x : Nat) (role : Role) :
    let width := min (stop - start) (frame.width - x)
    let base := theme.look role
    let answered := line.pairsWithin theme.pairs base.pair start width
    StablySorted line.attributes line.stampOrder ∧
      ∃ painted,
        frame.paintBy counting theme x y line ⟨start, some stop⟩ role =
            .ok (painted, { theme with pairs := answered.2 }) ∧
          painted.width = frame.width ∧ painted.height = frame.height ∧
          (∀ position < width, ∃ pair,
            answered.1[position]? = some pair ∧
              painted.get? (x + position) y =
                some ⟨(line.glyphAt (start + position)).toNat,
                  ⟨line.styleAt base.style (start + position), pair⟩⟩) ∧
          ∀ x' y', ¬ (y' = y ∧ x ≤ x' ∧ x' < x + width) →
            painted.get? x' y' = frame.get? x' y' := by
  intro width base answered
  have hpaint := paintBy_of_valid frame theme x y role hlength hvalid hwindow hcounts
  rw [rowOf_eq_compose hvalid hcounts, room_of_lt hrow] at hpaint
  have hcells := line.length_compose theme.pairs base start width
  refine ⟨line.stablySorted_stampOrder, _, hpaint, rfl, rfl, ?_, ?_⟩
  · intro position hposition
    have hcolumn : x + position < frame.width := by omega
    have hanswered : position < answered.1.length := by
      rw [line.length_pairsWithin]
      exact hposition
    refine ⟨answered.1[position], List.getElem?_eq_getElem hanswered, ?_⟩
    have hreached := Nat.add_lt_add_left hposition x
    rw [← hcells] at hreached
    rw [get?_write, if_pos ⟨⟨hcolumn, hrow⟩, rfl, Nat.le_add_right .., hreached⟩,
      Nat.add_sub_cancel_left, Line.getElem?_compose _ _ _ _ hposition,
      List.getElem?_eq_getElem hanswered]
    rfl
  · intro x' y' helsewhere
    rw [get?_write, if_neg]
    rintro ⟨-, hsame, hleft, hright⟩
    exact helsewhere ⟨hsame, hleft, hcells ▸ hright⟩

theorem paint_composes_columns_dashed_tab :
    let line : Line := ⟨['a', '\t', 'b'], [⟨⟨1, some 2⟩, .graphic '-'⟩]⟩
    let theme := Theme.build .xterm {} {}
    ∃ painted after,
      (empty 12 2).paintBy .checked theme 3 1 line ⟨0, some 20⟩ .text = .ok (painted, after) ∧
        (painted.get? 10 1).map (·.codepoint) = some '-'.toNat := by
  intro line theme
  have hrow : 1 < (empty 12 2).height := Nat.lt_succ_self 1
  have hvalid : line.fault? = none := by decide
  have hwindow : 0 ≤ 20 := Nat.zero_le 20
  have hcounts : ¬ line.Overflows 0 := line.not_overflows_of_lt (by decide)
  obtain ⟨-, painted, hpaint, -, -, hcells, -⟩ :=
    @paint_composes_columns (empty 12 2) theme line 1 0 20 hrow hvalid hwindow hcounts .checked
      (fun _ => by decide) 3 .text
  obtain ⟨pair, -, hcell⟩ := hcells 7 (by decide)
  have horder : line.stampOrder = line.attributes := List.mergeSort_singleton _
  have hglyph : line.glyphAt (0 + 7) = '-' := by
    rw [Line.glyphAt, Line.covering, horder]
    decide
  refine ⟨painted, _, hpaint, ?_⟩
  rw [hcell, hglyph]
  rfl

/-- Where columns wrap around, one glyph on a span that stops too far left of the window fills
the row. -/
theorem rowOf_of_stop_tooFarLeft {text : Text} {first last windowStart length x y : Nat}
    {frame : Frame} (hwidth : (Expansion.ofText text).width ≤ maxColumn)
    (hfirst : first ≤ text.byteLength) (hnear : ¬ text.TooFarLeft windowStart first)
    (hfar : text.TooFarLeft windowStart last) (hpos : 0 < min length (frame.room x y))
    (hscreen : frame.room x y ≤ maxColumn) (theme : Theme) (glyph : Char) (role : Role) :
    frame.rowOf theme x y ⟨text, [⟨⟨first, some last⟩, .graphic glyph⟩]⟩ windowStart length role =
      (List.replicate (min length (frame.room x y)) ⟨glyph.toNat, theme.look role⟩,
        theme.pairs) := by
  have hclip := Expansion.clip_of_stop_tooFarLeft hwidth hfirst hnear hfar hpos
    (Nat.le_trans (Nat.min_le_right ..) hscreen)
  rw [rowOf, Strip.ofLine, Line.stampOrder_singleton]
  generalize min length (frame.room x y) = width at *
  have hbase := Strip.base_of_width_le (Nat.le_trans hwidth hfar.1) width (theme.look role)
  have hstrip := Strip.stampRun_whole
    (Strip.base (Expansion.ofText text) windowStart width (theme.look role)) (.graphic glyph)
  rw [hbase, List.length_replicate, List.map_replicate] at hstrip
  rw [hbase, List.foldl_cons, List.foldl_nil]
  unfold Strip.stampAttribute
  rw [hclip]
  dsimp only
  rw [hstrip, Strip.flatten, if_neg]
  · rw [List.map_replicate]
    rfl
  · rw [List.any_replicate]
    simp [Directive.stamp, Column.isInked]

/-- In the last window, an attribute that stops within the first character shows on columns
that it does not cover, or else stops the painting. -/
theorem column_left_of_last_window_shows :
    let line : Line := ⟨['😀', 'b'], [⟨⟨0, some 1⟩, .graphic '-'⟩]⟩
    let theme := Theme.build .xterm {} {}
    line.fault? = none ∧ line.glyphAt maxColumn = ' ' ∧
      (∃ painted,
        (empty 4 1).paintBy .wrapping theme 0 0 line ⟨maxColumn, some (maxColumn + 4)⟩ .text =
            .ok (painted, theme) ∧
          (painted.get? 0 0).map (·.codepoint) = some '-'.toNat) ∧
      (empty 4 1).paintBy .checked theme 0 0 line ⟨maxColumn, some (maxColumn + 4)⟩ .text =
        .error (.overflow (minColumn - 1)) := by
  generalize Theme.build .xterm {} {} = theme
  intro line theme
  have hvalid : line.fault? = none := by decide
  have hnear : ¬ line.text.TooFarLeft maxColumn 0 := Text.not_tooFarLeft_zero _ _
  have hfar : line.text.TooFarLeft maxColumn 1 := Text.tooFarLeft_one rfl _
  have hpaint := paint_of_valid hvalid (Nat.le_add_right maxColumn 4) (empty 4 1) theme 0 0 .text
  rw [Nat.add_sub_cancel_left, rowOf_of_stop_tooFarLeft (by decide) (by decide) hnear hfar
    (by decide) (by decide)] at hpaint
  have haccepted : line.AcceptedIn ⟨maxColumn, some (maxColumn + 4)⟩ :=
    ⟨Line.valid_iff_fault?_eq_none.mpr hvalid, _, rfl, Nat.le_add_right ..⟩
  have hoverflows : line.Overflows maxColumn := ⟨_, List.mem_cons_self, rfl, 1, by decide, hfar⟩
  refine ⟨hvalid, ?_, ⟨_, paintBy_wrapping hpaint, rfl⟩,
    checkedPaint_of_overflows _ _ 0 0 .text (by decide) haccepted hoverflows⟩
  rw [Line.glyphAt, Line.covering, Line.stampOrder_singleton]
  decide

end Frame

end LinePainter
