import LinePainter.Proofs.Painting.Overflow
import LinePainter.Proofs.Painting.Steps

namespace LinePainter

/-! The steps of painting leave on the frame what the strip says, and no check of theirs
fails. -/

namespace Expansion

variable {expansion : Expansion} {span : Span} {windowStart width : Nat}

theorem checkedStop_le {limit : Option Nat} {stop : Int}
    (hstop : expansion.checkedStop windowStart width limit = .ok stop) : stop ≤ width := by
  cases limit with
  | none =>
      cases hstop
      exact Int.le_refl _
  | some offset =>
      rw [checkedStop] at hstop
      cases hdistance : expansion.checkedDistance windowStart offset with
      | error reason =>
          rw [hdistance] at hstop
          cases hstop
      | ok distance =>
          rw [hdistance] at hstop
          cases hstop
          exact Int.min_le_right ..

theorem clipBy_bounds {counting : Counting} {start stop : Nat}
    (hclip : expansion.clipBy counting span windowStart width = .ok (some (start, stop))) :
    start < stop ∧ stop ≤ width := by
  cases counting with
  | wrapping => exact clip_bounds (Except.ok.inj hclip)
  | checked =>
      rw [clipBy, checkedClip] at hclip
      cases hleft : expansion.checkedDistance windowStart span.start with
      | error reason =>
          rw [hleft] at hclip
          cases hclip
      | ok left =>
          cases hright : expansion.checkedStop windowStart width span.stop with
          | error reason =>
              rw [hleft, hright] at hclip
              cases hclip
          | ok right =>
              have hwidth := checkedStop_le hright
              rw [hleft, hright] at hclip
              have hrun := Except.ok.inj hclip
              rw [Option.ite_none_left_eq_some, Option.some.injEq, Prod.mk.injEq] at hrun
              omega

end Expansion

namespace Strip

/-- The strip after an attribute, where columns are counted either way. -/
def stampAttributeBy (counting : Counting) (expansion : Expansion) (windowStart width : Nat)
    (strip : Strip) (attr : Attribute) : Except ColumnStop Strip :=
  match counting with
  | .checked => strip.checkedStampAttribute expansion windowStart width attr
  | .wrapping => .ok (strip.stampAttribute expansion windowStart width attr)

theorem stampAttributeBy_of_not_isShown (counting : Counting) (expansion : Expansion)
    (windowStart width : Nat) (strip : Strip) {attr : Attribute}
    (hunshown : attr.directive.isShown = false) :
    strip.stampAttributeBy counting expansion windowStart width attr = .ok strip := by
  cases counting with
  | checked => exact if_neg (Bool.eq_false_iff.mp hunshown)
  | wrapping =>
      rw [stampAttributeBy, strip.stampAttribute_of_not_isShown width _ _ hunshown]

theorem stampAttributeBy_of_isShown (counting : Counting) (expansion : Expansion)
    (windowStart width : Nat) (strip : Strip) {attr : Attribute}
    (hshown : attr.directive.isShown = true) :
    strip.stampAttributeBy counting expansion windowStart width attr =
      (expansion.clipBy counting attr.span windowStart width).map fun
        | some (start, stop) => strip.stampRun start stop attr.directive
        | none => strip := by
  cases counting with
  | checked =>
      rw [stampAttributeBy, checkedStampAttribute, if_pos hshown, Expansion.clipBy]
      rcases expansion.checkedClip attr.span windowStart width with _ | _ | _ <;> rfl
  | wrapping =>
      rw [stampAttributeBy, Expansion.clipBy]
      unfold stampAttribute
      rcases expansion.clip attr.span windowStart width with _ | _ <;> rfl

theorem length_stampAttributeBy {counting : Counting} {expansion : Expansion}
    {windowStart width : Nat} {strip stamped : Strip} {attr : Attribute}
    (hstamped : strip.stampAttributeBy counting expansion windowStart width attr = .ok stamped) :
    stamped.length = strip.length := by
  cases hshown : attr.directive.isShown with
  | false =>
      rw [stampAttributeBy_of_not_isShown _ _ _ _ _ hshown] at hstamped
      cases hstamped
      rfl
  | true =>
      rw [stampAttributeBy_of_isShown _ _ _ _ _ hshown] at hstamped
      generalize expansion.clipBy counting attr.span windowStart width = clipped at hstamped
      rcases clipped with _ | _ | ⟨start, stop⟩
      · cases hstamped
      · cases hstamped
        rfl
      · cases hstamped
        exact List.length_mapIdx

section

variable {line : Line} {counting : Counting} (hvalid : line.Valid)
  (hlength : counting = .checked → line.length < 2 ^ 59) {windowStart : Nat}

include hvalid hlength

theorem foldlM_stampAttributeBy
    (hcounts : ¬ (counting = .checked ∧ line.Overflows windowStart)) (width : Nat)
    (strip : Strip) :
    let expansion := Expansion.ofText line.text
    line.stampOrder.foldlM (stampAttributeBy counting expansion windowStart width) strip =
      .ok (line.stampOrder.foldl (stampAttribute expansion windowStart width) strip) := by
  intro expansion
  cases counting with
  | checked =>
      exact foldlM_checkedStampAttribute (hlength rfl) width
        (fun attr hattr => hvalid attr (Line.mem_stampOrder.mp hattr)) strip
        fun attr hattr hoverflows =>
          hcounts ⟨rfl, attr, Line.mem_stampOrder.mp hattr, hoverflows⟩
  | wrapping => exact List.foldlM_pure

theorem foldlM_stampAttributeBy_of_overflows
    (hoverflows : counting = .checked ∧ line.Overflows windowStart) (width : Nat)
    (strip : Strip) :
    line.stampOrder.foldlM
        (stampAttributeBy counting (.ofText line.text) windowStart width) strip =
      .error (.overflow (minColumn - 1)) := by
  obtain ⟨rfl, attr, hattr, hoverflow⟩ := hoverflows
  exact foldlM_checkedStampAttribute_of_overflows (hlength rfl) width
    (fun attr hattr => hvalid attr (Line.mem_stampOrder.mp hattr)) strip
    ⟨attr, Line.mem_stampOrder.mpr hattr, hoverflow⟩

end

variable {strip : Strip}

theorem flatten_of_inked {table after : PairTable} {pairs : List PairId}
    (hinked : strip.any (·.isInked) = true)
    (hanswered : table.requestAll (strip.map (·.ink)) = (pairs, after)) :
    strip.flatten table =
      (List.zipWith (fun column pair => column.cell.withPair pair) strip pairs, after) := by
  rw [flatten, if_pos hinked, hanswered]

end Strip

namespace Inks

def recorded (unasked : ColorId) (asked : List (Option ColorId)) : Option (List ColorId) :=
  if asked.any (·.isSome) then some (asked.map (·.getD unasked)) else none

theorem getD_recorded (unasked : ColorId) (asked : List (Option ColorId)) :
    (recorded unasked asked).getD (List.replicate asked.length unasked) =
      asked.map (·.getD unasked) := by
  unfold recorded
  split
  · rfl
  · next hnone =>
      simp only [List.any_eq_true, not_exists, not_and, Bool.not_eq_true,
        Option.isSome_eq_false_iff, Option.isNone_iff_eq_none] at hnone
      symm
      rw [Option.getD_none, List.map_eq_replicate_iff]
      intro color hcolor
      rw [hnone color hcolor, Option.getD_none]

theorem recorded_mapIdx (unasked color : ColorId) (asked : List (Option ColorId))
    {start stop : Nat} (horder : start < stop) (hstop : stop ≤ asked.length) :
    recorded unasked (asked.mapIdx fun position old =>
        if start ≤ position ∧ position < stop then some color else old) =
      some ((asked.map (·.getD unasked)).mapIdx fun position old =>
        if start ≤ position ∧ position < stop then color else old) := by
  have hasked : (asked.mapIdx fun position old =>
      if start ≤ position ∧ position < stop then some color else old).any (·.isSome) = true := by
    rw [List.any_eq_true]
    refine ⟨some color, List.mem_mapIdx.mpr ⟨start, by omega, ?_⟩, rfl⟩
    rw [if_pos ⟨Nat.le_refl start, horder⟩]
  rw [recorded, if_pos hasked, Option.some_inj]
  apply List.ext_getElem?
  intro position
  simp only [List.getElem?_map, List.getElem?_mapIdx, Option.map_map]
  congr 1
  funext old
  simp only [Function.comp_apply]
  split <;> rfl

def ofStrip (strip : Strip) : Inks where
  foregrounds := recorded .white (strip.map (·.foreground))
  backgrounds := recorded .black (strip.map (·.background))

theorem ofStrip_base (expansion : Expansion) (windowStart width : Nat) (look : Look) :
    ofStrip (Strip.base expansion windowStart width look) = {} := by
  have hunasked (read : Column → Option ColorId) (hread : ∀ cell, read { cell } = none)
      (unasked : ColorId) :
      recorded unasked ((Strip.base expansion windowStart width look).map read) = none := by
    apply if_neg
    rw [List.any_eq_true]
    rintro ⟨color, hcolor, hasked⟩
    obtain ⟨column, hcolumn, rfl⟩ := List.mem_map.mp hcolor
    obtain ⟨glyph, -, rfl⟩ := List.mem_map.mp hcolumn
    rw [hread] at hasked
    cases hasked
  rw [ofStrip, hunasked _ fun _ => rfl, hunasked _ fun _ => rfl]

theorem foregroundsOf_ofStrip (strip : Strip) :
    (ofStrip strip).foregroundsOf strip.length = strip.map (·.foreground.getD .white) := by
  have hcolors := getD_recorded .white (strip.map (·.foreground))
  rwa [List.length_map, List.map_map] at hcolors

theorem backgroundsOf_ofStrip (strip : Strip) :
    (ofStrip strip).backgroundsOf strip.length = strip.map (·.background.getD .black) := by
  have hcolors := getD_recorded .black (strip.map (·.background))
  rwa [List.length_map, List.map_map] at hcolors

theorem colorsOf_ofStrip (strip : Strip) :
    (ofStrip strip).colorsOf strip.length = strip.map (·.ink) := by
  rw [colorsOf, foregroundsOf_ofStrip, backgroundsOf_ofStrip, List.zip_map']
  rfl

theorem any_isInked_eq (strip : Strip) :
    strip.any (·.isInked) =
      ((ofStrip strip).foregrounds.isSome || (ofStrip strip).backgrounds.isSome) := by
  have hrecorded (unasked : ColorId) (asked : List (Option ColorId)) :
      (recorded unasked asked).isSome = asked.any (·.isSome) := by
    unfold recorded
    split
    · next hasked => exact hasked.symm
    · next hnone => exact (Bool.eq_false_iff.mpr hnone).symm
  rw [ofStrip, hrecorded, hrecorded, List.any_map, List.any_map, Bool.eq_iff_iff]
  simp only [List.any_eq_true, Column.isInked, Bool.or_eq_true, Function.comp_apply,
    and_or_left, exists_or]

end Inks

namespace Canvas

/-- The canvas after a strip went on it. -/
def showing (canvas : Canvas) (x y : Nat) (strip : Strip) : Canvas :=
  { canvas with frame := canvas.frame.write x y (strip.map (·.cell)) }

end Canvas

theorem Look.overlay_of_isNoop {above : Look} (hnoop : above.isNoop = true) (below : Look) :
    below.overlay above = below := by
  obtain ⟨style, pair⟩ := above
  simp only [Look.isNoop, Bool.and_eq_true, decide_eq_true_eq] at hnoop
  obtain ⟨rfl, rfl⟩ := hnoop
  obtain ⟨⟨bold, dim, italic, underline, blink, reverse, hidden, standout⟩, pair⟩ := below
  simp [Look.overlay, Style.overlay, Style.union, Style.plain]

namespace PaintStep

variable {canvas : Canvas} {x y start stop : Nat} {strip : Strip}

theorem run_changeCells_showing (directive : Directive) {change : Cell → Cell}
    (hstop : stop ≤ strip.length)
    (hcell : ∀ column, (directive.stamp column).cell = change column.cell) :
    (changeCells (x + start) y (stop - start) change).run (canvas.showing x y strip) =
      .ok () (canvas.showing x y (strip.stampRun start stop directive)) := by
  have hlength : stop ≤ (strip.map (·.cell)).length := by rwa [List.length_map]
  have hwritten := canvas.frame.change_written_run x y (strip.map (·.cell)) start hlength change
  rw [run_changeCells, Canvas.showing, Canvas.showing,
    strip.map_stampRun start stop (·.cell) change hcell]
  exact congrArg (fun frame => EStateM.Result.ok () { canvas with frame }) hwritten

theorem run_fill_recorded (canvas : Canvas) (directive : Directive) {color : ColorId}
    (read : Column → Option ColorId) (horder : start < stop) (hstop : stop ≤ strip.length)
    (hstamp : ∀ column, read (directive.stamp column) = some color) (unasked : ColorId) :
    ∃ colors,
      (fill (strip.map fun column => (read column).getD unasked) start stop color).run canvas =
          .ok colors canvas ∧
        Inks.recorded unasked ((strip.stampRun start stop directive).map read) =
          some colors := by
  have hlength : stop ≤ (strip.map read).length := by rwa [List.length_map]
  refine ⟨_, run_fill (Nat.le_of_lt horder) (by rwa [List.length_map]) color, ?_⟩
  rw [strip.map_stampRun start stop read (fun _ => some color) hstamp,
    Inks.recorded_mapIdx _ _ _ horder hlength, List.map_map]
  rfl

theorem showing_stampRun_of_kept {directive : Directive}
    (hcell : ∀ column, (directive.stamp column).cell = column.cell) :
    canvas.showing x y (strip.stampRun start stop directive) = canvas.showing x y strip := by
  rw [Canvas.showing, strip.map_stampRun_of_kept start stop hcell, ← Canvas.showing]

theorem ofStrip_stampRun_of_kept {directive : Directive}
    (hforeground : ∀ column, (directive.stamp column).foreground = column.foreground)
    (hbackground : ∀ column, (directive.stamp column).background = column.background) :
    Inks.ofStrip (strip.stampRun start stop directive) = .ofStrip strip := by
  rw [Inks.ofStrip, strip.map_stampRun_of_kept start stop hforeground,
    strip.map_stampRun_of_kept start stop hbackground, ← Inks.ofStrip]

/-- A stamp in place leaves what the stamp on the strip leaves. -/
theorem run_stampRun (horder : start < stop) (hstop : stop ≤ strip.length)
    (hscreen : x + start < screenColumns) (directive : Directive) :
    (stampRun x y strip.length start stop (.ofStrip strip) directive).run
        (canvas.showing x y strip) =
      .ok (.ofStrip (strip.stampRun start stop directive))
        (canvas.showing x y (strip.stampRun start stop directive)) := by
  cases directive with
  | style look =>
      rw [stampRun, ofStrip_stampRun_of_kept (fun _ => rfl) fun _ => rfl]
      split
      · next hnoop =>
          rw [showing_stampRun_of_kept]
          · rfl
          · intro column
            rw [Directive.stamp, Look.overlay_of_isNoop hnoop]
      · rw [run_bind_of_ok (run_screenColumn hscreen),
          run_bind_of_ok (run_changeCells_showing (.style look) hstop fun _ => rfl)]
        rfl
  | graphic glyph =>
      rw [stampRun, ofStrip_stampRun_of_kept (fun _ => rfl) fun _ => rfl,
        run_bind_of_ok (run_screenColumn hscreen),
        run_bind_of_ok (run_changeCells_showing (.graphic glyph) hstop fun _ => rfl)]
      rfl
  | foreground color =>
      obtain ⟨colors, hfill, hrecorded⟩ := run_fill_recorded (canvas.showing x y strip)
        (.foreground color) (·.foreground) horder hstop (fun _ => rfl) .white
      have hinks : Inks.ofStrip (strip.stampRun start stop (.foreground color)) =
          { Inks.ofStrip strip with foregrounds := some colors } := by
        rw [Inks.ofStrip, hrecorded, strip.map_stampRun_of_kept start stop fun _ => rfl]
        rfl
      rw [stampRun, Inks.foregroundsOf_ofStrip, run_bind_of_ok hfill,
        showing_stampRun_of_kept fun _ => rfl, hinks]
      rfl
  | background color =>
      obtain ⟨colors, hfill, hrecorded⟩ := run_fill_recorded (canvas.showing x y strip)
        (.background color) (·.background) horder hstop (fun _ => rfl) .black
      have hinks : Inks.ofStrip (strip.stampRun start stop (.background color)) =
          { Inks.ofStrip strip with backgrounds := some colors } := by
        rw [Inks.ofStrip, hrecorded, strip.map_stampRun_of_kept start stop fun _ => rfl]
        rfl
      rw [stampRun, Inks.backgroundsOf_ofStrip, run_bind_of_ok hfill,
        showing_stampRun_of_kept fun _ => rfl, hinks]
      rfl
  | custom name value =>
      rw [showing_stampRun_of_kept fun _ => rfl,
        ofStrip_stampRun_of_kept (fun _ => rfl) fun _ => rfl]
      rfl

/-- What stamping in place leaves is what stamping the strip leaves, also where it stops. -/
inductive Mirrors (canvas : Canvas) (x y : Nat) :
    EStateM.Result PaintStop Canvas Inks → Except ColumnStop Strip → Prop where
  | stamped (strip : Strip) :
      Mirrors canvas x y (.ok (.ofStrip strip) (canvas.showing x y strip)) (.ok strip)
  | stopped (stop : ColumnStop) (strip : Strip) :
      Mirrors canvas x y (.error (.stopped stop) (canvas.showing x y strip)) (.error stop)

theorem Mirrors.eq_ok {result : EStateM.Result PaintStop Canvas Inks}
    (hmirrors : Mirrors canvas x y result (.ok strip)) :
    result = .ok (.ofStrip strip) (canvas.showing x y strip) := by
  cases hmirrors
  rfl

theorem Mirrors.eq_error {result : EStateM.Result PaintStop Canvas Inks} {stop : ColumnStop}
    (hmirrors : Mirrors canvas x y result (.error stop)) :
    ∃ before : Strip, result = .error (.stopped stop) (canvas.showing x y before) := by
  cases hmirrors
  exact ⟨_, rfl⟩

theorem mirrors_stampAttribute (counting : Counting) (expansion : Expansion)
    (windowStart : Nat) (hscreen : x + strip.length < screenColumns) (attr : Attribute) :
    Mirrors canvas x y
      ((stampAttribute counting expansion x y windowStart strip.length (.ofStrip strip) attr).run
        (canvas.showing x y strip))
      (strip.stampAttributeBy counting expansion windowStart strip.length attr) := by
  unfold stampAttribute
  split
  · next hshown =>
      rw [strip.stampAttributeBy_of_isShown counting _ _ _ hshown]
      rcases hclip : expansion.clipBy counting attr.span windowStart strip.length with
        stop | _ | ⟨start, stop⟩
      · exact .stopped stop strip
      · exact .stamped strip
      · obtain ⟨horder, hstop⟩ := Expansion.clipBy_bounds hclip
        have hrun := @run_stampRun canvas x y start stop strip horder hstop (by omega)
          attr.directive
        rw [EStateM.run_bind, ofColumns, EStateM.run_pure]
        dsimp only
        rw [hrun]
        exact .stamped _
  · next hunshown =>
      rw [strip.stampAttributeBy_of_not_isShown counting _ _ _ (Bool.eq_false_iff.mpr hunshown)]
      exact .stamped strip

theorem mirrors_stampAll (counting : Counting) (expansion : Expansion) (windowStart : Nat)
    {width : Nat} (hwidth : strip.length = width) (hscreen : x + width < screenColumns)
    (attributes : List Attribute) :
    Mirrors canvas x y
      ((attributes.foldlM (stampAttribute counting expansion x y windowStart width)
        (.ofStrip strip)).run (canvas.showing x y strip))
      (attributes.foldlM (Strip.stampAttributeBy counting expansion windowStart width)
        strip) := by
  -- What carries over is that frame and colors are those of the strip so far.
  induction attributes generalizing strip with
  | nil => exact .stamped strip
  | cons attr rest ih =>
      have hattr := @mirrors_stampAttribute canvas x y strip counting expansion windowStart
        (hwidth ▸ hscreen) attr
      rw [hwidth] at hattr
      rw [List.foldlM_cons, List.foldlM_cons, EStateM.run_bind]
      generalize hstep : (stampAttribute counting expansion x y windowStart width
        (.ofStrip strip) attr).run (canvas.showing x y strip) = step at hattr
      cases hstamped : strip.stampAttributeBy counting expansion windowStart width attr with
      | error stop =>
          rw [hstamped] at hattr
          cases hattr
          exact .stopped stop _
      | ok stamped =>
          rw [hstamped] at hattr
          cases hattr
          exact ih ((Strip.length_stampAttributeBy hstamped).trans hwidth)

theorem run_glyphsWithin (glyphs : List Char) (windowStart width : Nat) :
    (glyphsWithin glyphs windowStart width).run canvas =
      .ok ((glyphs.drop windowStart).take width) canvas := by
  unfold glyphsWithin
  split
  · next hshown =>
      rw [run_slice (by omega) (Nat.min_le_right ..), List.extract_eq_take_drop]
      congr 1
      rw [List.take_eq_take_iff, List.length_drop]
      omega
  · next hpast =>
      rw [List.drop_eq_nil_of_le (Nat.le_of_not_lt hpast), List.take_nil]
      rfl

theorem run_layBase (expansion : Expansion) (windowStart width : Nat) (look : Look)
    (hscreen : x + width < screenColumns) :
    (layBase x y windowStart width expansion.glyphs look).run canvas =
      .ok () (canvas.showing x y (Strip.base expansion windowStart width look)) := by
  rw [layBase, run_bind_of_ok (run_glyphsWithin ..), Canvas.showing, Strip.base]
  have hlength := List.length_take_le width (expansion.glyphs.drop windowStart)
  generalize (expansion.glyphs.drop windowStart).take width = visible at hlength ⊢
  have hrow := canvas.frame.write_write_append x y (visible.map (Cell.ofChar · look))
    (List.replicate (width - visible.length) (Cell.ofChar ' ' look))
  rw [List.length_map] at hrow
  rw [run_bind_of_ok (run_checkRange (Nat.zero_le _) hlength),
    run_bind_of_ok (run_writeCells ..), run_bind_of_ok (run_screenColumn (by omega)),
    run_writeCells, hrow, List.map_map, List.map_append, List.map_replicate]
  rfl

/-- Where no cell of the frame is painted, no pair is asked for either. -/
theorem run_flatten_of_room (hroom : canvas.frame.room x y = 0) (width : Nat) (inks : Inks) :
    (flatten x y width inks).run canvas = .ok () canvas := by
  have hread : canvas.frame.read x y width = [] := by
    apply List.eq_nil_of_length_eq_zero
    rw [Frame.length_read, hroom, Nat.min_zero]
  unfold flatten
  split
  · rw [run_bind_of_ok (run_readCells ..), hread, run_bind_of_ok (EStateM.run_get _)]
    exact (run_writeCells x y []).trans (by rw [Frame.write_nil])
  · rfl

theorem run_flatten (hroom : strip.length ≤ canvas.frame.room x y) :
    let flat := strip.flatten canvas.theme.pairs
    (flatten x y strip.length (.ofStrip strip)).run (canvas.showing x y strip) =
      .ok () {
        frame := canvas.frame.write x y flat.1
        theme := { canvas.theme with pairs := flat.2 } } := by
  intro flat
  by_cases hinked : strip.any (·.isInked) = true
  · have hcells : (strip.map (·.cell)).length = strip.length := List.length_map _
    have hread := Frame.read_write (hcells.symm ▸ hroom)
    rw [hcells] at hread
    have hcolors : ((Inks.ofStrip strip).colorsOf strip.length).take strip.length =
        strip.map (·.ink) := by
      rw [Inks.colorsOf_ofStrip, List.take_of_length_le (Nat.le_of_eq (List.length_map _))]
    obtain ⟨pairs, table, hanswered⟩ : ∃ pairs table,
        canvas.theme.pairs.requestAll (strip.map (·.ink)) = (pairs, table) := ⟨_, _, rfl⟩
    have hpairs : pairs.length = strip.length := by
      have hlength := PairTable.length_requestAll canvas.theme.pairs (strip.map (·.ink))
      rwa [hanswered, List.length_map] at hlength
    rw [flatten, ← Inks.any_isInked_eq, if_pos hinked, run_bind_of_ok (run_readCells ..),
      Canvas.showing, hread, ← Canvas.showing, run_bind_of_ok (EStateM.run_get _), hcells, hcolors,
      show (canvas.showing x y strip).theme = canvas.theme from rfl, hanswered]
    dsimp only
    rw [run_bind_of_ok (EStateM.run_set ..), run_writeCells, List.zipWith_map_left,
      show flat = _ from Strip.flatten_of_inked hinked hanswered, Canvas.showing,
      Frame.write_write_of_length_le]
    apply Nat.le_of_eq
    rw [List.length_map, List.length_zipWith, hpairs, Nat.min_self]
  · have hflat : flat = (strip.map (·.cell), canvas.theme.pairs) := if_neg hinked
    rw [flatten, ← Inks.any_isInked_eq, if_neg hinked, hflat]
    rfl

section

variable {line : Line} (hcolumn : x < screenColumns)
  (hwidth : canvas.frame.width < screenColumns) (hvalid : line.fault? = none)
  (hwindow : start ≤ stop)

include hcolumn hwidth hvalid hwindow

/-- Painting in place lays the base and stamps as the strip is stamped, and turns colors into
pairs if that comes to an end. -/
theorem run_paintLine_mirrors (counting : Counting) (y : Nat) (role : Role) :
    let expansion := Expansion.ofText line.text
    let width := min (stop - start) (canvas.frame.width - x)
    ∃ stamped,
      Mirrors canvas x y stamped
        (line.stampOrder.foldlM (Strip.stampAttributeBy counting expansion start width)
          (Strip.base expansion start width (canvas.theme.look role))) ∧
      (paintLine counting x y line ⟨start, some stop⟩ role).run canvas =
        match stamped with
        | .ok inks after => (flatten x y width inks).run after
        | .error reason after => .error reason after := by
  intro expansion width
  have hreach : x + width < screenColumns := by omega
  refine ⟨_, mirrors_stampAll counting expansion start (Strip.length_base ..) hreach
    line.stampOrder, ?_⟩
  rw [paintLine, Span.windowBounds_of_le hwindow, hvalid]
  dsimp only
  rw [run_bind_of_ok (EStateM.run_get _),
    run_bind_of_ok (run_layBase expansion start width _ hreach),
    ← Inks.ofStrip_base expansion start width (canvas.theme.look role), EStateM.run_bind]
  generalize EStateM.run (List.foldlM _ _ line.stampOrder) _ = stamped
  cases stamped <;> rfl

variable {counting : Counting} (hlength : counting = .checked → line.length < 2 ^ 59)

include hlength

theorem run_paintLine_of_valid (hcounts : ¬ (counting = .checked ∧ line.Overflows start))
    (y : Nat) (role : Role) :
    let row := canvas.frame.rowOf canvas.theme x y line start (stop - start) role
    (paintLine counting x y line ⟨start, some stop⟩ role).run canvas =
      .ok () {
        frame := canvas.frame.write x y row.1
        theme := { canvas.theme with pairs := row.2 } } := by
  intro row
  obtain ⟨stamped, hmirrors, hrun⟩ :=
    run_paintLine_mirrors hcolumn hwidth hvalid hwindow counting y role
  rw [Strip.foldlM_stampAttributeBy (Line.valid_iff_fault?_eq_none.mpr hvalid) hlength hcounts,
    ← Strip.ofLine] at hmirrors
  rw [hrun, hmirrors.eq_ok]
  dsimp only
  generalize hstretch : min (stop - start) (canvas.frame.width - x) = width
  have hstrip := Strip.length_ofLine line start width (canvas.theme.look role)
  -- Below the last row the steps still go over `width` columns, but reach no cell of them.
  by_cases hrow : y < canvas.frame.height
  · have hroom : min (stop - start) (canvas.frame.room x y) = width := by
      rw [Frame.room_of_lt hrow, hstretch]
    have hflat := @run_flatten canvas x y
      (Strip.ofLine line start width (canvas.theme.look role)) (by omega)
    rw [hstrip] at hflat
    simp only [row, Frame.rowOf, hroom]
    exact hflat
  · have hroom : canvas.frame.room x y = 0 := if_neg hrow
    have hnone : Strip.ofLine line start (min (stop - start) (canvas.frame.room x y))
        (canvas.theme.look role) = [] :=
      List.eq_nil_of_length_eq_zero (by rw [Strip.length_ofLine, hroom, Nat.min_zero])
    have hflat : row = ([], canvas.theme.pairs) := by
      simp only [row, Frame.rowOf, hnone]
      rfl
    rw [Canvas.showing, Frame.write_eq_self_of_room hroom, run_flatten_of_room hroom, hflat,
      Frame.write_nil]

theorem run_paintLine_of_overflows (hoverflows : counting = .checked ∧ line.Overflows start)
    (y : Nat) (role : Role) :
    ∃ after, (paintLine counting x y line ⟨start, some stop⟩ role).run canvas =
      .error (.stopped (.overflow (minColumn - 1))) after := by
  obtain ⟨stamped, hmirrors, hrun⟩ :=
    run_paintLine_mirrors hcolumn hwidth hvalid hwindow counting y role
  rw [Strip.foldlM_stampAttributeBy_of_overflows (Line.valid_iff_fault?_eq_none.mpr hvalid)
    hlength hoverflows] at hmirrors
  obtain ⟨before, hstopped⟩ := hmirrors.eq_error
  exact ⟨canvas.showing x y before, by rw [hrun, hstopped]⟩

end

theorem run_paintLine_of_rejected {line : Line} {window : Span} {error : PaintError}
    (hrejected : line.RejectedIn window error) (counting : Counting) (x y : Nat) (role : Role) :
    (paintLine counting x y line window role).run canvas =
      .error (.stopped (.rejected error)) canvas := by
  obtain ⟨start, _⟩ := window
  rcases hrejected with hopen | ⟨stop, hstop, hinverted⟩ | ⟨⟨stop, hstop, hordered⟩, hfault⟩
  · cases hopen
    rfl
  · cases hstop
    rw [paintLine, Span.windowBounds_of_lt hinverted]
    rfl
  · cases hstop
    rw [paintLine, Span.windowBounds_of_le hordered, Line.fault?_eq_some_iff.mpr hfault]
    rfl

end PaintStep

end LinePainter
