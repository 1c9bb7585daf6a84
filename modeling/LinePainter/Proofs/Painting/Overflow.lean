import LinePainter.CheckedPainting
import LinePainter.Palette.Xterm
import LinePainter.Proofs.Expansion.Clipping
import LinePainter.Proofs.Painting.Rejection

namespace LinePainter

/-! Where painting with every column checked stops. It paints what painting without checks
paints, unless the window lies as far to the right as columns go and an attribute that shows
starts or stops two columns left of the first one. -/

namespace Attribute

/-- Painting the attribute needs a number that is out of range. -/
def Overflows (attr : Attribute) (text : Text) (windowStart : Nat) : Prop :=
  attr.directive.isShown = true ∧
    ∃ offset ∈ attr.span.ends, text.TooFarLeft windowStart offset

end Attribute

theorem checkColumn_of_fits {number : Int} (hfits : FitsColumn number) :
    checkColumn number = .ok number :=
  if_pos hfits

theorem toColumn_eq_columnUpTo {reach : Nat} (hreach : reach ≤ maxColumn) (number : Nat) :
    toColumn reach number = columnUpTo number := by
  rw [toColumn, Nat.max_eq_left hreach, columnUpTo]

namespace Expansion

theorem fitsColumn_delta {text : Text} {adjustment : Adjustment}
    (hmem : adjustment ∈ (ofText text).adjustments) : FitsColumn adjustment.delta := by
  have hbounds := delta_bounds hmem
  simp only [FitsColumn, minColumn, maxColumn]
  omega

/-- Numbers that are added up one after the other come out right if every sum on the way is
in range. -/
theorem foldlM_checkColumn {adjustments : List Adjustment} {shift : Int}
    (hfits : ∀ front, front <+: adjustments →
      FitsColumn (shift + (front.map (·.delta)).sum)) :
    adjustments.foldlM (fun shift adjustment => checkColumn (shift + adjustment.delta)) shift =
      .ok (shift + (adjustments.map (·.delta)).sum) := by
  induction adjustments generalizing shift with
  | nil => simp [pure, Except.pure]
  | cons adjustment rest ih =>
      have hfirst := hfits [adjustment] (List.prefix_append [adjustment] rest)
      rw [List.map_singleton, List.sum_singleton] at hfirst
      have hrest := @ih (shift + adjustment.delta) fun front hfront => by
        have hlonger := hfits (adjustment :: front) (List.cons_prefix_cons.mpr ⟨rfl, hfront⟩)
        rwa [List.map_cons, List.sum_cons, ← Int.add_assoc] at hlonger
      rw [List.foldlM_cons, checkColumn_of_fits hfirst, List.map_cons, List.sum_cons,
        ← Int.add_assoc]
      exact hrest

variable {text : Text} (hlength : text.byteLength < 2 ^ 59)

include hlength

theorem fitsColumn_sum {front : List Adjustment}
    (hfront : front <+: (ofText text).adjustments) :
    FitsColumn (front.map (·.delta)).sum := by
  have hbounds := sum_prefix_bounds hfront
  simp only [FitsColumn, minColumn, maxColumn]
  omega

theorem checkedShiftBefore_eq (offset : Nat) :
    (ofText text).checkedShiftBefore offset = .ok ((ofText text).shiftBefore offset) := by
  rw [checkedShiftBefore, foldlM_checkColumn, Int.zero_add, shiftBefore_eq_sum]
  intro front hfront
  rw [Int.zero_add]
  exact fitsColumn_sum hlength (hfront.trans (List.takeWhile_prefix _))

theorem toColumn_length (number : Nat) :
    toColumn (ofText text).length number = columnUpTo number := by
  apply toColumn_eq_columnUpTo
  rw [ofText, length_ofTextFrom, maxColumn]
  omega

theorem toColumn_width (number : Nat) :
    toColumn (ofText text).width number = columnUpTo number := by
  have hwidth : (ofText text).width ≤ tabStop * text.byteLength := width_le 0 0 text
  apply toColumn_eq_columnUpTo
  simp only [tabStop, maxColumn] at hwidth ⊢
  omega

variable {offset : Nat} (hoffset : offset ≤ text.byteLength)

include hoffset

theorem columnOf_bounds :
    -2 ≤ (ofText text).columnOf offset ∧ (ofText text).columnOf offset < 2 ^ 62 := by
  have hwidth : (ofText text).width ≤ tabStop * text.byteLength := width_le 0 0 text
  have hcolumn := columnOf_le_width hoffset
  rw [tabStop] at hwidth
  exact ⟨(columnOf_leftmost hoffset).1, by omega⟩

theorem fitsColumn_columnOf : FitsColumn ((ofText text).columnOf offset) := by
  have hbounds := columnOf_bounds hlength hoffset
  simp only [FitsColumn, minColumn, maxColumn]
  omega

theorem fitsColumn_distance_iff (windowStart : Nat) :
    FitsColumn ((ofText text).columnOf offset - columnUpTo windowStart) ↔
      ¬ text.TooFarLeft windowStart offset := by
  have hbounds := columnOf_bounds hlength hoffset
  rw [Text.TooFarLeft, ← (columnOf_leftmost hoffset).2]
  simp only [FitsColumn, minColumn, maxColumn, columnUpTo]
  omega

theorem checkedColumnOf_eq :
    (ofText text).checkedColumnOf offset = .ok ((ofText text).columnOf offset) := by
  have hcolumn : columnUpTo offset + (ofText text).shiftBefore offset =
      (ofText text).columnOf offset := by
    rw [columnOf, toColumn_length hlength]
  rw [checkedColumnOf, checkedShiftBefore_eq hlength]
  exact (congrArg checkColumn hcolumn).trans
    (checkColumn_of_fits (fitsColumn_columnOf hlength hoffset))

theorem checkedDistance_eq {windowStart : Nat} (hnear : ¬ text.TooFarLeft windowStart offset) :
    (ofText text).checkedDistance windowStart offset =
      .ok ((ofText text).distance windowStart offset) := by
  rw [checkedDistance, checkedColumnOf_eq hlength hoffset, distance_eq hoffset hnear,
    toColumn_width hlength]
  exact checkColumn_of_fits ((fitsColumn_distance_iff hlength hoffset windowStart).mpr hnear)

theorem checkedDistance_of_tooFarLeft {windowStart : Nat}
    (hfar : text.TooFarLeft windowStart offset) :
    (ofText text).checkedDistance windowStart offset = .error (.overflow (minColumn - 1)) := by
  have hnumber : (ofText text).columnOf offset - columnUpTo windowStart = minColumn - 1 := by
    rw [columnOf_of_leftmostAt hfar.2, columnUpTo, Nat.min_eq_right hfar.1]
    rfl
  rw [checkedDistance, checkedColumnOf_eq hlength hoffset]
  refine (if_neg ?_).trans (by rw [hnumber])
  exact mt (fitsColumn_distance_iff hlength hoffset windowStart).mp (not_not_intro hfar)

omit hoffset

variable {span : Span} (hfits : span.Fits text.byteLength) {windowStart : Nat}

include hfits

theorem checkedClip_eq (hnear : ∀ offset ∈ span.ends, ¬ text.TooFarLeft windowStart offset)
    (width : Nat) :
    (ofText text).checkedClip span windowStart width =
      .ok ((ofText text).clip span windowStart width) := by
  obtain ⟨start, stop⟩ := span
  have hstart := checkedDistance_eq hlength hfits.start_le (hnear start Span.start_mem_ends)
  rw [checkedClip, hstart, clip]
  cases stop with
  | none => rfl
  | some stop =>
      have hstop := checkedDistance_eq hlength (hfits.stop_within stop rfl).2
        (hnear stop (Span.stop_mem_ends rfl))
      rw [checkedStop, hstop]
      rfl

theorem checkedClip_of_tooFarLeft (hfar : ∃ offset ∈ span.ends, text.TooFarLeft windowStart offset)
    (width : Nat) :
    (ofText text).checkedClip span windowStart width = .error (.overflow (minColumn - 1)) := by
  obtain ⟨start, stop⟩ := span
  -- The start is counted first, so the stop is looked at only if the start is in range.
  by_cases hstart : text.TooFarLeft windowStart start
  · rw [checkedClip, checkedDistance_of_tooFarLeft hlength hfits.start_le hstart]
    rfl
  · obtain ⟨offset, hend, hfar⟩ := hfar
    rcases List.mem_cons.mp hend with rfl | hstop
    · exact absurd hfar hstart
    · cases Option.mem_toList.mp hstop
      rw [checkedClip, checkedDistance_eq hlength hfits.start_le hstart, checkedStop,
        checkedDistance_of_tooFarLeft hlength (hfits.stop_within offset rfl).2 hfar]
      rfl

end Expansion

theorem Directive.stamp_of_not_isShown {directive : Directive}
    (hunshown : directive.isShown = false) (column : Column) :
    directive.stamp column = column := by
  cases directive with
  | custom name value => rfl
  | _ => cases hunshown

namespace Strip

variable {text : Text} (hlength : text.byteLength < 2 ^ 59) {windowStart : Nat} (width : Nat)

theorem stampRun_of_not_isShown (strip : Strip) (start stop : Nat) {directive : Directive}
    (hunshown : directive.isShown = false) : strip.stampRun start stop directive = strip := by
  have hkept := @map_stampRun_of_kept Column directive strip start stop id
    (Directive.stamp_of_not_isShown hunshown)
  rwa [List.map_id, List.map_id] at hkept

theorem stampAttribute_of_not_isShown (expansion : Expansion) (windowStart : Nat)
    (strip : Strip) {attr : Attribute} (hunshown : attr.directive.isShown = false) :
    strip.stampAttribute expansion windowStart width attr = strip := by
  unfold stampAttribute
  split
  · exact strip.stampRun_of_not_isShown _ _ hunshown
  · rfl

include hlength

theorem checkedStampAttribute_eq (strip : Strip) {attr : Attribute}
    (hfits : attr.span.Fits text.byteLength) (hcounts : ¬ attr.Overflows text windowStart) :
    strip.checkedStampAttribute (.ofText text) windowStart width attr =
      .ok (strip.stampAttribute (.ofText text) windowStart width attr) := by
  unfold checkedStampAttribute
  split
  · next hshown =>
      have hclip := Expansion.checkedClip_eq hlength hfits
        (fun offset hend hfar => hcounts ⟨hshown, offset, hend, hfar⟩) width
      rw [hclip]
      unfold stampAttribute
      cases (Expansion.ofText text).clip attr.span windowStart width <;> rfl
  · next hunshown =>
      rw [strip.stampAttribute_of_not_isShown width _ _ (Bool.eq_false_iff.mpr hunshown)]
      rfl

theorem checkedStampAttribute_of_overflows (strip : Strip) {attr : Attribute}
    (hfits : attr.span.Fits text.byteLength) (hoverflows : attr.Overflows text windowStart) :
    strip.checkedStampAttribute (.ofText text) windowStart width attr =
      .error (.overflow (minColumn - 1)) := by
  rw [checkedStampAttribute, if_pos hoverflows.1,
    Expansion.checkedClip_of_tooFarLeft hlength hfits hoverflows.2]
  rfl

variable {attributes : List Attribute}
  (hfits : ∀ attr ∈ attributes, attr.span.Fits text.byteLength)

include hfits

theorem foldlM_checkedStampAttribute (strip : Strip)
    (hcounts : ∀ attr ∈ attributes, ¬ attr.Overflows text windowStart) :
    attributes.foldlM (checkedStampAttribute (.ofText text) windowStart width) strip =
      .ok (attributes.foldl (stampAttribute (.ofText text) windowStart width) strip) := by
  induction attributes generalizing strip with
  | nil => rfl
  | cons attr rest ih =>
      obtain ⟨hfirst, hrest⟩ := List.forall_mem_cons.mp hfits
      obtain ⟨hcountsFirst, hcountsRest⟩ := List.forall_mem_cons.mp hcounts
      rw [List.foldlM_cons, checkedStampAttribute_eq hlength width strip hfirst hcountsFirst]
      exact ih hrest _ hcountsRest

theorem foldlM_checkedStampAttribute_of_overflows (strip : Strip)
    (hoverflows : ∃ attr ∈ attributes, attr.Overflows text windowStart) :
    attributes.foldlM (checkedStampAttribute (.ofText text) windowStart width) strip =
      .error (.overflow (minColumn - 1)) := by
  -- The first attribute that overflows stops the fold. What was stamped before it does not
  -- matter, so the strip is any.
  induction attributes generalizing strip with
  | nil =>
      obtain ⟨attr, hattr, -⟩ := hoverflows
      cases hattr
  | cons attr rest ih =>
      obtain ⟨hfirst, hrest⟩ := List.forall_mem_cons.mp hfits
      by_cases hhead : attr.Overflows text windowStart
      · rw [List.foldlM_cons, checkedStampAttribute_of_overflows hlength width strip hfirst hhead]
        rfl
      · have htail : ∃ attr ∈ rest, attr.Overflows text windowStart := by
          obtain ⟨found, hfound, hoverflow⟩ := hoverflows
          rcases List.mem_cons.mp hfound with rfl | hlater
          · exact absurd hoverflow hhead
          · exact ⟨found, hlater, hoverflow⟩
        rw [List.foldlM_cons, checkedStampAttribute_eq hlength width strip hfirst hhead]
        exact ih hrest _ htail

end Strip

namespace Line

def Overflows (line : Line) (windowStart : Nat) : Prop :=
  ∃ attr ∈ line.attributes, attr.Overflows line.text windowStart

theorem not_overflows_of_lt {windowStart : Nat} (hnear : windowStart < maxColumn) (line : Line) :
    ¬ line.Overflows windowStart := by
  rintro ⟨attr, -, -, offset, -, hfar, -⟩
  exact Nat.not_lt.mpr hfar hnear

end Line

namespace Frame

variable {line : Line} {window : Span} (frame : Frame) (theme : Theme) (x y : Nat) (role : Role)

theorem checkedPaint_of_rejected {error : PaintError} (hrejected : line.RejectedIn window error) :
    frame.checkedPaint theme x y line window role = .error (.rejected error) := by
  obtain ⟨start, _⟩ := window
  rcases hrejected with hopen | ⟨stop, hstop, hinverted⟩ | ⟨⟨stop, hstop, hordered⟩, hfault⟩
  · cases hopen
    rfl
  · cases hstop
    rw [checkedPaint, Span.windowBounds_of_lt hinverted]
    rfl
  · cases hstop
    rw [checkedPaint, Span.windowBounds_of_le hordered, Line.fault?_eq_some_iff.mpr hfault]
    rfl

section

variable (hlength : line.length < 2 ^ 59) (haccepted : line.AcceptedIn window)

include hlength haccepted

theorem checkedPaint_eq (hcounts : ¬ line.Overflows window.start) :
    ∃ painted, frame.checkedPaint theme x y line window role = .ok painted ∧
      frame.paint theme x y line window role = .ok painted := by
  obtain ⟨start, _⟩ := window
  obtain ⟨hvalid, stop, hstop, hordered⟩ := haccepted
  cases hstop
  have hstamped (width : Nat) := Strip.foldlM_checkedStampAttribute hlength width
    (fun attr hattr => hvalid attr (Line.mem_stampOrder.mp hattr))
    (Strip.base (.ofText line.text) start width (theme.look role))
    (fun attr hattr hoverflows => hcounts ⟨attr, Line.mem_stampOrder.mp hattr, hoverflows⟩)
  rw [checkedPaint, paint, Span.windowBounds_of_le hordered,
    Line.valid_iff_fault?_eq_none.mp hvalid]
  dsimp only
  rw [hstamped]
  exact ⟨_, rfl, rfl⟩

theorem checkedPaint_of_overflows (hoverflows : line.Overflows window.start) :
    frame.checkedPaint theme x y line window role = .error (.overflow (minColumn - 1)) := by
  obtain ⟨start, _⟩ := window
  obtain ⟨hvalid, stop, hstop, hordered⟩ := haccepted
  cases hstop
  obtain ⟨attr, hattr, hoverflow⟩ := hoverflows
  rw [checkedPaint, Span.windowBounds_of_le hordered, Line.valid_iff_fault?_eq_none.mp hvalid]
  dsimp only
  rw [Strip.foldlM_checkedStampAttribute_of_overflows hlength _
    (fun attr hattr => hvalid attr (Line.mem_stampOrder.mp hattr)) _
    ⟨attr, Line.mem_stampOrder.mpr hattr, hoverflow⟩]
  rfl

end

/-! Both ways of counting. -/

variable {frame theme x y role} in
theorem paintBy_wrapping {painted : Frame × Theme}
    (hpaint : frame.paint theme x y line window role = .ok painted) :
    frame.paintBy .wrapping theme x y line window role = .ok painted := by
  rw [paintBy, hpaint]
  rfl

section

variable {counting : Counting} (hlength : counting = .checked → line.length < 2 ^ 59)

include hlength

/-- Painting rejects the line, stops at a column that is out of range, which it does only if
columns are checked, or comes to an end with what painting without checks gives. -/
theorem paintBy_cases (window : Span) :
    (∃ error, line.RejectedIn window error ∧
        frame.paintBy counting theme x y line window role = .error (.rejected error)) ∨
      (line.AcceptedIn window ∧ (counting = .checked ∧ line.Overflows window.start) ∧
        frame.paintBy counting theme x y line window role =
          .error (.overflow (minColumn - 1))) ∨
      line.AcceptedIn window ∧ ¬ (counting = .checked ∧ line.Overflows window.start) ∧
        ∃ painted, frame.paintBy counting theme x y line window role = .ok painted ∧
          frame.paint theme x y line window role = .ok painted := by
  rcases line.accepted_or_rejected window with haccepted | ⟨error, hrejected⟩
  · refine .inr ?_
    cases counting with
    | checked =>
        by_cases hoverflows : line.Overflows window.start
        · exact .inl ⟨haccepted, ⟨rfl, hoverflows⟩,
            checkedPaint_of_overflows frame theme x y role (hlength rfl) haccepted hoverflows⟩
        · exact .inr ⟨haccepted, fun hboth => hoverflows hboth.2,
            checkedPaint_eq frame theme x y role (hlength rfl) haccepted hoverflows⟩
    | wrapping =>
        obtain ⟨painted, after, hpaint⟩ := paint_of_accepted haccepted frame theme x y role
        exact .inr ⟨haccepted, fun hboth => Counting.noConfusion hboth.1, (painted, after),
          paintBy_wrapping hpaint, hpaint⟩
  · refine .inl ⟨error, hrejected, ?_⟩
    cases counting with
    | checked => exact checkedPaint_of_rejected frame theme x y role hrejected
    | wrapping =>
        rw [paintBy, paint_of_rejected hrejected]
        rfl

theorem paintBy_of_valid {start stop : Nat} (hvalid : line.fault? = none) (hwindow : start ≤ stop)
    (hcounts : ¬ line.Overflows start) :
    let row := frame.rowOf theme x y line start (stop - start) role
    frame.paintBy counting theme x y line ⟨start, some stop⟩ role =
      .ok (frame.write x y row.1, { theme with pairs := row.2 }) := by
  intro row
  have hpaint := paint_of_valid hvalid hwindow frame theme x y role
  cases counting with
  | checked =>
      have haccepted : line.AcceptedIn ⟨start, some stop⟩ :=
        ⟨Line.valid_iff_fault?_eq_none.mpr hvalid, stop, rfl, hwindow⟩
      obtain ⟨painted, hchecked, hsame⟩ :=
        checkedPaint_eq frame theme x y role (hlength rfl) haccepted hcounts
      rw [hpaint] at hsame
      cases hsame
      exact hchecked
  | wrapping => exact paintBy_wrapping hpaint

variable {frame theme x y role}

theorem paint_of_paintBy {painted : Frame × Theme}
    (hpaint : frame.paintBy counting theme x y line window role = .ok painted) :
    frame.paint theme x y line window role = .ok painted ∧
      ¬ (counting = .checked ∧ line.Overflows window.start) := by
  rcases frame.paintBy_cases theme x y role hlength window with
    ⟨_, -, hstopped⟩ | ⟨-, -, hstopped⟩ | ⟨-, hcounts, _, hpainted, hsame⟩
  · rw [hpaint] at hstopped
    cases hstopped
  · rw [hpaint] at hstopped
    cases hstopped
  · rw [hpaint] at hpainted
    cases hpainted
    exact ⟨hsame, hcounts⟩

end

/-- Gains and losses, their sums from the start of the text and the columns of offsets are
in range wherever the window is. Only how far an offset is from a window at the far right can
be out of range, by one and for an offset two columns left of the first one. Checked painting
stops where it needs such a number, and else it paints what painting without checks does. -/
theorem columns_overflow_exactly (hvalid : line.fault? = none) (hlength : line.length < 2 ^ 59)
    (hwindow : ∃ stop ∈ window.stop, window.start ≤ stop) :
    let expansion := Expansion.ofText line.text
    (∀ adjustment ∈ expansion.adjustments, FitsColumn adjustment.delta) ∧
      (∀ front, front <+: expansion.adjustments → FitsColumn (front.map (·.delta)).sum) ∧
      (∀ attr ∈ line.attributes, ∀ offset ∈ attr.span.ends,
        FitsColumn (expansion.columnOf offset) ∧
          (FitsColumn (expansion.columnOf offset - columnUpTo window.start) ↔
            ¬ line.text.TooFarLeft window.start offset)) ∧
      (line.Overflows window.start →
        frame.checkedPaint theme x y line window role = .error (.overflow (minColumn - 1))) ∧
      (¬ line.Overflows window.start →
        ∃ painted, frame.checkedPaint theme x y line window role = .ok painted ∧
          frame.paint theme x y line window role = .ok painted) := by
  intro expansion
  rw [← Line.valid_iff_fault?_eq_none] at hvalid
  have haccepted : line.AcceptedIn window := ⟨hvalid, hwindow⟩
  refine ⟨fun adjustment => Expansion.fitsColumn_delta,
    fun front => Expansion.fitsColumn_sum hlength, fun attr hattr offset hend => ?_,
    checkedPaint_of_overflows frame theme x y role hlength haccepted,
    checkedPaint_eq frame theme x y role hlength haccepted⟩
  have hoffset := (hvalid attr hattr).le_of_mem_ends hend
  exact ⟨Expansion.fitsColumn_columnOf hlength hoffset,
    Expansion.fitsColumn_distance_iff hlength hoffset window.start⟩

/-- The last window in which the distance to any offset is in range. -/
theorem columns_overflow_exactly_short_of_last_column :
    let line : Line := ⟨['😀', 'b'], [⟨⟨0, some 1⟩, .foreground .red⟩, ⟨⟨1, none⟩, .graphic '-'⟩]⟩
    let window : Span := ⟨maxColumn - 1, some maxOffset⟩
    FitsColumn ((Expansion.ofText line.text).columnOf 1 - columnUpTo window.start) ∧
      ∃ painted,
        (Frame.empty 4 1).checkedPaint (.build .xterm {} {}) 0 0 line window .text = .ok painted := by
  intro line window
  have hnear (offset : Nat) : ¬ line.text.TooFarLeft window.start offset :=
    fun hfar => absurd hfar.1 (by decide)
  obtain ⟨-, -, hnumbers, -, hpainted⟩ := @columns_overflow_exactly line window
    (Frame.empty 4 1) (.build .xterm {} {}) 0 0 .text (by decide) (by decide)
    ⟨maxOffset, rfl, by decide⟩
  obtain ⟨painted, hpaint, -⟩ := hpainted fun ⟨_, _, _, offset, _, hfar⟩ => hnear offset hfar
  have hattr : ⟨⟨1, none⟩, .graphic '-'⟩ ∈ line.attributes := by decide
  exact ⟨(hnumbers _ hattr 1 List.mem_cons_self).2.mpr (hnear 1), painted, hpaint⟩

/-- One column further right, an attribute that stops within the first character stops the
painting. -/
theorem column_overflows_left_of_last_window :
    let line : Line := ⟨['😀', 'b'], [⟨⟨0, some 1⟩, .foreground .red⟩]⟩
    let window : Span := ⟨maxColumn, some (maxColumn + 4)⟩
    line.fault? = none ∧ line.length < 2 ^ 59 ∧
      (Expansion.ofText line.text).columnOf 1 = -2 ∧
      ¬ FitsColumn ((Expansion.ofText line.text).columnOf 1 - columnUpTo window.start) ∧
      (Frame.empty 4 1).checkedPaint (.build .xterm {} {}) 0 0 line window .text =
        .error (.overflow (minColumn - 1)) := by
  intro line window
  have hvalid : line.fault? = none := by decide
  have haccepted : line.AcceptedIn window :=
    ⟨Line.valid_iff_fault?_eq_none.mpr hvalid, maxColumn + 4, rfl, by decide⟩
  have hoverflows : line.Overflows window.start :=
    ⟨_, List.mem_cons_self, rfl, 1, by decide, Text.tooFarLeft_one rfl _⟩
  exact ⟨hvalid, by decide, by decide, by decide,
    checkedPaint_of_overflows _ _ 0 0 .text (by decide) haccepted hoverflows⟩

end Frame

end LinePainter
