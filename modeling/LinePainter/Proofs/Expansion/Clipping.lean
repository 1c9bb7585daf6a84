import LinePainter.Proofs.Expansion.Reach

namespace LinePainter

/-! Which columns of a window a span covers. Columns wrap around only where a window starts
at the last column there is, or behind it, and an offset is two columns left of the first
one. -/

namespace Span

/-- Where a span starts, and where it stops if it does. -/
def ends (span : Span) : List Nat := span.start :: span.stop.toList

variable {span : Span}

theorem start_mem_ends : span.start ∈ span.ends := List.mem_cons_self

theorem stop_mem_ends {stop : Nat} (hstop : stop ∈ span.stop) : stop ∈ span.ends :=
  List.mem_cons_of_mem _ (Option.mem_toList.mpr hstop)

theorem Fits.le_of_mem_ends {length offset : Nat} (hfits : span.Fits length)
    (hend : offset ∈ span.ends) : offset ≤ length := by
  rcases List.mem_cons.mp hend with rfl | hstop
  · exact hfits.start_le
  · exact (hfits.stop_within offset (Option.mem_toList.mp hstop)).2

end Span

namespace Text

/-- The offset is further left of the window's start than can be counted. -/
def TooFarLeft (text : Text) (windowStart offset : Nat) : Prop :=
  maxColumn ≤ windowStart ∧ text.LeftmostAt offset

theorem not_tooFarLeft_zero (text : Text) (windowStart : Nat) :
    ¬ text.TooFarLeft windowStart 0 :=
  fun hfar => text.not_leftmostAt_zero hfar.2

theorem tooFarLeft_one {char : Char} (hfour : char.utf8Size = 4) (after : Text) :
    TooFarLeft (char :: after) maxColumn 1 :=
  ⟨Nat.le_refl maxColumn, 0, char, after, rfl, hfour, rfl⟩

end Text

theorem wrapColumn_of_fits {reach : Nat} {column : Int}
    (hleast : -(max maxColumn reach + 1 : Nat) ≤ column)
    (hgreatest : column ≤ max maxColumn reach) : wrapColumn reach column = column := by
  apply Int.bmod_eq_of_le <;> omega

namespace Expansion

def Covers (expansion : Expansion) (span : Span) (column : Nat) : Prop :=
  expansion.columnOf span.start ≤ column ∧
    ∀ stop ∈ span.stop, (column : Int) < expansion.columnOf stop

instance (expansion : Expansion) (span : Span) (column : Nat) :
    Decidable (expansion.Covers span column) :=
  inferInstanceAs (Decidable (_ ∧ _))

variable {text : Text} {windowStart : Nat}

theorem distance_eq {offset : Nat} (hoffset : offset ≤ text.byteLength)
    (hnear : ¬ text.TooFarLeft windowStart offset) :
    (ofText text).distance windowStart offset =
      (ofText text).columnOf offset - toColumn (ofText text).width windowStart := by
  have hwidth := columnOf_le_width hoffset
  obtain ⟨hleast, hleftmost⟩ := columnOf_leftmost hoffset
  rw [Text.TooFarLeft, ← hleftmost] at hnear
  apply wrapColumn_of_fits <;> unfold toColumn <;> omega

/-- An offset that is too far left counts as one at the last column. -/
theorem distance_of_tooFarLeft {offset : Nat} (hwidth : (ofText text).width ≤ maxColumn)
    (hfar : text.TooFarLeft windowStart offset) :
    (ofText text).distance windowStart offset = maxColumn := by
  rw [distance, columnOf_of_leftmostAt hfar.2, toColumn, wrapColumn, Nat.max_eq_left hwidth,
    Nat.min_eq_right hfar.1]
  rfl

/-- A span that stops too far left covers all of a window that it does not reach. -/
theorem clip_of_stop_tooFarLeft {start stop width : Nat} (hwidth : (ofText text).width ≤ maxColumn)
    (hstart : start ≤ text.byteLength) (hnear : ¬ text.TooFarLeft windowStart start)
    (hfar : text.TooFarLeft windowStart stop) (hpos : 0 < width) (hscreen : width ≤ maxColumn) :
    (ofText text).clip ⟨start, some stop⟩ windowStart width = some (0, width) := by
  have hcolumn := columnOf_le_width hstart
  have hleft : toColumn (ofText text).width windowStart = maxColumn := by
    rw [toColumn, Nat.max_eq_left hwidth, Nat.min_eq_right hfar.1]
  have hdistance := distance_eq hstart hnear
  rw [hleft] at hdistance
  unfold clip
  dsimp only
  rw [distance_of_tooFarLeft hwidth hfar, hdistance, Int.max_eq_right (by omega),
    Int.min_eq_right (by omega), if_neg (by omega)]
  rfl

/-- Clipping to a window keeps exactly the columns of the window that are covered. That
window starts which lie too far to the right are cut down does not matter, since no span
of the text reaches that far. -/
theorem mem_clip_iff {span : Span} (hfits : span.Fits text.byteLength)
    (hnear : ∀ offset ∈ span.ends, ¬ text.TooFarLeft windowStart offset)
    {width position : Nat} (hposition : position < width) :
    (∃ run ∈ (ofText text).clip span windowStart width,
        run.1 ≤ position ∧ position < run.2) ↔
      (ofText text).Covers span (windowStart + position) := by
  have hstart := columnOf_le_width hfits.start_le
  have hstop (stop : Nat) (hmem : stop ∈ span.stop) :
      (ofText text).columnOf stop ≤ (ofText text).width :=
    columnOf_le_width (hfits.stop_within stop hmem).2
  have hleft : toColumn (ofText text).width windowStart = windowStart ∨
      (toColumn (ofText text).width windowStart ≤ windowStart ∧
        (ofText text).width ≤ toColumn (ofText text).width windowStart) := by
    unfold toColumn
    omega
  have hdistance (offset : Nat) (hend : offset ∈ span.ends) :=
    distance_eq (hfits.le_of_mem_ends hend) (hnear offset hend)
  unfold clip Covers
  rw [hdistance span.start Span.start_mem_ends]
  generalize (ofText text).columnOf span.start = start at *
  obtain ⟨_, stop⟩ := span
  cases stop with
  | none =>
      generalize toColumn (ofText text).width windowStart = left at *
      simp only [Option.mem_def, reduceCtorEq, false_implies, implies_true, and_true]
      split
      · simp only [reduceCtorEq, false_and, exists_const, false_iff]
        omega
      · simp only [Option.some.injEq, exists_eq_left']
        omega
  | some stop =>
      have hstop := hstop stop rfl
      have hstopDistance := hdistance stop (Span.stop_mem_ends rfl)
      dsimp only at hstopDistance ⊢
      rw [hstopDistance]
      generalize toColumn (ofText text).width windowStart = left at *
      simp only [Option.mem_def, Option.some.injEq, forall_eq']
      split
      · simp only [reduceCtorEq, false_and, exists_const, false_iff]
        omega
      · simp only [Option.some.injEq, exists_eq_left']
        omega

/-- What is left of a span in a window is not empty and lies in the window, wherever the
span is. -/
theorem clip_bounds {expansion : Expansion} {span : Span} {windowStart width start stop : Nat}
    (hclip : expansion.clip span windowStart width = some (start, stop)) :
    start < stop ∧ stop ≤ width := by
  obtain ⟨spanStart, spanStop⟩ := span
  simp only [clip, Option.ite_none_left_eq_some, Option.some.injEq, Prod.mk.injEq] at hclip
  obtain ⟨hreached, rfl, rfl⟩ := hclip
  cases spanStop with
  | none =>
      dsimp only at hreached ⊢
      omega
  | some spanStop =>
      dsimp only at hreached ⊢
      omega

end Expansion

end LinePainter
