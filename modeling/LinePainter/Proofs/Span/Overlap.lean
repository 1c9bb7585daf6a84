import LinePainter.Span

namespace LinePainter

namespace Span

/-! Spans that have offsets in common. What two spans share is their intersection, and if
neither of them is empty, they touch exactly if they share something. -/

variable {span left right : Span} {offset : Nat}

theorem isEmpty_eq_false_iff :
    span.isEmpty = false ↔ ∀ stop ∈ span.stop, span.start < stop := by
  obtain ⟨start, stop⟩ := span
  cases stop with
  | none => simp [isEmpty, length?]
  | some stop => simp [isEmpty, length?, Nat.sub_eq_zero_iff_le]

theorem contains_start_iff : span.Contains span.start ↔ span.isEmpty = false := by
  rw [isEmpty_eq_false_iff]
  exact and_iff_right (Nat.le_refl span.start)

theorem contains_last (hspan : span.isEmpty = false) {stop : Nat} (hstop : stop ∈ span.stop) :
    span.Contains (stop - 1) := by
  have hstart := isEmpty_eq_false_iff.mp hspan stop hstop
  refine ⟨Nat.le_sub_one_of_lt hstart, fun other hother => ?_⟩
  cases Option.mem_unique hstop hother
  exact Nat.sub_one_lt_of_lt hstart

theorem Contains.of_le (hcontains : span.Contains offset) {earlier : Nat}
    (hstart : span.start ≤ earlier) (hearlier : earlier ≤ offset) : span.Contains earlier :=
  ⟨hstart, fun stop hstop => Nat.lt_of_le_of_lt hearlier (hcontains.2 stop hstop)⟩

/-! Intersections. -/

theorem lt_earlierStop_iff {first second : Option Nat} :
    (∀ stop ∈ earlierStop first second, offset < stop) ↔
      (∀ stop ∈ first, offset < stop) ∧ ∀ stop ∈ second, offset < stop := by
  cases first with
  | none => simp [earlierStop]
  | some first =>
      cases second with
      | none => simp [earlierStop]
      | some second =>
          simp only [earlierStop, Option.mem_def, Option.some.injEq, forall_eq', Nat.lt_min]

theorem contains_intersection_iff :
    (left.intersection right).Contains offset ↔ left.Contains offset ∧ right.Contains offset := by
  simp only [Contains, intersection, Nat.max_le, lt_earlierStop_iff]
  exact and_and_and_comm

theorem earlierStop_comm (first second : Option Nat) :
    earlierStop first second = earlierStop second first := by
  cases first <;> cases second <;> simp [earlierStop, Nat.min_comm]

theorem earlierStop_assoc (first second third : Option Nat) :
    earlierStop (earlierStop first second) third =
      earlierStop first (earlierStop second third) := by
  cases first <;> cases second <;> cases third <;> simp [earlierStop, Nat.min_assoc]

theorem intersection_comm (left right : Span) :
    left.intersection right = right.intersection left := by
  rw [intersection, Nat.max_comm, earlierStop_comm, ← intersection]

theorem intersection_assoc (left middle right : Span) :
    (left.intersection middle).intersection right =
      left.intersection (middle.intersection right) := by
  simp only [intersection, Nat.max_assoc, earlierStop_assoc]

/-! Overlaps. -/

def Overlaps (left right : Span) : Prop :=
  ∃ offset, left.Contains offset ∧ right.Contains offset

theorem Overlaps.symm (hoverlaps : left.Overlaps right) : right.Overlaps left := by
  obtain ⟨offset, hleft, hright⟩ := hoverlaps
  exact ⟨offset, hright, hleft⟩

/-- Spans that overlap do so where the later one of them starts. -/
theorem Overlaps.contains_start (hoverlaps : left.Overlaps right) :
    left.Contains right.start ∨ right.Contains left.start := by
  obtain ⟨offset, hleft, hright⟩ := hoverlaps
  rcases Nat.le_total left.start right.start with hle | hle
  · exact .inl (hleft.of_le hle hright.1)
  · exact .inr (hright.of_le hle hleft.1)

theorem Overlaps.touches (hoverlaps : left.Overlaps right) : left.Touches right :=
  hoverlaps.contains_start.imp_right .inr

theorem Touches.overlaps (htouches : left.Touches right) (hleft : left.isEmpty = false)
    (hright : right.isEmpty = false) : left.Overlaps right := by
  obtain hfirst | ⟨stop, hstop, -, hlast⟩ | hback := htouches
  · exact ⟨right.start, hfirst, contains_start_iff.mpr hright⟩
  · exact ⟨stop - 1, hlast, contains_last hright hstop⟩
  · exact ⟨left.start, contains_start_iff.mpr hleft, hback⟩

theorem touches_iff_overlaps (hleft : left.isEmpty = false) (hright : right.isEmpty = false) :
    left.Touches right ↔ left.Overlaps right :=
  ⟨fun htouches => htouches.overlaps hleft hright, Overlaps.touches⟩

theorem not_contains_empty (place : Nat) : ¬ Contains ⟨place, some place⟩ offset := by
  rintro ⟨hstart, hstop⟩
  exact Nat.not_lt.mpr hstart (hstop place rfl)

theorem touches_empty_iff (place : Nat) :
    left.Touches ⟨place, some place⟩ ↔
      left.Contains place ∨ 0 < place ∧ left.Contains (place - 1) := by
  simp only [Touches, Option.mem_def, Option.some.injEq, exists_eq_left', not_contains_empty,
    or_false]

theorem empty_touches_iff (place : Nat) :
    Touches ⟨place, some place⟩ right ↔ right.Contains place := by
  simp only [Touches, not_contains_empty, and_false, exists_false, false_or]

/-- An intersection holds what both spans hold, in whatever order spans are intersected.
Spans that are not empty touch if they overlap, whichever is asked; an empty one is touched
where it lies and right behind, and touches where it lies. -/
theorem touches_exactly_overlaps (left right : Span) :
    (∀ offset, (left.intersection right).Contains offset ↔
        left.Contains offset ∧ right.Contains offset) ∧
      left.intersection right = right.intersection left ∧
      (∀ other : Span, (left.intersection right).intersection other =
        left.intersection (right.intersection other)) ∧
      (left.isEmpty = false → right.isEmpty = false →
        (left.Touches right ↔ left.Overlaps right) ∧
          (right.Touches left ↔ left.Overlaps right)) ∧
      (∀ place, left.Touches ⟨place, some place⟩ ↔
        left.Contains place ∨ 0 < place ∧ left.Contains (place - 1)) ∧
      ∀ place, right.isEmpty = false →
        (Touches ⟨place, some place⟩ right ↔ right.Contains place) := by
  refine ⟨fun offset => contains_intersection_iff, intersection_comm left right,
    fun other => intersection_assoc left right other, fun hleft hright => ⟨?_, ?_⟩,
    fun place => touches_empty_iff place, fun place _ => empty_touches_iff place⟩
  · exact touches_iff_overlaps hleft hright
  · rw [touches_iff_overlaps hright hleft]
    exact ⟨Overlaps.symm, Overlaps.symm⟩

theorem touches_exactly_overlaps_at_last_offset :
    let left : Span := ⟨2, some 5⟩
    let right : Span := ⟨4, none⟩
    (left.Overlaps right ∧ right.Touches left) ∧ ¬ Touches ⟨3, some 3⟩ right := by
  intro left right
  obtain ⟨-, -, -, hmeet, -, hplace⟩ := touches_exactly_overlaps left right
  obtain ⟨hforth, hback⟩ := hmeet (by decide) (by decide)
  have hoverlaps : left.Overlaps right := hforth.mp (by decide)
  have hapart : ¬ right.Contains 3 := by decide
  exact ⟨⟨hoverlaps, hback.mpr hoverlaps⟩, mt (hplace 3 (by decide)).mp hapart⟩

end Span

end LinePainter
