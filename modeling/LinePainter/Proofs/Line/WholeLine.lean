import LinePainter.Proofs.Line.Cutting

namespace LinePainter

/-! A line cut out of itself from its first byte to its last. Its text stays whole. Of its
attributes those get lost that lie at the very end and are open, and in an empty line all
that are closed. -/

namespace Span

variable {span : Span} {length : Nat}

/-- What the window over a whole text of `length` bytes does not touch although it fits. -/
def IsLost (span : Span) (length : Nat) : Prop :=
  span.start = length ∧ (span.stop = none ↔ 0 < length)

instance (span : Span) (length : Nat) : Decidable (span.IsLost length) :=
  inferInstanceAs (Decidable (_ ∧ _))

theorem Fits.touches_whole_iff (hfits : span.Fits length) :
    Touches ⟨0, some length⟩ span ↔ ¬ span.IsLost length := by
  obtain ⟨start, stop⟩ := span
  have hstart : start ≤ length := hfits.start_le
  cases stop with
  | none =>
      simp only [Touches, Contains, IsLost, Option.mem_def, Option.some.injEq, forall_eq',
        reduceCtorEq, false_and, exists_false, false_or, false_implies, implies_true, and_true,
        true_iff]
      omega
  | some stop =>
      have hstop : start ≤ stop ∧ stop ≤ length := hfits.stop_within stop rfl
      simp only [Touches, Contains, IsLost, Option.mem_def, Option.some.injEq, forall_eq',
        exists_eq_left', reduceCtorEq, false_iff]
      omega

theorem Fits.clipped_whole (hfits : span.Fits length) :
    span.clipped 0 length = span.resolve length := by
  obtain ⟨start, stop⟩ := span
  cases stop with
  | none => simp [clipped, resolve, stopOr]
  | some stop =>
      have hstop : stop ≤ length := (hfits.stop_within stop rfl).2
      simp [clipped, resolve, stopOr, hstop]

end Span

namespace Line

variable {line : Line}

/-- The line with its open attributes closed at the end of the text. -/
def closedAtEnd (line : Line) : Line where
  text := line.text
  attributes := line.attributes.map (Attribute.mapSpan (·.resolve line.length))

/-- The line without the attributes that the window over all of it misses. -/
def withoutLost (line : Line) : Line where
  text := line.text
  attributes := line.attributes.filter fun attr => ¬ attr.span.IsLost line.length

theorem part_whole (hvalid : line.Valid) :
    line.part [] line.text = line.withoutLost.closedAtEnd := by
  have hkept : (line.attributes.filter fun attr =>
      Span.Touches ⟨0, some line.length⟩ attr.span) = line.withoutLost.attributes := by
    apply List.filter_congr
    intro attr hattr
    rw [decide_eq_decide]
    exact (hvalid attr hattr).touches_whole_iff
  rw [part, Text.byteLength_nil, Nat.zero_add, ← length,
    attributesWithin_eq hvalid (Nat.zero_le _) (Nat.le_refl _), hkept, closedAtEnd]
  congr 1
  apply List.map_congr_left
  intro attr hattr
  exact congrArg (Attribute.mk · attr.directive)
    (hvalid attr (List.mem_filter.mp hattr).1).clipped_whole

theorem withoutLost_eq_iff :
    line.withoutLost.closedAtEnd = line.closedAtEnd ↔
      ∀ attr ∈ line.attributes, ¬ attr.span.IsLost line.length := by
  constructor
  · intro hsame
    have hlengths := congrArg (fun line => line.attributes.length) hsame
    simp only [closedAtEnd, withoutLost, List.length_map] at hlengths
    simpa using List.length_filter_eq_length_iff.mp hlengths
  · intro hkept
    have hall : line.withoutLost = line :=
      congrArg (Line.mk line.text) (List.filter_eq_self.mpr (by simpa using hkept))
    rw [hall]

theorem CutsInto.eq_singleton {done text : Text} {pieces : List Line}
    (hcuts : line.CutsInto done text pieces) (hnewline : '\n' ∉ text) :
    pieces = [line.part done text] := by
  cases hcuts with
  | last _ => rfl
  | next _ _ => exact absurd (List.mem_append_right _ List.mem_cons_self) hnewline

/-- All of a line, however it is asked for, has its text and its attributes, closed, but
for those that the window over it misses. So it is the line itself, closed, exactly if there
are none of those. -/
theorem whole_line_kept_iff (hvalid : line.fault? = none) :
    ∃ whole, line.subline 0 none = .ok whole ∧ line.subline 0 (some line.length) = .ok whole ∧
      ('\n' ∉ line.text → line.splitLines = .ok [whole]) ∧
      whole = line.withoutLost.closedAtEnd ∧
      (whole = line.closedAtEnd ↔ ∀ attr ∈ line.attributes, ¬ attr.span.IsLost line.length) := by
  rw [← valid_iff_fault?_eq_none] at hvalid
  have htext : line.text = [] ++ line.text ++ [] := by simp
  have hpart := part_whole hvalid
  refine ⟨line.withoutLost.closedAtEnd, ?_, ?_, fun hnewline => ?_, rfl, withoutLost_eq_iff⟩
  · rw [← hpart]
    exact subline_eq hvalid htext (by simp [length])
  · rw [← hpart]
    exact subline_eq_part hvalid htext
  · obtain ⟨pieces, hpieces, hcuts⟩ := exists_splitLines hvalid
    rw [hpieces, hcuts.eq_singleton hnewline, hpart]

theorem whole_line_kept_iff_empty_at_end :
    let line : Line := ⟨['a', 'é'],
      [⟨⟨3, some 3⟩, .graphic '─'⟩, ⟨⟨1, none⟩, .foreground .red⟩, ⟨⟨0, some 0⟩, .custom "id" 7⟩]⟩
    line.subline 0 none = .ok line.closedAtEnd ∧ line.splitLines = .ok [line.closedAtEnd] := by
  intro line
  obtain ⟨whole, hwhole, -, hpieces, -, hkept⟩ := @whole_line_kept_iff line (by decide)
  rw [hkept.mpr (by decide)] at hwhole hpieces
  exact ⟨hwhole, hpieces (by decide)⟩

/-- An open attribute at the end of a text and an empty one in an empty text are lost. -/
theorem whole_line_loses_attributes :
    let openAtEnd : Line := ⟨['a', 'b'], [⟨⟨2, none⟩, .foreground .red⟩]⟩
    let closed : Line := ⟨['a', 'b'], [⟨⟨2, some 2⟩, .foreground .red⟩]⟩
    let textless : Line := ⟨[], [⟨⟨0, some 0⟩, .foreground .red⟩]⟩
    (openAtEnd.fault? = none ∧ openAtEnd.closedAtEnd = closed ∧
        openAtEnd.subline 0 none = .ok ⟨['a', 'b'], []⟩ ∧
        closed.subline 0 none = .ok closed) ∧
      textless.fault? = none ∧ textless.closedAtEnd = textless ∧
        textless.subline 0 none = .ok ⟨[], []⟩ ∧ textless.splitLines = .ok [⟨[], []⟩] := by
  intro openAtEnd closed textless
  have hvalid : textless.Valid := valid_iff_fault?_eq_none.mpr (by decide)
  refine ⟨⟨by decide, rfl, rfl, rfl⟩, by decide, rfl, rfl, ?_⟩
  obtain ⟨pieces, hpieces, hcuts⟩ := exists_splitLines hvalid
  rw [hpieces, hcuts.eq_singleton List.not_mem_nil]
  rfl

end Line

end LinePainter
