import LinePainter.Proofs.Painting.Flattening

namespace LinePainter

/-! Which lines are rejected, and why. -/

namespace Span

/-- What keeps a span from lying within a text. That the span is inverted comes first. -/
inductive IsFaulty (span : Span) (length : Nat) : SpanFault → Prop where
  | inverted (hinverted : ∃ stop ∈ span.stop, stop < span.start) :
      IsFaulty span length (.inverted span)
  | outOfBounds (hordered : ∀ stop ∈ span.stop, span.start ≤ stop)
      (hpast : length < span.start ∨ ∃ stop ∈ span.stop, length < stop) :
      IsFaulty span length (.outOfBounds span length)

theorem stopOr_lt_start_iff {span : Span} :
    span.stopOr span.start < span.start ↔ ∃ stop ∈ span.stop, stop < span.start := by
  obtain ⟨start, stop⟩ := span
  cases stop <;> simp [stopOr]

theorem lt_stopOr_iff {span : Span} {length : Nat} :
    length < span.stopOr length ↔ ∃ stop ∈ span.stop, length < stop := by
  obtain ⟨start, stop⟩ := span
  cases stop <;> simp [stopOr]

theorem fault?_eq_some_iff {span : Span} {length : Nat} {fault : SpanFault} :
    span.fault? length = some fault ↔ span.IsFaulty length fault := by
  constructor
  · intro hfault
    unfold fault? at hfault
    split at hfault
    · next hinverted =>
        cases hfault
        exact .inverted (stopOr_lt_start_iff.mp hinverted)
    · next hordered =>
        split at hfault
        · next hpast =>
            cases hfault
            refine .outOfBounds (fun stop hstop => Nat.le_of_not_lt fun hlt => ?_)
              (hpast.imp_right lt_stopOr_iff.mp)
            exact hordered (stopOr_lt_start_iff.mpr ⟨stop, hstop, hlt⟩)
        · cases hfault
  · rintro (hinverted | ⟨hordered, hpast⟩)
    · exact if_pos (stopOr_lt_start_iff.mpr hinverted)
    · rw [fault?, if_neg, if_pos (hpast.imp_right lt_stopOr_iff.mpr)]
      intro hinverted
      obtain ⟨stop, hstop, hlt⟩ := stopOr_lt_start_iff.mp hinverted
      exact Nat.not_lt.mpr (hordered stop hstop) hlt

end Span

namespace Line

variable {line : Line} {window : Span}

/-- The fault of the first attribute that has one. -/
def FirstFault (line : Line) (fault : SpanFault) : Prop :=
  ∃ before attr after, line.attributes = before ++ attr :: after ∧
    attr.span.IsFaulty line.length fault ∧
    ∀ earlier ∈ before, earlier.span.Fits line.length

theorem fault?_eq_some_iff {fault : SpanFault} :
    line.fault? = some fault ↔ line.FirstFault fault := by
  simp only [fault?, List.findSome?_eq_some_iff, Span.fault?_eq_some_iff,
    Span.fault?_eq_none_iff, FirstFault]

/-- Why a line is rejected in a window. The window is looked at first, then the
attributes. -/
inductive RejectedIn (line : Line) (window : Span) : PaintError → Prop where
  | openWindow (hopen : window.stop = none) : RejectedIn line window (.openWindow window)
  | invertedWindow (hinverted : ∃ stop ∈ window.stop, stop < window.start) :
      RejectedIn line window (.invertedWindow window)
  | spanFault {fault : SpanFault} (hclosed : ∃ stop ∈ window.stop, window.start ≤ stop)
      (hfault : line.FirstFault fault) : RejectedIn line window (.spanFault fault)

/-- What a line and a window must be for the line to be painted. -/
structure AcceptedIn (line : Line) (window : Span) : Prop where
  valid : line.Valid
  closed : ∃ stop ∈ window.stop, window.start ≤ stop

theorem accepted_or_rejected (line : Line) (window : Span) :
    line.AcceptedIn window ∨ ∃ error, line.RejectedIn window error := by
  obtain ⟨start, stop⟩ := window
  cases stop with
  | none => exact .inr ⟨_, .openWindow rfl⟩
  | some stop =>
      rcases Nat.lt_or_ge stop start with hinverted | hordered
      · exact .inr ⟨_, .invertedWindow ⟨stop, rfl, hinverted⟩⟩
      · cases hfault : line.fault? with
        | none => exact .inl ⟨valid_iff_fault?_eq_none.mpr hfault, stop, rfl, hordered⟩
        | some fault =>
            exact .inr ⟨_, .spanFault ⟨stop, rfl, hordered⟩ (fault?_eq_some_iff.mp hfault)⟩

end Line

namespace Frame

variable {line : Line} {window : Span}

theorem paint_of_rejected {error : PaintError} (hrejected : line.RejectedIn window error)
    (frame : Frame) (theme : Theme) (x y : Nat) (role : Role) :
    frame.paint theme x y line window role = .error error := by
  obtain ⟨start, _⟩ := window
  rw [paint_eq]
  rcases hrejected with hopen | ⟨stop, hstop, hinverted⟩ | ⟨⟨stop, hstop, hordered⟩, hfault⟩
  · cases hopen
    rfl
  · cases hstop
    rw [Span.windowBounds_of_lt hinverted]
  · cases hstop
    rw [Span.windowBounds_of_le hordered, Line.fault?_eq_some_iff.mpr hfault]

theorem paint_of_accepted (haccepted : line.AcceptedIn window) (frame : Frame) (theme : Theme)
    (x y : Nat) (role : Role) :
    ∃ painted after, frame.paint theme x y line window role = .ok (painted, after) := by
  obtain ⟨start, _⟩ := window
  obtain ⟨hvalid, stop, hstop, hordered⟩ := haccepted
  cases hstop
  exact ⟨_, _, paint_of_valid (Line.valid_iff_fault?_eq_none.mp hvalid) hordered ..⟩

variable {frame : Frame} {theme : Theme} {x y : Nat} {role : Role}

theorem paint_eq_error_iff {error : PaintError} :
    frame.paint theme x y line window role = .error error ↔ line.RejectedIn window error := by
  refine ⟨fun hpaint => ?_, fun hrejected => paint_of_rejected hrejected ..⟩
  rcases line.accepted_or_rejected window with haccepted | ⟨reason, hrejected⟩
  · obtain ⟨painted, after, hpainted⟩ := paint_of_accepted haccepted frame theme x y role
    rw [hpainted] at hpaint
    cases hpaint
  · rw [paint_of_rejected hrejected] at hpaint
    cases hpaint
    exact hrejected

theorem exists_painted_iff :
    (∃ painted after, frame.paint theme x y line window role = .ok (painted, after)) ↔
      line.AcceptedIn window := by
  refine ⟨?_, fun haccepted => paint_of_accepted haccepted ..⟩
  rintro ⟨painted, after, hpaint⟩
  refine (line.accepted_or_rejected window).resolve_right ?_
  rintro ⟨reason, hrejected⟩
  rw [paint_of_rejected hrejected] at hpaint
  cases hpaint

end Frame

end LinePainter
