import LinePainter.Line.Wrap
import LinePainter.Proofs.Line.Edits

namespace LinePainter

namespace Line

/-! Attributes stay on the bytes they cover while the text around them changes. -/

def directives (line : Line) : List Directive :=
  line.attributes.map (·.directive)

/-- For each attribute in order, whether it covers the byte at `offset`. -/
def coverage (line : Line) (offset : Nat) : List Bool :=
  line.attributes.map fun attr => decide (attr.span.Contains offset)

def uncovered (line : Line) : List Bool :=
  line.attributes.map fun _ => false

/-- The attributes that an insertion at `index` stretches over the new bytes. -/
def straddling (line : Line) (index : Nat) : List Bool :=
  line.attributes.map fun attr => decide (attr.span.Straddles index)

def openEnded (line : Line) : List Bool :=
  line.attributes.map fun attr => decide (attr.span.stop = none)

variable {line fragment : Line} {before after : Text}

section Moved

variable {text : Text} {move : Span → Span}

theorem directives_mapSpan :
    directives ⟨text, line.attributes.map (Attribute.mapSpan move)⟩ = line.directives := by
  simp [directives, Function.comp_def]

theorem coverage_mapSpan {offset : Nat} {covered : Attribute → Bool}
    (hmove : ∀ attr ∈ line.attributes,
      decide ((move attr.span).Contains offset) = covered attr) :
    coverage ⟨text, line.attributes.map (Attribute.mapSpan move)⟩ offset =
      line.attributes.map covered := by
  rw [coverage, List.map_map]
  exact List.map_congr_left hmove

end Moved

theorem directives_append (text : Text) (left right : List Attribute) :
    directives ⟨text, left ++ right⟩ = directives ⟨text, left⟩ ++ directives ⟨text, right⟩ :=
  List.map_append ..

theorem coverage_append (text : Text) (left right : List Attribute) (offset : Nat) :
    coverage ⟨text, left ++ right⟩ offset =
      coverage ⟨text, left⟩ offset ++ coverage ⟨text, right⟩ offset :=
  List.map_append ..

/-! Inserted characters. -/

/-- `result` is `line` with `run` put in at `index`, and every attribute of the line is
still on the bytes it was on. -/
structure RunInserted (line : Line) (index : Nat) (run : Text) (result : Line) : Prop where
  text : ∃ before after, line.text = before ++ after ∧ before.byteLength = index ∧
    result.text = before ++ run ++ after
  directives : result.directives = line.directives
  in_front : ∀ offset < index, result.coverage offset = line.coverage offset
  behind : ∀ offset, index ≤ offset →
    result.coverage (offset + run.byteLength) = line.coverage offset
  inside : ∀ offset < run.byteLength,
    result.coverage (index + offset) = line.straddling index

theorem runInserted_pushedApart (htext : line.text = before ++ after) (run : Text) :
    RunInserted line before.byteLength run (line.pushedApart before run after) where
  text := ⟨before, after, htext, rfl, rfl⟩
  directives := directives_mapSpan
  in_front offset hoffset := by
    apply coverage_mapSpan
    intro attr _
    have hplace : Span.pushOffset before.byteLength run.byteLength offset = offset :=
      if_neg (Nat.not_le.mpr hoffset)
    rw [decide_eq_decide, ← Span.contains_pushed_iff attr.span, hplace]
  behind offset hoffset := by
    apply coverage_mapSpan
    intro attr _
    have hplace : Span.pushOffset before.byteLength run.byteLength offset =
        offset + run.byteLength := if_pos hoffset
    rw [decide_eq_decide, ← Span.contains_pushed_iff attr.span, hplace]
  inside offset hoffset := by
    apply coverage_mapSpan
    intro attr _
    rw [decide_eq_decide]
    exact Span.contains_pushed_inserted_iff hoffset

/-! Removed characters. -/

/-- `result` is `line` without the `length` bytes at `index`, and every attribute is
still on the bytes that are left of those it was on. -/
structure RunRemoved (line : Line) (index length : Nat) (result : Line) : Prop where
  text : ∃ before removed after, line.text = before ++ removed ++ after ∧
    before.byteLength = index ∧ removed.byteLength = length ∧ result.text = before ++ after
  directives : result.directives = line.directives
  in_front : ∀ offset < index, result.coverage offset = line.coverage offset
  behind : ∀ offset, index + length ≤ offset →
    result.coverage (offset - length) = line.coverage offset

theorem runRemoved_closedUp {removed : Text} (htext : line.text = before ++ removed ++ after) :
    RunRemoved line before.byteLength removed.byteLength
      (line.closedUp before after removed.byteLength) where
  text := ⟨before, removed, after, htext, rfl, rfl, rfl⟩
  directives := directives_mapSpan
  in_front offset hoffset := by
    apply coverage_mapSpan
    intro attr _
    have hplace :
        Span.squeezeOffset before.byteLength removed.byteLength offset = offset :=
      if_pos (Nat.le_of_lt hoffset)
    rw [decide_eq_decide, ← Span.contains_erased_iff attr.span (.inl hoffset), hplace]
  behind offset hoffset := by
    apply coverage_mapSpan
    intro attr _
    have hplace :
        Span.squeezeOffset before.byteLength removed.byteLength offset =
          offset - removed.byteLength := by
      unfold Span.squeezeOffset
      split
      · omega
      · exact if_neg (Nat.not_lt.mpr hoffset)
    rw [decide_eq_decide, ← Span.contains_erased_iff attr.span (.inr hoffset), hplace]

/-! Inserted lines. -/

/-- `result` is `line` with `fragment` put in at `index`. The attributes of both are on
the bytes they were on, and those of `line` that reach across `index` are on all of
`fragment`; at the end of the line only open attributes reach. -/
structure LineInserted (line : Line) (index : Nat) (fragment result : Line) : Prop where
  text : ∃ before after, line.text = before ++ after ∧ before.byteLength = index ∧
    result.text = before ++ fragment.text ++ after
  directives : result.directives = line.directives ++ fragment.directives
  in_front : ∀ offset < index,
    result.coverage offset = line.coverage offset ++ fragment.uncovered
  behind : ∀ offset, index ≤ offset → offset < line.length →
    result.coverage (offset + fragment.length) = line.coverage offset ++ fragment.uncovered
  inside : ∀ offset < fragment.length,
    result.coverage (index + offset) =
      (if index < line.length then line.straddling index else line.openEnded) ++
        fragment.coverage offset

theorem coverage_partedAttributes_outside (text : Text) (fragment : Line)
    (htext : line.text = before ++ after)
    (offset : Nat) (hoffset : offset < line.length) :
    coverage ⟨text, line.partedAttributes before.byteLength fragment.length⟩
        (if before.byteLength ≤ offset then offset + fragment.length else offset) =
      line.coverage offset := by
  have hinserted := runInserted_pushedApart htext fragment.text
  unfold partedAttributes
  split
  · split
    · next hbehind => exact hinserted.behind offset hbehind
    · next hfront => exact hinserted.in_front offset (Nat.lt_of_not_le hfront)
  · next hend => rw [if_neg (by omega)]; rfl

theorem coverage_partedAttributes_inside (text : Text) (hline : line.Valid)
    (htext : line.text = before ++ after) (offset : Nat) (hoffset : offset < fragment.length) :
    coverage ⟨text, line.partedAttributes before.byteLength fragment.length⟩
        (before.byteLength + offset) =
      if before.byteLength < line.length then line.straddling before.byteLength
      else line.openEnded := by
  unfold partedAttributes
  split
  · exact (runInserted_pushedApart htext fragment.text).inside offset hoffset
  · next hend =>
      apply List.map_congr_left
      intro attr hattr
      have hlength : line.length = before.byteLength + after.byteLength := length_eq htext
      rw [decide_eq_decide]
      exact (hline attr hattr).contains_past_iff (by omega)

theorem coverage_embeddedAttributes_outside (text : Text) (hfragment : fragment.Valid)
    {index offset : Nat} (hoffset : offset < index ∨ index + fragment.length ≤ offset) :
    coverage ⟨text, fragment.embeddedAttributes index⟩ offset = fragment.uncovered := by
  apply coverage_mapSpan
  intro attr hattr
  exact decide_eq_false ((hfragment attr hattr).not_contains_embedded hoffset)

theorem coverage_embeddedAttributes_inside (text : Text) {index offset : Nat}
    (hoffset : offset < fragment.length) :
    coverage ⟨text, fragment.embeddedAttributes index⟩ (index + offset) =
      fragment.coverage offset := by
  apply coverage_mapSpan
  intro attr _
  rw [decide_eq_decide]
  exact Span.contains_embedded_iff hoffset

theorem directives_partedAttributes (text : Text) (index amount : Nat) :
    directives ⟨text, line.partedAttributes index amount⟩ = line.directives := by
  unfold partedAttributes
  split
  · exact directives_mapSpan
  · rfl

theorem lineInserted_splice (hline : line.Valid) (hfragment : fragment.Valid)
    (htext : line.text = before ++ after) :
    LineInserted line before.byteLength fragment (line.splice before after fragment) := by
  rw [splice_eq hline htext]
  have hlength : line.length = before.byteLength + after.byteLength := length_eq htext
  constructor
  case text => exact ⟨before, after, htext, rfl, rfl⟩
  case directives =>
      rw [directives_append, directives_partedAttributes, embeddedAttributes,
        directives_mapSpan]
  case in_front =>
      intro offset hoffset
      rw [coverage_append, coverage_embeddedAttributes_outside _ hfragment (.inl hoffset)]
      have hparted := coverage_partedAttributes_outside
        (before ++ fragment.text ++ after) fragment htext offset (by omega)
      rw [if_neg (Nat.not_le.mpr hoffset)] at hparted
      rw [hparted]
  case behind =>
      intro offset hfrom hbound
      rw [coverage_append,
        coverage_embeddedAttributes_outside _ hfragment (.inr (by omega))]
      have hparted := coverage_partedAttributes_outside
        (before ++ fragment.text ++ after) fragment htext offset hbound
      rw [if_pos hfrom] at hparted
      rw [hparted]
  case inside =>
      intro offset hoffset
      rw [coverage_append, coverage_embeddedAttributes_inside _ hoffset,
        coverage_partedAttributes_inside _ hline htext offset hoffset]

/-- Insertion of a line, insertion of characters and removal of a span each keep every
attribute, in order, on exactly the bytes it was on. -/
theorem plain_edits_keep_coverage {index : Nat} (hline : line.fault? = none)
    (hindex : line.text.IsBoundary index) :
    (∀ fragment : Line, fragment.fault? = none →
      ∃ result, line.insert index fragment none = .ok result ∧
        LineInserted line index fragment result) ∧
    (∀ count char,
      ∃ result, line.insertChars index count char = .ok result ∧
        RunInserted line index (List.replicate count char) result) ∧
    (∀ length, line.text.IsBoundary (index + length) →
      ∃ result, line.erase index length = .ok result ∧
        RunRemoved line index length result) := by
  rw [← valid_iff_fault?_eq_none] at hline
  refine ⟨fun fragment hfragment => ?_, fun count char => ?_, fun length hstop => ?_⟩
  · rw [← valid_iff_fault?_eq_none] at hfragment
    obtain ⟨before, after, htext, rfl⟩ := hindex
    refine ⟨line.splice before after fragment, ?_, lineInserted_splice hline hfragment htext⟩
    rw [insert, insertPlain_eq htext]
    rfl
  · obtain ⟨before, after, htext, rfl⟩ := hindex
    exact ⟨_, insertChars_eq hline htext count char, runInserted_pushedApart htext _⟩
  · obtain ⟨before, removed, after, htext, rfl, hremoved⟩ :=
      Text.exists_between (Nat.le_add_right ..) hindex hstop
    rw [Nat.add_sub_cancel_left] at hremoved
    subst hremoved
    exact ⟨_, erase_eq htext, runRemoved_closedUp htext⟩

theorem plain_edits_keep_coverage_between_attributes :
    let line : Line := ⟨['a', 'é', 'b'],
      [⟨⟨0, some 3⟩, .foreground .red⟩, ⟨⟨3, none⟩, .background .blue⟩]⟩
    let fragment : Line := ⟨['é', 'c'], [⟨⟨2, none⟩, .graphic '─'⟩]⟩
    ∃ result, line.insert 3 fragment none = .ok result ∧
      LineInserted line 3 fragment result :=
  (plain_edits_keep_coverage (by decide) (by decide)).1 _ (by decide)

end Line

end LinePainter
