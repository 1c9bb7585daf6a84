import Mathlib.Data.List.Forall2
import LinePainter.Proofs.Line.Rejoining

namespace LinePainter

/-! A part that is cut out of a line shows what the line shows there: each of its bytes is
under the attributes it was under. -/

namespace Attribute

/-- `cut` does what `attr` does, on those of its bytes that lie between `start` and `stop`,
counted from `start`. -/
structure CutTo (start stop : Nat) (attr cut : Attribute) : Prop where
  directive_eq : cut.directive = attr.directive
  contains_iff : ∀ offset, cut.span.Contains offset ↔
    start + offset < stop ∧ attr.span.Contains (start + offset)

end Attribute

namespace Line

/-- `part` is `line` from `start` to `stop`. The attributes that were on a byte there are
left, and maybe some that were on none, in the order in which they were. -/
structure CutOut (line : Line) (start stop : Nat) (part : Line) : Prop where
  text : ∃ before after, line.text = before ++ part.text ++ after ∧
    before.byteLength = start ∧ start + part.length = stop
  valid : part.fault? = none
  closed : part.Closed
  attributes : ∃ keeps : Attribute → Bool,
    List.Forall₂ (Attribute.CutTo start stop) (line.attributes.filter keeps) part.attributes ∧
      ∀ attr ∈ line.attributes, keeps attr = false →
        ∀ offset, start ≤ offset → offset < stop → ¬ attr.span.Contains offset
  directivesAt_eq : ∀ offset, start ≤ offset → offset < stop →
    part.directivesAt (offset - start) = line.directivesAt offset

variable {line : Line} {start stop : Nat}

theorem cutTo_clipped (attr : Attribute) :
    attr.CutTo start stop (attr.mapSpan (·.clipped start stop)) where
  directive_eq := rfl
  contains_iff offset := by
    by_cases hinside : start + offset < stop
    · rw [Attribute.span_mapSpan, Span.contains_clipped_iff hinside]
      exact (and_iff_right hinside).symm
    · refine iff_of_false (fun hcontains => ?_) fun hcontains => hinside hcontains.1
      have hbefore : offset < min stop (attr.span.stopOr stop) - start := hcontains.2 _ rfl
      omega

theorem cutOut_part {before between after : Text} (hvalid : line.Valid)
    (htext : line.text = before ++ between ++ after) :
    line.CutOut before.byteLength (before.byteLength + between.byteLength)
      (line.part before between) where
  text := ⟨before, after, htext, rfl, rfl⟩
  valid := valid_iff_fault?_eq_none.mp (valid_part hvalid htext)
  closed := closed_part hvalid htext
  attributes := by
    have hstop := part_within htext
    refine ⟨fun attr => Span.Touches
      ⟨before.byteLength, some (before.byteLength + between.byteLength)⟩ attr.span, ?_, ?_⟩
    · rw [part, attributesWithin_eq hvalid (Nat.le_add_right ..) hstop,
        List.forall₂_map_right_iff, List.forall₂_same]
      exact fun attr _ => cutTo_clipped attr
    · intro attr _ hdropped offset hfrom hto hcontains
      exact of_decide_eq_false hdropped (hcontains.touches hfrom hto)
  directivesAt_eq offset hfrom hto := by
    obtain ⟨inside, rfl⟩ := Nat.exists_eq_add_of_le hfrom
    rw [Nat.add_sub_cancel_left]
    exact directivesAt_part hvalid htext (Nat.lt_of_add_lt_add_left hto)

/-- Cutting a part out between two characters works, and the part keeps exactly the styling
of its bytes. -/
theorem subline_keeps_styling (hvalid : line.fault? = none) {length : Option Nat}
    (hlength : (length.map (start + ·)).getD line.length = stop)
    (hstart : line.text.IsBoundary start) (hstop : line.text.IsBoundary stop) :
    ∃ part, line.subline start length = .ok part ∧ line.CutOut start stop part := by
  rw [← valid_iff_fault?_eq_none] at hvalid
  have hwindow : start ≤ stop := by
    rw [← hlength]
    cases length with
    | none => exact hstart.le
    | some length => exact Nat.le_add_right ..
  obtain ⟨before, between, after, htext, rfl, hbetween⟩ :=
    Text.exists_between hwindow hstart hstop
  obtain rfl : stop = before.byteLength + between.byteLength := by omega
  exact ⟨_, subline_eq hvalid htext hlength, cutOut_part hvalid htext⟩

theorem subline_keeps_styling_between_edges :
    let line : Line := ⟨['a', 'é', 'b', 'c'],
      [⟨⟨0, none⟩, .foreground .red⟩, ⟨⟨3, some 3⟩, .graphic '─'⟩,
        ⟨⟨0, some 1⟩, .background .blue⟩, ⟨⟨3, some 5⟩, .custom "id" 7⟩]⟩
    ∃ part, line.subline 1 (some 3) = .ok part ∧ line.CutOut 1 4 part ∧
      part.directivesAt 2 = [.foreground .red, .custom "id" 7] := by
  intro line
  obtain ⟨part, hpart, hcut⟩ := @subline_keeps_styling line 1 4 (by decide) (some 3) rfl
    (by decide) (by decide)
  exact ⟨part, hpart, hcut, hcut.directivesAt_eq 3 (by decide) (by decide)⟩

end Line

end LinePainter
