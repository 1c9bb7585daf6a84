import LinePainter.Proofs.Line.Wrapping

namespace LinePainter

/-! Removing what was just inserted gives back the line as it was. No span creeps, whether
it ends at the insertion, starts there or is empty there. -/

namespace Span

variable {span : Span} {index amount length : Nat}

theorem squeezeOffset_pushOffset (index amount offset : Nat) :
    squeezeOffset index amount (pushOffset index amount offset) = offset := by
  unfold squeezeOffset pushOffset
  split <;> split <;> (try split) <;> omega

theorem erased_pushed (span : Span) (index amount : Nat) :
    (span.pushed index amount).erased index amount = span := by
  obtain ⟨start, stop⟩ := span
  cases stop with
  | none => simp only [pushed, erased, Option.map_none, squeezeOffset_pushOffset]
  | some stop => simp only [pushed, erased, Option.map_some, squeezeOffset_pushOffset]

/-- What is removed behind a span does not reach it. -/
theorem Fits.erased_behind (hfits : span.Fits index) (amount : Nat) :
    span.erased index amount = span := by
  obtain ⟨start, stop⟩ := span
  have hstay (offset : Nat) (hoffset : offset ≤ index) :
      squeezeOffset index amount offset = offset := if_pos hoffset
  cases stop with
  | none => simp only [Span.erased, Option.map_none, hstay start hfits.start_le]
  | some stop =>
      simp only [Span.erased, Option.map_some, hstay start hfits.start_le,
        hstay stop (hfits.stop_within stop rfl).2]

theorem squeezeOffset_inside {offset : Nat} (hfrom : index ≤ offset)
    (hto : offset ≤ index + length) : squeezeOffset index length offset = index := by
  unfold squeezeOffset
  split <;> (try split) <;> omega

theorem Fits.erased_embedded (hfits : span.Fits length) (index : Nat) :
    (span.embedded index length).erased index length = ⟨index, some index⟩ := by
  have hembedded := hfits.embedded (Nat.le_refl index)
  have hstop := hembedded.stop_within _ rfl
  have hstart : index ≤ (span.embedded index length).start := Nat.le_add_left ..
  rw [Span.erased, squeezeOffset_inside hstart hembedded.start_le]
  exact congrArg (fun stop => Span.mk index (some stop))
    (squeezeOffset_inside (Nat.le_trans hstart hstop.1) hstop.2)

end Span

namespace Line

variable {line fragment : Line} {before after : Text}

theorem closedUp_pushedApart (htext : line.text = before ++ after) (run : Text) :
    (line.pushedApart before run after).closedUp before after run.byteLength = line := by
  have hmove : (Attribute.mapSpan (·.erased before.byteLength run.byteLength)) ∘
      (Attribute.mapSpan (·.pushed before.byteLength run.byteLength)) = id := by
    funext attr
    exact congrArg (Attribute.mk · attr.directive) (Span.erased_pushed attr.span ..)
  rw [closedUp, pushedApart, List.map_map, hmove, List.map_id, ← htext]

theorem map_erased_partedAttributes (hvalid : line.Valid) (htext : line.text = before ++ after)
    (amount : Nat) :
    (line.partedAttributes before.byteLength amount).map
        (Attribute.mapSpan (·.erased before.byteLength amount)) = line.attributes := by
  rw [← List.map_id line.attributes]
  unfold partedAttributes
  split
  · rw [List.map_map]
    apply List.map_congr_left
    intro attr _
    exact congrArg (Attribute.mk · attr.directive) (Span.erased_pushed attr.span ..)
  · next hend =>
      apply List.map_congr_left
      intro attr hattr
      have hlength : line.length = before.byteLength + after.byteLength := length_eq htext
      have hfits := (hvalid attr hattr).mono (by omega : line.length ≤ before.byteLength)
      exact congrArg (Attribute.mk · attr.directive) (hfits.erased_behind amount)

theorem map_erased_embeddedAttributes (hfragment : fragment.Valid) (index : Nat) :
    (fragment.embeddedAttributes index).map
        (Attribute.mapSpan (·.erased index fragment.length)) =
      fragment.attributes.map (Attribute.mapSpan fun _ => ⟨index, some index⟩) := by
  rw [embeddedAttributes, List.map_map]
  apply List.map_congr_left
  intro attr hattr
  exact congrArg (Attribute.mk · attr.directive) ((hfragment attr hattr).erased_embedded index)

theorem closedUp_splice (hvalid : line.Valid) (hfragment : fragment.Valid)
    (htext : line.text = before ++ after) :
    (line.splice before after fragment).closedUp before after fragment.length =
      { line with
        attributes := line.attributes ++ fragment.attributes.map
          (Attribute.mapSpan fun _ => ⟨before.byteLength, some before.byteLength⟩) } := by
  rw [splice_eq hvalid htext, closedUp, List.map_append,
    map_erased_partedAttributes hvalid htext, map_erased_embeddedAttributes hfragment, htext]

/-- Removing inserted characters undoes their insertion. Removing an inserted line leaves
its attributes behind, each of them empty where that line was. -/
theorem erase_undoes_insert {index : Nat} (hline : line.fault? = none)
    (hindex : line.text.IsBoundary index) :
    (∀ count char,
      ∃ longer, line.insertChars index count char = .ok longer ∧
        longer.erase index (count * char.utf8Size) = .ok line) ∧
    ∀ fragment : Line, fragment.fault? = none →
      ∃ joined, line.insert index fragment none = .ok joined ∧
        joined.erase index fragment.length =
          .ok { line with
            attributes := line.attributes ++ fragment.attributes.map
              (Attribute.mapSpan fun _ => ⟨index, some index⟩) } := by
  rw [← valid_iff_fault?_eq_none] at hline
  obtain ⟨before, after, htext, rfl⟩ := hindex
  refine ⟨fun count char => ?_, fun fragment hfragment => ?_⟩
  · refine ⟨_, insertChars_eq hline htext count char, ?_⟩
    rw [← Text.byteLength_replicate, erase_eq rfl, closedUp_pushedApart htext]
  · rw [← valid_iff_fault?_eq_none] at hfragment
    refine ⟨_, insert_none_eq htext fragment, ?_⟩
    rw [length, erase_eq rfl, ← length, closedUp_splice hline hfragment htext]

theorem erase_undoes_insert_at_edges :
    let line : Line := ⟨['a', 'é', 'b'],
      [⟨⟨0, some 3⟩, .foreground .red⟩, ⟨⟨3, some 3⟩, .graphic '─'⟩,
        ⟨⟨3, none⟩, .background .blue⟩]⟩
    let fragment : Line := ⟨['é', 'c'], [⟨⟨2, none⟩, .custom "id" 7⟩]⟩
    (∃ longer, line.insertChars 3 2 '日' = .ok longer ∧ longer.erase 3 6 = .ok line) ∧
      ∃ joined, line.insert 3 fragment none = .ok joined ∧
        joined.erase 3 3 = .ok { line with
          attributes := line.attributes ++ [⟨⟨3, some 3⟩, .custom "id" 7⟩] } := by
  intro line fragment
  obtain ⟨hchars, hfragments⟩ := @erase_undoes_insert line 3 (by decide) (by decide)
  exact ⟨hchars 2 '日', hfragments fragment (by decide)⟩

end Line

end LinePainter
