import LinePainter.Proofs.Expansion.Columns
import LinePainter.Proofs.Line.Edits

namespace LinePainter

namespace Expansion

/-! Between two characters the column is the width of what stands in front, so the laid out
text can be read off character by character. -/

theorem glyphs_ofText_append (before after : Text) :
    (ofText (before ++ after)).glyphs =
      (ofText before).glyphs ++
        (ofTextFrom before.byteLength (ofText before).width after).glyphs := by
  have happend := glyphs_ofTextFrom_append 0 0 before after
  rwa [Nat.zero_add, Nat.zero_add] at happend

theorem glyphs_isPrefix_append (before after : Text) :
    (ofText before).glyphs <+: (ofText (before ++ after)).glyphs := by
  rw [glyphs_ofText_append]
  exact List.prefix_append ..

theorem add_shiftBefore_append (offset column : Nat) (before after : Text) :
    before.byteLength +
        (ofTextFrom offset column (before ++ after)).shiftBefore (offset + before.byteLength) =
      (ofTextFrom offset column before).width := by
  rcases List.eq_nil_or_concat before with rfl | ⟨front, last, rfl⟩
  · rw [Text.byteLength_nil, Nat.add_zero, shiftBefore_of_le _ (Nat.le_refl _)]
    rfl
  · have hshift := add_shiftBefore_within offset column front last after last.utf8Size_pos
      (Nat.le_refl _)
    rw [List.concat_eq_append, List.append_assoc, List.singleton_append,
      width_ofTextFrom_append, width_ofTextFrom_cons, Text.byteLength_append,
      Text.byteLength_cons, Text.byteLength_nil, Nat.add_zero]
    simp only [ofTextFrom, width, List.length_nil] at hshift ⊢
    omega

theorem columnOf_append (before after : Text) :
    (ofText (before ++ after)).columnOf before.byteLength = (ofText before).width := by
  have hshift := add_shiftBefore_append 0 0 before after
  rw [Nat.zero_add] at hshift
  rw [columnOf, toColumn_of_le]
  · exact hshift
  · rw [ofText, length_ofTextFrom, Text.byteLength_append]
    exact Nat.le_add_right ..

theorem width_concat (before : Text) (char : Char) :
    (ofText (before ++ [char])).width =
      (ofText before).width + (glyphsAt (ofText before).width char).length := by
  rw [width, glyphs_ofText_append, List.length_append]
  simp [ofTextFrom, width]

/-- The columns of one character hold its glyphs. -/
theorem getElem?_glyphs (before : Text) (char : Char) (after : Text) {position : Nat}
    (hposition : position < (glyphsAt (ofText before).width char).length) :
    (ofText (before ++ char :: after)).glyphs[(ofText before).width + position]? =
      (glyphsAt (ofText before).width char)[position]? := by
  rw [glyphs_ofText_append, width, List.getElem?_append_right (Nat.le_add_right ..),
    Nat.add_sub_cancel_left, ofTextFrom]
  exact List.getElem?_append_left hposition

/-- What is in the columns from `column` to `next`, where one character ends and another
one starts. -/
def Shows (expansion : Expansion) (char : Char) (column next : Nat) : Prop :=
  if char = '\t' then
    (column < next ∧ next ≤ column + tabStop ∧ tabStop ∣ next) ∧
      ∀ position, column ≤ position → position < next →
        expansion.glyphs[position]? = some ' '
  else if char = '\r' then next = column
  else next = column + 1 ∧
    expansion.glyphs[column]? = some (if char = '\n' then ' ' else char)

theorem shows_character (before : Text) (char : Char) (after : Text) :
    (ofText (before ++ char :: after)).Shows char (ofText before).width
      (ofText (before ++ [char])).width := by
  have hnext := width_concat before char
  have hglyphs := fun position => @getElem?_glyphs before char after position
  generalize (ofText before).width = column at hnext hglyphs ⊢
  unfold Shows
  split
  · next htab =>
      have hspaces : glyphsAt column char =
          List.replicate (tabStop - column % tabStop) ' ' := if_pos htab
      rw [hspaces, List.length_replicate] at hnext
      refine ⟨?_, fun position hfrom hto => ?_⟩
      · rw [hnext]
        simp only [tabStop]
        omega
      · obtain ⟨inside, rfl⟩ := Nat.exists_eq_add_of_le hfrom
        have hinside : inside < tabStop - column % tabStop := by omega
        rw [hglyphs inside (by rwa [hspaces, List.length_replicate]), hspaces,
          List.getElem?_replicate_of_lt hinside]
  · next htab =>
      split
      · next hreturn =>
          subst hreturn
          exact hnext
      · next hreturn =>
          have hone : glyphsAt column char = [if char = '\n' then ' ' else char] := by
            rw [glyphsAt, if_neg htab, if_neg hreturn]
            split <;> rfl
          rw [hone] at hnext hglyphs
          exact ⟨hnext, hglyphs 0 Nat.one_pos⟩

/-- Between two characters, a byte offset is in the column that the text in front of it is
wide; so columns follow the offsets, and each character shows in the columns from its own
offset to the next. -/
theorem columns_of_offsets (text : Text) :
    (∀ before after : Text, text = before ++ after →
      (ofText text).columnOf before.byteLength = (ofText before).width ∧
        (ofText before).glyphs <+: (ofText text).glyphs) ∧
      (∀ offset later, text.IsBoundary offset → text.IsBoundary later → offset ≤ later →
        (ofText text).columnOf offset ≤ (ofText text).columnOf later) ∧
      (ofText text).columnOf text.byteLength = (ofText text).width ∧
      ∀ (before : Text) (char : Char) (after : Text), text = before ++ char :: after →
        ∃ column next : Nat,
          (ofText text).columnOf before.byteLength = column ∧
            (ofText text).columnOf (before.byteLength + char.utf8Size) = next ∧
            (ofText text).Shows char column next := by
  refine ⟨?_, ?_, ?_, ?_⟩
  · rintro before after rfl
    exact ⟨columnOf_append before after, glyphs_isPrefix_append before after⟩
  · intro offset later hoffset hlater hle
    obtain ⟨before, between, after, rfl, rfl, hbetween⟩ := Text.exists_between hle hoffset hlater
    have hlength : later = (before ++ between).byteLength := by
      rw [Text.byteLength_append]
      omega
    rw [hlength, columnOf_append, List.append_assoc, columnOf_append, Int.ofNat_le]
    exact (glyphs_isPrefix_append before between).length_le
  · have hwhole := columnOf_append text []
    rwa [List.append_nil] at hwhole
  · rintro before char after rfl
    have hnext := columnOf_append (before ++ [char]) after
    rw [Text.byteLength_append, ← List.append_cons] at hnext
    exact ⟨_, _, columnOf_append before (char :: after), by simpa using hnext,
      shows_character before char after⟩

theorem columns_of_offsets_behind_tab :
    let expansion := ofText ['é', '\t', '\r', '日', '\n']
    ((ofText ['é', '\t', '\r']).glyphs <+: expansion.glyphs ∧
        expansion.columnOf 2 ≤ expansion.columnOf 4) ∧
      ∃ column next : Nat, expansion.columnOf 4 = column ∧ expansion.columnOf 7 = next ∧
        expansion.Shows '日' column next := by
  intro expansion
  obtain ⟨hparts, hordered, -, hshows⟩ := columns_of_offsets ['é', '\t', '\r', '日', '\n']
  exact ⟨⟨(hparts ['é', '\t', '\r'] ['日', '\n'] rfl).2,
      hordered 2 4 (by decide) (by decide) (by decide)⟩,
    hshows ['é', '\t', '\r'] '日' ['\n'] rfl⟩

end Expansion

end LinePainter
