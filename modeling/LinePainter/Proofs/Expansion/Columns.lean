import LinePainter.Expansion
import LinePainter.Proofs.Span.Motion

namespace LinePainter

namespace Text

/-- A byte offset behind the start of a text is behind the start of one of its characters. -/
theorem exists_character {text : Text} {offset : Nat} (hpos : 0 < offset)
    (hoffset : offset ≤ text.byteLength) :
    ∃ (before : Text) (char : Char) (after : Text) (inside : Nat),
      text = before ++ char :: after ∧ offset = before.byteLength + inside ∧
        0 < inside ∧ inside ≤ char.utf8Size := by
  induction text generalizing offset with
  | nil => exact absurd hoffset (Nat.not_le.mpr hpos)
  | cons char rest ih =>
      rcases Nat.lt_or_ge char.utf8Size offset with hpast | hwithin
      · rw [byteLength_cons] at hoffset
        obtain ⟨before, found, after, inside, hrest, hinside, hbounds⟩ :=
          @ih (offset - char.utf8Size) (by omega) (by omega)
        refine ⟨char :: before, found, after, inside, by rw [hrest, List.cons_append], ?_, hbounds⟩
        rw [byteLength_cons]
        omega
      · exact ⟨[], char, rest, offset, rfl, (Nat.zero_add offset).symm, hpos, hwithin⟩

end Text

namespace Expansion

/-! Where byte offsets lie among the columns. -/

theorem length_ofTextFrom (offset column : Nat) (text : Text) :
    (ofTextFrom offset column text).length = text.byteLength := by
  induction text generalizing offset column with
  | nil => rfl
  | cons char rest ih =>
      rw [ofTextFrom, ih]
      rfl

theorem origin_ofTextFrom {offset column : Nat} {text : Text} {adjustment : Adjustment}
    (hmem : adjustment ∈ (ofTextFrom offset column text).adjustments) :
    offset ≤ adjustment.origin := by
  induction text generalizing offset column with
  | nil => cases hmem
  | cons char rest ih =>
      rw [ofTextFrom] at hmem
      dsimp only at hmem
      split at hmem
      · exact Nat.le_trans (Nat.le_add_right ..) (ih hmem)
      · cases hmem with
        | head => exact Nat.le_refl _
        | tail _ hlater => exact Nat.le_trans (Nat.le_add_right ..) (ih hlater)

theorem shiftBefore_of_le {offset column limit : Nat} (text : Text) (hlimit : limit ≤ offset) :
    (ofTextFrom offset column text).shiftBefore limit = 0 := by
  have hnone : (ofTextFrom offset column text).adjustments.takeWhile (·.origin < limit) = [] := by
    cases hadjustments : (ofTextFrom offset column text).adjustments with
    | nil => rfl
    | cons adjustment rest =>
        have hmem : adjustment ∈ (ofTextFrom offset column text).adjustments := by
          rw [hadjustments]
          exact List.mem_cons_self
        have horigin := origin_ofTextFrom hmem
        rw [List.takeWhile_cons_of_neg]
        simp only [decide_eq_true_eq]
        omega
  rw [shiftBefore, hnone]
  rfl

theorem shiftBefore_cons {offset column limit : Nat} (char : Char) (rest : Text)
    (hlimit : offset < limit) :
    (ofTextFrom offset column (char :: rest)).shiftBefore limit =
      (glyphsAt column char).length - char.utf8Size +
        (ofTextFrom (offset + char.utf8Size) (column + (glyphsAt column char).length)
          rest).shiftBefore limit := by
  rw [shiftBefore, ofTextFrom]
  dsimp only
  split
  · next hdelta => rw [hdelta, Int.zero_add, shiftBefore]
  · rw [List.takeWhile_cons_of_pos (by simpa using hlimit), List.foldr_cons, shiftBefore]

theorem width_ofTextFrom_cons (offset column : Nat) (char : Char) (rest : Text) :
    (ofTextFrom offset column (char :: rest)).width =
      (glyphsAt column char).length +
        (ofTextFrom (offset + char.utf8Size) (column + (glyphsAt column char).length)
          rest).width :=
  List.length_append

theorem glyphs_ofTextFrom_append (offset column : Nat) (before after : Text) :
    (ofTextFrom offset column (before ++ after)).glyphs =
      (ofTextFrom offset column before).glyphs ++
        (ofTextFrom (offset + before.byteLength)
          (column + (ofTextFrom offset column before).width) after).glyphs := by
  induction before generalizing offset column with
  | nil => rfl
  | cons char rest ih =>
      rw [width_ofTextFrom_cons, Text.byteLength_cons, ← Nat.add_assoc, ← Nat.add_assoc]
      simp only [List.cons_append, ofTextFrom, ih, List.append_assoc]

theorem width_ofTextFrom_append (offset column : Nat) (before after : Text) :
    (ofTextFrom offset column (before ++ after)).width =
      (ofTextFrom offset column before).width +
        (ofTextFrom (offset + before.byteLength)
          (column + (ofTextFrom offset column before).width) after).width := by
  rw [width, glyphs_ofTextFrom_append, List.length_append]
  rfl

/-- Anywhere behind the start of a character, up to its end, all that it gains or loses
counts already. -/
theorem add_shiftBefore_within (offset column : Nat) (before : Text) (char : Char)
    (after : Text) {inside : Nat} (hpos : 0 < inside) (hinside : inside ≤ char.utf8Size) :
    before.byteLength +
        (ofTextFrom offset column (before ++ char :: after)).shiftBefore
          (offset + (before.byteLength + inside)) =
      (ofTextFrom offset column before).width +
        ((glyphsAt (column + (ofTextFrom offset column before).width) char).length -
          char.utf8Size : Int) := by
  -- An adjustment makes up for a character that takes another number of columns than bytes.
  induction before generalizing offset column with
  | nil =>
      rw [List.nil_append, Text.byteLength_nil, Nat.zero_add,
        shiftBefore_cons char after (Nat.lt_add_of_pos_right hpos),
        shiftBefore_of_le after (Nat.add_le_add_left hinside offset)]
      simp [ofTextFrom, width]
  | cons first rest ih =>
      have hrest := ih (offset + first.utf8Size) (column + (glyphsAt column first).length)
      have hbehind : offset < offset + (Text.byteLength (first :: rest) + inside) := by omega
      rw [List.cons_append, shiftBefore_cons first _ hbehind, width_ofTextFrom_cons,
        Text.byteLength_cons, ← Nat.add_assoc column]
      rw [Nat.add_assoc offset, ← Nat.add_assoc first.utf8Size] at hrest
      omega

theorem add_shiftBefore_le (offset column : Nat) {text : Text} {reach : Nat}
    (hreach : reach ≤ text.byteLength) :
    reach + (ofTextFrom offset column text).shiftBefore (offset + reach) ≤
      (ofTextFrom offset column text).width := by
  rcases Nat.eq_zero_or_pos reach with rfl | hpos
  · rw [Nat.add_zero, shiftBefore_of_le _ (Nat.le_refl _)]
    omega
  · obtain ⟨before, char, after, inside, rfl, rfl, hinside, hsize⟩ :=
      Text.exists_character hpos hreach
    have hshift := add_shiftBefore_within offset column before char after hinside hsize
    rw [width_ofTextFrom_append, width_ofTextFrom_cons]
    omega

theorem toColumn_of_le {reach number : Nat} (hnumber : number ≤ reach) :
    toColumn reach number = number := by
  rw [toColumn, Nat.min_eq_left (Nat.le_trans hnumber (Nat.le_max_right ..))]

theorem columnOf_le_width {text : Text} {offset : Nat} (hoffset : offset ≤ text.byteLength) :
    (ofText text).columnOf offset ≤ (ofText text).width := by
  have hbound := add_shiftBefore_le 0 0 hoffset
  rw [Nat.zero_add] at hbound
  rw [columnOf, toColumn_of_le]
  · exact hbound
  · rw [ofText, length_ofTextFrom]
    exact hoffset

end Expansion

end LinePainter
