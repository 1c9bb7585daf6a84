import Mathlib.Algebra.Order.Ring.Int
import LinePainter.Proofs.Expansion.Offsets

namespace LinePainter

namespace Text

/-- One byte into a character of four bytes with nothing but carriage returns in front. -/
def LeftmostAt (text : Text) (offset : Nat) : Prop :=
  ∃ (returns : Nat) (char : Char) (after : Text),
    text = List.replicate returns '\r' ++ char :: after ∧ char.utf8Size = 4 ∧
      offset = returns + 1

theorem not_leftmostAt_zero (text : Text) : ¬ text.LeftmostAt 0 := by
  rintro ⟨returns, char, after, -, -, hzero⟩
  exact Nat.succ_ne_zero returns hzero.symm

end Text

namespace Expansion

/-! How far columns reach. A character takes at most seven columns more than bytes and at
most three less, so no sum of gains and losses is large; and no offset of a text is more
than two columns left of its first one. -/

theorem length_glyphsAt_le (column : Nat) (char : Char) :
    (glyphsAt column char).length ≤ tabStop := by
  unfold glyphsAt
  split
  · rw [List.length_replicate]
    exact Nat.sub_le ..
  · split
    · exact Nat.zero_le _
    · split <;> exact Nat.succ_le_succ (Nat.zero_le _)

theorem length_glyphsAt_eq_zero_iff {column : Nat} {char : Char} :
    (glyphsAt column char).length = 0 ↔ char = '\r' := by
  unfold glyphsAt
  split
  · next htab =>
      have hshort : column % tabStop < tabStop := Nat.mod_lt _ (by decide)
      rw [List.length_replicate, htab]
      refine iff_of_false (fun hnone => ?_) (by decide)
      omega
  · split
    · next hreturn => exact iff_of_true rfl hreturn
    · next hreturn =>
        refine iff_of_false ?_ hreturn
        split <;> exact Nat.one_ne_zero

/-- Only characters of one byte take no column or several. -/
theorem length_glyphsAt_of_wide (column : Nat) {char : Char} (hwide : 1 < char.utf8Size) :
    (glyphsAt column char).length = 1 := by
  have hother (ascii : Char) (hascii : ascii.utf8Size = 1) : char ≠ ascii := by
    rintro rfl
    omega
  rw [glyphsAt, if_neg (hother '\t' rfl), if_neg (hother '\r' rfl), if_neg (hother '\n' rfl)]
  rfl

theorem delta_bounds {offset column : Nat} {text : Text} {adjustment : Adjustment}
    (hmem : adjustment ∈ (ofTextFrom offset column text).adjustments) :
    -3 ≤ adjustment.delta ∧ adjustment.delta ≤ 7 := by
  induction text generalizing offset column with
  | nil => cases hmem
  | cons char rest ih =>
      have hpos := char.utf8Size_pos
      have hsize := char.utf8Size_le_four
      have hlength : (glyphsAt column char).length ≤ 8 := length_glyphsAt_le column char
      have hone := @length_glyphsAt_of_wide column char
      rw [ofTextFrom] at hmem
      dsimp only at hmem
      split at hmem
      · exact ih hmem
      · cases hmem with
        | head =>
            dsimp only
            omega
        | tail _ hlater => exact ih hlater

theorem length_adjustments_le (offset column : Nat) (text : Text) :
    (ofTextFrom offset column text).adjustments.length ≤ text.byteLength := by
  induction text generalizing offset column with
  | nil => exact Nat.le_refl 0
  | cons char rest ih =>
      have hpos := char.utf8Size_pos
      have hrest := ih (offset + char.utf8Size) (column + (glyphsAt column char).length)
      rw [ofTextFrom, Text.byteLength_cons]
      dsimp only
      split
      · omega
      · rw [List.length_cons]
        omega

theorem width_le (offset column : Nat) (text : Text) :
    (ofTextFrom offset column text).width ≤ tabStop * text.byteLength := by
  induction text generalizing offset column with
  | nil => exact Nat.le_refl 0
  | cons char rest ih =>
      have hpos := char.utf8Size_pos
      have hlength := length_glyphsAt_le column char
      have hrest := ih (offset + char.utf8Size) (column + (glyphsAt column char).length)
      rw [width_ofTextFrom_cons, Text.byteLength_cons]
      simp only [tabStop] at hlength hrest ⊢
      omega

theorem sum_delta_bounds {adjustments : List Adjustment}
    (hdelta : ∀ adjustment ∈ adjustments, -3 ≤ adjustment.delta ∧ adjustment.delta ≤ 7) :
    -3 * (adjustments.length : Int) ≤ (adjustments.map (·.delta)).sum ∧
      (adjustments.map (·.delta)).sum ≤ 7 * (adjustments.length : Int) := by
  induction adjustments with
  | nil => exact ⟨Int.le_refl 0, Int.le_refl 0⟩
  | cons adjustment rest ih =>
      obtain ⟨hfirst, hrest⟩ := List.forall_mem_cons.mp hdelta
      have hsum := ih hrest
      rw [List.map_cons, List.sum_cons, List.length_cons]
      omega

/-- The gains and losses of a text, added up from its start to any place. -/
theorem sum_prefix_bounds {text : Text} {front : List Adjustment}
    (hfront : front <+: (ofText text).adjustments) :
    -3 * (text.byteLength : Int) ≤ (front.map (·.delta)).sum ∧
      (front.map (·.delta)).sum ≤ 7 * (text.byteLength : Int) := by
  have hsum := sum_delta_bounds fun adjustment hmem => delta_bounds (hfront.mem hmem)
  have hlength := Nat.le_trans hfront.length_le (length_adjustments_le 0 0 text)
  omega

theorem shiftBefore_eq_sum (expansion : Expansion) (offset : Nat) :
    expansion.shiftBefore offset =
      ((expansion.adjustments.takeWhile (·.origin < offset)).map (·.delta)).sum := by
  rw [shiftBefore, List.sum_eq_foldr, List.foldr_map]

theorem columnOf_within (before : Text) (char : Char) (after : Text) {inside : Nat}
    (hpos : 0 < inside) (hinside : inside ≤ char.utf8Size) :
    (ofText (before ++ char :: after)).columnOf (before.byteLength + inside) =
      (ofText before).width + inside +
        ((glyphsAt (ofText before).width char).length - char.utf8Size : Int) := by
  have hshift := add_shiftBefore_within 0 0 before char after hpos hinside
  rw [Nat.zero_add, Nat.zero_add] at hshift
  rw [columnOf, toColumn_of_le]
  · simp only [ofText] at hshift ⊢
    omega
  · rw [ofText, length_ofTextFrom, Text.byteLength_append, Text.byteLength_cons]
    omega

theorem width_eq_zero_iff {offset column : Nat} {text : Text} :
    (ofTextFrom offset column text).width = 0 ↔ ∀ char ∈ text, char = '\r' := by
  induction text generalizing offset column with
  | nil => exact iff_of_true rfl fun char hchar => nomatch hchar
  | cons char rest ih =>
      rw [width_ofTextFrom_cons, Nat.add_eq_zero_iff, length_glyphsAt_eq_zero_iff, ih,
        List.forall_mem_cons]

theorem columnOf_zero (expansion : Expansion) : expansion.columnOf 0 = 0 := by
  have hnone : expansion.adjustments.takeWhile (·.origin < 0) = [] := by
    cases expansion.adjustments with
    | nil => rfl
    | cons adjustment rest => rfl
  rw [columnOf, shiftBefore, hnone, toColumn, Nat.zero_min]
  rfl

theorem columnOf_within_bounds (before : Text) (char : Char) (after : Text)
    {inside : Nat} (hpos : 0 < inside) (hinside : inside ≤ char.utf8Size) :
    -2 ≤ (ofText (before ++ char :: after)).columnOf (before.byteLength + inside) ∧
      ((ofText (before ++ char :: after)).columnOf (before.byteLength + inside) = -2 ↔
        (∀ other ∈ before, other = '\r') ∧ char.utf8Size = 4 ∧ inside = 1) := by
  have hone := @length_glyphsAt_of_wide (ofText before).width char
  have hfour := char.utf8Size_le_four
  rw [columnOf_within before char after hpos hinside,
    ← @width_eq_zero_iff 0 0 before, ← ofText]
  omega

theorem columnOf_of_leftmostAt {text : Text} {offset : Nat} (hleftmost : text.LeftmostAt offset) :
    (ofText text).columnOf offset = -2 := by
  obtain ⟨returns, char, after, rfl, hfour, rfl⟩ := hleftmost
  have hinside : 1 ≤ char.utf8Size := by omega
  have hcolumn := (columnOf_within_bounds (List.replicate returns '\r') char after
    Nat.one_pos hinside).2.mpr ⟨fun _ => List.eq_of_mem_replicate, hfour, rfl⟩
  have hreturns : Text.byteLength (List.replicate returns '\r') = returns := by
    rw [Text.byteLength_replicate]
    exact Nat.mul_one returns
  rwa [hreturns] at hcolumn

/-- No offset of a text is more than two columns left of the first one, and two left of it
are only those one byte into a character of four bytes. -/
theorem columnOf_leftmost {text : Text} {offset : Nat}
    (hoffset : offset ≤ text.byteLength) :
    -2 ≤ (ofText text).columnOf offset ∧
      ((ofText text).columnOf offset = -2 ↔ text.LeftmostAt offset) := by
  rcases Nat.eq_zero_or_pos offset with rfl | hpos
  · rw [columnOf_zero]
    refine ⟨by decide, fun hcolumn => absurd hcolumn (by decide), fun hleftmost => ?_⟩
    rw [← columnOf_of_leftmostAt hleftmost, columnOf_zero]
  · obtain ⟨before, char, after, inside, rfl, rfl, hinside, hsize⟩ :=
      Text.exists_character hpos hoffset
    obtain ⟨hleast, hcolumn⟩ :=
      columnOf_within_bounds before char after hinside hsize
    refine ⟨hleast, fun htwo => ?_, columnOf_of_leftmostAt⟩
    obtain ⟨hreturns, hfour, rfl⟩ := hcolumn.mp htwo
    have hbefore := List.eq_replicate_of_mem hreturns
    refine ⟨before.length, char, after, by rw [← hbefore], hfour, ?_⟩
    rw [hbefore, Text.byteLength_replicate, List.length_replicate]
    exact congrArg (· + 1) (Nat.mul_one _)

end Expansion

end LinePainter
