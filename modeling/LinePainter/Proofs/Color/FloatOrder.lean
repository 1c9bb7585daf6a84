import Mathlib.Data.Prod.Lex
import Mathlib.Order.Compare

namespace LinePainter

/-! Floats that are numbers are ordered by rank: the sign comes first, then the exponent,
then the mantissa. Both zeros have the same rank. -/

open Float.Model

abbrev FloatRank := Int ×ₗ Int ×ₗ Int

namespace FloatRank

/-- Below zero, a larger exponent or mantissa ranks lower. -/
def ofUnpacked : UnpackedFloat → FloatRank
  | .infinity .negative => toLex (-2, toLex (0, 0))
  | .finite .negative mantissa exponent _ => toLex (-1, toLex (-exponent, -mantissa))
  | .zero _ => toLex (0, toLex (0, 0))
  | .finite .positive mantissa exponent _ => toLex (1, toLex (exponent, mantissa))
  | .infinity .positive => toLex (2, toLex (0, 0))
  | .notANumber => toLex (3, toLex (0, 0))

def ofFloat (value : Float) : FloatRank :=
  ofUnpacked value.toModel.unpack

theorem compare_natCast (left right : Nat) :
    compare (left : Int) right = compare left right := by
  simp only [compare, compareOfLessAndEq, Int.ofNat_lt, Int.ofNat_inj]

theorem compare_neg (left right : Int) :
    compare (-left) (-right) = (compare left right).swap := by
  rw [Int.compare_swap]
  simp only [compare, compareOfLessAndEq, Int.neg_lt_neg_iff, Int.neg_inj, eq_comm]

theorem compare_eq_some {left right : UnpackedFloat} (hleft : left.isNaN = false)
    (hright : right.isNaN = false) :
    left.compare right = some (compare (ofUnpacked left) (ofUnpacked right)) := by
  rcases left with (_ | _) | _ | _ | ⟨_ | _, mantissa, exponent, _⟩ <;>
    rcases right with (_ | _) | _ | _ | ⟨_ | _, mantissa', exponent', _⟩ <;>
    try contradiction
  case finite.negative.finite.negative =>
    show some ((compare exponent exponent').then (compare mantissa mantissa')).swap =
      some ((compare (-exponent) (-exponent')).then
        (compare (-(mantissa : Int)) (-(mantissa' : Int))))
    rw [compare_neg, compare_neg, compare_natCast, Ordering.swap_then]
  case finite.positive.finite.positive =>
    show some ((compare exponent exponent').then (compare mantissa mantissa')) =
      some ((compare exponent exponent').then (compare (mantissa : Int) mantissa'))
    rw [compare_natCast]
  -- Numbers of different sign or kind are told apart by the first component.
  all_goals rfl

variable {left right : Float}

theorem lt_iff (hleft : left.isNaN = false) (hright : right.isNaN = false) :
    left < right ↔ ofFloat left < ofFloat right := by
  have hmodel : left < right ↔
      (left.toModel.unpack.compare right.toModel.unpack == some .lt) = true :=
    decide_eq_true_iff
  rw [hmodel, compare_eq_some hleft hright, beq_iff_eq, Option.some_inj, compare_lt_iff_lt,
    ofFloat, ofFloat]

theorem le_iff (hleft : left.isNaN = false) (hright : right.isNaN = false) :
    left ≤ right ↔ ofFloat left ≤ ofFloat right := by
  have hmodel : left ≤ right ↔
      (left.toModel.unpack.compare right.toModel.unpack).any (·.isLE) = true :=
    decide_eq_true_iff
  rw [hmodel, compare_eq_some hleft hright, Option.any_some, ← Ordering.ne_gt_iff_isLE]
  exact compare_le_iff_le

end FloatRank

end LinePainter
