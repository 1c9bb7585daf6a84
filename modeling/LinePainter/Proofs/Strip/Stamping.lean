import LinePainter.Proofs.Expansion.Columns
import LinePainter.Proofs.Line.Edits
import LinePainter.Proofs.Line.StampOrder

namespace LinePainter

/-! What is left on one column after all stamps, read off the directives that cover it. -/

namespace Style

/-- Styles on top of each other. A flag is up if it is up in any of them, but reversing
an even number of times is not reversing. -/
def stack (styles : List Style) : Style where
  bold := styles.any (·.bold)
  dim := styles.any (·.dim)
  italic := styles.any (·.italic)
  underline := styles.any (·.underline)
  blink := styles.any (·.blink)
  reverse := styles.countP (·.reverse) % 2 = 1
  hidden := styles.any (·.hidden)
  standout := styles.any (·.standout)

theorem stack_singleton (style : Style) : stack [style] = style := by
  obtain ⟨bold, dim, italic, underline, blink, reverse, hidden, standout⟩ := style
  cases reverse <;> simp [stack]

theorem stack_overlay (below above : Style) (rest : List Style) :
    stack (below.overlay above :: rest) = stack (below :: above :: rest) := by
  have hparity : (decide ((below.overlay above :: rest).countP (·.reverse) % 2 = 1)) =
      decide ((below :: above :: rest).countP (·.reverse) % 2 = 1) := by
    rw [List.countP_cons, List.countP_cons, List.countP_cons]
    have hreverse : (below.overlay above).reverse = (below.reverse != above.reverse) := rfl
    rw [hreverse]
    cases below.reverse with
    | false => cases above.reverse <;> rfl
    | true =>
        cases above.reverse with
        | false => rfl
        | true =>
            rw [decide_eq_decide]
            simp only [bne_self_eq_false, Bool.false_eq_true, if_false, if_true]
            omega
  simp only [stack, hparity, List.any_cons, ← Bool.or_assoc]
  rfl

end Style

namespace Directive

def look? : Directive → Option Look
  | style look => some look
  | _ => none

def graphic? : Directive → Option Char
  | graphic glyph => some glyph
  | _ => none

def foreground? : Directive → Option ColorId
  | foreground color => some color
  | _ => none

def background? : Directive → Option ColorId
  | background color => some color
  | _ => none

/-- The pair that a look brings along, if it is not pair 0. -/
def pair? : Directive → Option PairId
  | style look => if look.pair = 0 then none else some look.pair
  | _ => none

def isInk (directive : Directive) : Bool :=
  directive.foreground?.isSome || directive.background?.isSome

section

variable (directives : List Directive) (column : Column)

/-- What every directive either replaces or leaves alone is in the end what the last
directive made of it that did replace it. -/
theorem foldl_stamp_of_replaces {value : Type} (read : Column → Option value)
    (replace : Directive → Option value)
    (hstamp : ∀ column directive,
      read (stamp column directive) = (replace directive).or (read column)) :
    read (directives.foldl stamp column) =
      (directives.filterMap replace).getLast?.or (read column) := by
  induction directives generalizing column with
  | nil => rfl
  | cons directive rest ih =>
      rw [List.foldl_cons, ih, hstamp, List.filterMap_cons]
      cases replace directive with
      | none => rfl
      | some value =>
          dsimp only
          rw [List.getLast?_cons]
          cases (rest.filterMap replace).getLast? <;> rfl

theorem foldl_stamp_of_overwrites {value : Type} (read : Column → value)
    (replace : Directive → Option value)
    (hstamp : ∀ column directive,
      read (stamp column directive) = (replace directive).getD (read column)) :
    read (directives.foldl stamp column) =
      (directives.filterMap replace).getLast?.getD (read column) := by
  have hread := foldl_stamp_of_replaces directives column (fun column => some (read column))
    replace (by
      intro column directive
      rw [hstamp]
      cases replace directive <;> rfl)
  apply Option.some.inj
  rw [hread]
  cases (directives.filterMap replace).getLast? <;> rfl

theorem foreground_foldl_stamp :
    (directives.foldl stamp column).foreground =
      (directives.filterMap foreground?).getLast?.or column.foreground := by
  apply foldl_stamp_of_replaces directives column (·.foreground)
  intro column directive
  cases directive <;> rfl

theorem background_foldl_stamp :
    (directives.foldl stamp column).background =
      (directives.filterMap background?).getLast?.or column.background := by
  apply foldl_stamp_of_replaces directives column (·.background)
  intro column directive
  cases directive <;> rfl

theorem codepoint_foldl_stamp :
    (directives.foldl stamp column).cell.codepoint =
      ((directives.filterMap graphic?).getLast?.map Char.toNat).getD
        column.cell.codepoint := by
  have hread := foldl_stamp_of_overwrites directives column (·.cell.codepoint)
    (fun directive => directive.graphic?.map Char.toNat) (by
      intro column directive
      cases directive <;> rfl)
  rwa [← List.map_filterMap, List.getLast?_map] at hread

theorem pair_foldl_stamp :
    (directives.foldl stamp column).cell.look.pair =
      (directives.filterMap pair?).getLast?.getD column.cell.look.pair := by
  apply foldl_stamp_of_overwrites directives column (·.cell.look.pair)
  intro column directive
  cases directive with
  | style look =>
      simp only [stamp, Look.overlay, pair?]
      split <;> rfl
  | _ => rfl

theorem style_foldl_stamp :
    (directives.foldl stamp column).cell.look.style =
      Style.stack (column.cell.look.style ::
        (directives.filterMap look?).map (·.style)) := by
  induction directives generalizing column with
  | nil => exact (Style.stack_singleton _).symm
  | cons directive rest ih =>
      rw [List.foldl_cons, ih]
      cases directive with
      | style look => exact Style.stack_overlay ..
      | _ => rfl

end

end Directive

end LinePainter
