import LinePainter.Proofs.PairTable.Growth
import LinePainter.Proofs.Palette.Reading
import LinePainter.Theme

namespace LinePainter

/-! A role's look names a pair of its theme's table. -/

/-- A named color is what its name reads as, and the fallback where it reads as nothing. -/
theorem NamedColor.resolve_cases (color : NamedColor) (palette : Palette) :
    (∃ found, palette.Reads color.name (.ok found) ∧ color.resolve palette = found) ∨
      ∃ fault, palette.Reads color.name (.error fault) ∧
        color.resolve palette = color.fallback := by
  have hreads := palette.reads_parseColor color.name
  unfold resolve
  cases hparse : palette.parseColor color.name with
  | ok found => exact .inl ⟨found, hparse ▸ hreads, rfl⟩
  | error fault => exact .inr ⟨fault, hparse ▸ hreads, rfl⟩

theorem PairTable.InUse.cook {table : PairTable} (hinUse : table.InUse) (recipe : Recipe) :
    table.Answered (table.cook recipe).1.pair (table.cook recipe).2 := by
  cases recipe with
  | styleOnly style => exact ⟨hinUse, .refl table, hinUse.size_pos⟩
  | base foreground background style => exact hinUse.answer (.indexed foreground background)
  | body style => exact hinUse.answer (.indexed .white .black)
  | named foreground background =>
      exact hinUse.answer
        (.matched (foreground.resolve table.palette) (some (background.resolve table.palette)))

namespace Theme

def answer (theme : Theme) : PairRequest → PairId × Theme
  | .indexed foreground background => theme.request foreground background
  | .matched foreground background => theme.requestColors foreground background

theorem pairs_answer (theme : Theme) (request : PairRequest) :
    (theme.answer request).2 = { theme with pairs := (theme.pairs.answer request).2 } := by
  cases request <;> rfl

structure Ready (theme : Theme) : Prop where
  inUse : theme.pairs.InUse
  look_lt : ∀ role, (theme.look role).pair < theme.pairs.size

theorem Ready.grow {theme : Theme} (hready : theme.Ready) {pairs : PairTable}
    (hinUse : pairs.InUse) (hgrows : theme.pairs.Extends pairs) :
    Ready { theme with pairs } where
  inUse := hinUse
  look_lt role := Nat.lt_of_lt_of_le (hready.look_lt role) hgrows.size_le

theorem look_assign (theme : Theme) (role other : Role) :
    (theme.assign role).look other =
      if role.index.val = other.index.val then (theme.pairs.cook role.recipe).1
      else theme.look other :=
  Vector.getElem_set role.index.isLt other.index.isLt

theorem Ready.assign {theme : Theme} (hready : theme.Ready) (role : Role) :
    (theme.assign role).Ready := by
  have hcooked := hready.inUse.cook role.recipe
  refine ⟨hcooked.inUse, fun other => ?_⟩
  rw [look_assign]
  split
  · exact hcooked.pair_lt
  · exact (hready.grow hcooked.inUse hcooked.grows).look_lt other

theorem Ready.foldl_assign {theme : Theme} (hready : theme.Ready) (roles : List Role) :
    (roles.foldl Theme.assign theme).Ready := by
  induction roles generalizing theme with
  | nil => exact hready
  | cons role rest ih => exact ih (hready.assign role)

theorem ready_build (palette : Palette) (capabilities : Capabilities)
    (settings : ColorSettings) : (build palette capabilities settings).Ready := by
  have hinUse := (PairTable.follows_reserve palette capabilities settings).inUse
  apply Ready.foldl_assign
  refine ⟨hinUse, fun role => ?_⟩
  have hplain : Theme.look
      { pairs := PairTable.reserve palette capabilities settings
        looks := Vector.replicate Role.count Look.plain } role = Look.plain :=
    Vector.getElem_replicate ..
  rw [hplain]
  exact hinUse.size_pos

end Theme

end LinePainter
