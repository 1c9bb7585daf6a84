import LinePainter.Palette.Basic

namespace LinePainter

/-! Searching for the nearest color finds a listed one, and a base color where only
those are looked at. -/

/-- What a scan ends with is what it began with or something it met. -/
theorem foldl_eq_some_cases {element key : Type}
    {step : Option (element × key) → element → Option (element × key)}
    (hstep : ∀ best candidate kept, step best candidate = some kept →
      best = some kept ∨ kept.1 = candidate)
    {elements : List element} {best : Option (element × key)} {kept : element × key}
    (hkept : elements.foldl step best = some kept) :
    best = some kept ∨ kept.1 ∈ elements := by
  induction elements generalizing best with
  | nil => exact .inl hkept
  | cons candidate rest ih =>
      rcases ih hkept with hfirst | hrest
      · rcases hstep best candidate kept hfirst with hbest | rfl
        · exact .inl hbest
        · exact .inr (List.mem_cons_self ..)
      · exact .inr (List.mem_cons_of_mem _ hrest)

theorem mem_of_firstLeast?_eq_some {element key : Type} {closer : key → key → Bool}
    {keyOf : element → key} {elements : List element} {found : element}
    (hfound : firstLeast? closer keyOf elements = some found) : found ∈ elements := by
  obtain ⟨kept, hfold, rfl⟩ := Option.map_eq_some_iff.mp hfound
  suffices hcases : none = some kept ∨ kept.1 ∈ elements by
    rcases hcases with hnone | hmem
    · cases hnone
    · exact hmem
  refine foldl_eq_some_cases ?_ hfold
  intro best candidate kept hkept
  cases best with
  | none => exact .inr (by cases hkept; rfl)
  | some best =>
      dsimp only at hkept
      split at hkept
      · exact .inr (by cases hkept; rfl)
      · exact .inl hkept

theorem reduceToBase_isBase (entries : List PaletteEntry) (id : ColorId) :
    (reduceToBase entries id).IsBase := by
  unfold reduceToBase
  split
  · assumption
  · dsimp only
    split
    · next entry hnearest =>
        have hmem := mem_of_firstLeast?_eq_some hnearest
        exact of_decide_eq_true (List.mem_filter.mp hmem).2
    · decide

namespace Palette

theorem nearestBase_eq (palette : Palette) (id : ColorId) :
    palette.nearestBase id = reduceToBase palette.entries id := by
  unfold nearestBase
  rw [palette.reduction_eq]
  simp

theorem nearestBase_isBase (palette : Palette) (id : ColorId) :
    (palette.nearestBase id).IsBase := by
  rw [nearestBase_eq]
  exact reduceToBase_isBase palette.entries id

theorem nearestBase_of_isBase (palette : Palette) {id : ColorId} (hbase : id.IsBase) :
    palette.nearestBase id = id := by
  rw [nearestBase_eq]
  exact if_pos hbase

end Palette

end LinePainter
