import LinePainter.Proofs.Color.FloatOrder
import LinePainter.Proofs.PairTable.ListModel

namespace LinePainter

/-! The nearest color is the earliest of those that no other is nearer than. The same holds
among the base colors a palette lists, and a palette without any is reduced to white. -/

/-- `found` is the first of the elements that rank lowest. -/
def FirstLowest {element order : Type} [LinearOrder order] (rank : element → order)
    (elements : List element) (found : element) : Prop :=
  ∃ before after, elements = before ++ found :: after ∧
    (∀ other ∈ elements, rank found ≤ rank other) ∧
    ∀ earlier ∈ before, rank found < rank earlier

namespace FirstLowest

variable {element order : Type} [LinearOrder order] {rank : element → order}
  {elements : List element} {found : element}

theorem singleton (found : element) : FirstLowest rank [found] found :=
  ⟨[], [], rfl, by simp, by simp⟩

theorem mem (hfound : FirstLowest rank elements found) : found ∈ elements := by
  obtain ⟨before, after, rfl, -⟩ := hfound
  exact List.mem_append_right _ (List.mem_cons_self ..)

/-- A later element takes over only if it ranks lower. -/
theorem concat (hfound : FirstLowest rank elements found) (candidate : element) :
    FirstLowest rank (elements ++ [candidate])
      (if rank candidate < rank found then candidate else found) := by
  obtain ⟨before, after, rfl, hlowest, hfirst⟩ := hfound
  split
  · next hlower =>
      have hbelow : ∀ other ∈ before ++ found :: after, rank candidate < rank other :=
        fun other hother => lt_of_lt_of_le hlower (hlowest other hother)
      refine ⟨before ++ found :: after, [], rfl, ?_, hbelow⟩
      rw [List.forall_mem_append, List.forall_mem_singleton]
      exact ⟨fun other hother => (hbelow other hother).le, le_rfl⟩
  · next hnotLower =>
      refine ⟨before, after ++ [candidate], by simp, ?_, hfirst⟩
      rw [List.forall_mem_append, List.forall_mem_singleton]
      exact ⟨hlowest, le_of_not_gt hnotLower⟩

theorem unique (hfound : FirstLowest rank elements found) {other : element}
    (hother : FirstLowest rank elements other) : found = other := by
  have hfoundMem := hfound.mem
  have hotherMem := hother.mem
  obtain ⟨before, after, heq, hlowest, hfirst⟩ := hfound
  obtain ⟨before', after', heq', hlowest', hfirst'⟩ := hother
  rcases List.append_eq_append_iff.mp (heq.symm.trans heq') with
    ⟨between, hbefore', hrest⟩ | ⟨between, hbefore, hrest⟩
  · cases between with
    | nil => exact (List.cons.inj hrest).1
    | cons _ _ =>
        obtain rfl := (List.cons.inj hrest).1
        exact absurd (hfirst' found (by simp [hbefore'])) (hlowest other hotherMem).not_gt
  · cases between with
    | nil => exact (List.cons.inj hrest).1.symm
    | cons _ _ =>
        obtain rfl := (List.cons.inj hrest).1
        exact absurd (hfirst other (by simp [hbefore])) (hlowest' found hfoundMem).not_gt

theorem of_map {source : Type} {view : source → element} {sources : List source}
    (hfound : FirstLowest rank (sources.map view) found) :
    ∃ origin, view origin = found ∧
      FirstLowest (fun other => rank (view other)) sources origin := by
  obtain ⟨before, after, heq, hlowest, hfirst⟩ := hfound
  obtain ⟨before, rest, rfl, rfl, hrest⟩ := List.map_eq_append_iff.mp heq
  obtain ⟨origin, after, rfl, rfl, rfl⟩ := List.map_eq_cons_iff.mp hrest
  rw [List.forall_mem_map] at hlowest hfirst
  exact ⟨origin, rfl, before, after, rfl, hlowest, hfirst⟩

end FirstLowest

section Scan

variable {element key order : Type} [LinearOrder order] {closer : key → key → Bool}
  {keyOf : element → key} {rank : element → order} {elements : List element}

/-- One step of the scan. -/
def keepLeast (closer : key → key → Bool) (keyOf : element → key)
    (best : Option (element × key)) (candidate : element) : Option (element × key) :=
  match best with
  | some (_, leastKey) =>
      if closer (keyOf candidate) leastKey then some (candidate, keyOf candidate) else best
  | none => some (candidate, keyOf candidate)

theorem firstLeast?_eq_foldl :
    firstLeast? closer keyOf elements =
      (elements.foldl (keepLeast closer keyOf) none).map Prod.fst :=
  rfl

theorem keepLeast_some {found candidate : element}
    (hcloser : closer (keyOf candidate) (keyOf found) = true ↔ rank candidate < rank found) :
    let kept := if rank candidate < rank found then candidate else found
    keepLeast closer keyOf (some (found, keyOf found)) candidate = some (kept, keyOf kept) := by
  rw [keepLeast]
  by_cases hlower : rank candidate < rank found
  · simp only [if_pos (hcloser.mpr hlower), if_pos hlower]
  · simp only [if_neg (mt hcloser.mp hlower), if_neg hlower]

theorem exists_foldl_keepLeast
    (hcloser : ∀ left ∈ elements, ∀ right ∈ elements,
      closer (keyOf left) (keyOf right) = true ↔ rank left < rank right)
    (hsome : elements ≠ []) :
    ∃ found, elements.foldl (keepLeast closer keyOf) none = some (found, keyOf found) ∧
      FirstLowest rank elements found := by
  induction elements using List.reverseRecOn with
  | nil => exact absurd rfl hsome
  | append_singleton seen candidate ih =>
      rw [List.foldl_append]
      by_cases hseen : seen = []
      · subst hseen
        exact ⟨candidate, rfl, .singleton candidate⟩
      · obtain ⟨found, hfold, hfound⟩ := ih
          (fun left hleft right hright => hcloser left (List.mem_append_left _ hleft) right
            (List.mem_append_left _ hright)) hseen
        have hmem : found ∈ seen ++ [candidate] := List.mem_append_left _ hfound.mem
        rw [hfold]
        exact ⟨_, keepLeast_some (hcloser candidate (by simp) found hmem),
          hfound.concat candidate⟩

/-- A scan whose comparison agrees with a rank finds the first element that ranks lowest. -/
theorem exists_firstLeast?
    (hcloser : ∀ left ∈ elements, ∀ right ∈ elements,
      closer (keyOf left) (keyOf right) = true ↔ rank left < rank right)
    (hsome : elements ≠ []) :
    ∃ found, firstLeast? closer keyOf elements = some found ∧
      FirstLowest rank elements found := by
  obtain ⟨found, hfold, hfound⟩ := exists_foldl_keepLeast hcloser hsome
  exact ⟨found, by rw [firstLeast?_eq_foldl, hfold, Option.map_some], hfound⟩

end Scan

namespace PaletteRow

/-- The distance of `target` from the row's color, whose chroma weights it. -/
def distance (row : PaletteRow) (target : Rgb) : Float :=
  (Lab.ofRgb row.rgb).distance (Lab.ofRgb target)

end PaletteRow

/-- The distances of `target` from the rows are all numbers. -/
def Measurable (rows : List PaletteRow) (target : Rgb) : Prop :=
  ∀ row ∈ rows, (row.distance target).isNaN = false

/-- `found` is the earliest of the rows whose distance is not larger than any other. -/
def FirstNearest (rows : List PaletteRow) (target : Rgb) (found : PaletteRow) : Prop :=
  ∃ before after, rows = before ++ found :: after ∧
    (∀ row ∈ rows, found.distance target ≤ row.distance target) ∧
    ∀ earlier ∈ before, found.distance target < earlier.distance target

/-- The color that stands for an id: that of its row, or that of the layout if no row
has the id. -/
def shownColor (rows : List PaletteRow) (id : ColorId) : Rgb :=
  match rows.find? (·.id = id) with
  | some row => row.rgb
  | none => id.toRgb

/-- What an id is reduced to when base colors are all there is. -/
inductive ReducesTo (rows : List PaletteRow) (id : ColorId) : ColorId → Prop where
  | kept (hbase : id.IsBase) : ReducesTo rows id id
  | nearest {found : PaletteRow} (hbeyond : ¬ id.IsBase)
      (hfound : FirstNearest (rows.filter (·.id.IsBase)) (shownColor rows id) found) :
      ReducesTo rows id found.id
  | white (hbeyond : ¬ id.IsBase) (hnone : ∀ row ∈ rows, ¬ row.id.IsBase) :
      ReducesTo rows id .white

variable {rows : List PaletteRow} {target : Rgb}

theorem firstNearest_iff (hmeasurable : Measurable rows target) {found : PaletteRow} :
    FirstNearest rows target found ↔
      FirstLowest (fun row => FloatRank.ofFloat (row.distance target)) rows found := by
  refine exists_congr fun before => exists_congr fun after => and_congr_right fun heq => ?_
  have hnumber : (found.distance target).isNaN = false := hmeasurable found (by simp [heq])
  refine and_congr (forall₂_congr fun row hrow => ?_) (forall₂_congr fun earlier hearlier => ?_)
  · exact FloatRank.le_iff hnumber (hmeasurable row hrow)
  · exact FloatRank.lt_iff hnumber (hmeasurable earlier (by simp [heq, hearlier]))

theorem exists_firstNearest (hmeasurable : Measurable rows target) (hsome : rows ≠ []) :
    ∃ found, nearestEntry? (rows.map PaletteRow.measure) (Lab.ofRgb target) =
        some found.measure ∧ FirstNearest rows target found := by
  have hscan : ∃ entry, nearestEntry? (rows.map PaletteRow.measure) (Lab.ofRgb target) =
        some entry ∧
      FirstLowest (fun entry => FloatRank.ofFloat (entry.lab.distance (Lab.ofRgb target)))
        (rows.map PaletteRow.measure) entry := by
    refine exists_firstLeast? ?_ (mt List.map_eq_nil_iff.mp hsome)
    simp only [List.forall_mem_map, decide_eq_true_iff]
    exact fun left hleft right hright =>
      FloatRank.lt_iff (hmeasurable left hleft) (hmeasurable right hright)
  obtain ⟨entry, hnearest, hentry⟩ := hscan
  obtain ⟨found, rfl, hfound⟩ := hentry.of_map
  exact ⟨found, hnearest, (firstNearest_iff hmeasurable).mpr hfound⟩

theorem FirstNearest.unique (hmeasurable : Measurable rows target) {found other : PaletteRow}
    (hfound : FirstNearest rows target found) (hother : FirstNearest rows target other) :
    found = other :=
  ((firstNearest_iff hmeasurable).mp hfound).unique ((firstNearest_iff hmeasurable).mp hother)

theorem FirstNearest.mem {found : PaletteRow} (hfound : FirstNearest rows target found) :
    found ∈ rows := by
  obtain ⟨before, after, rfl, -⟩ := hfound
  exact List.mem_append_right _ (List.mem_cons_self ..)

variable {id : ColorId}

theorem reduceToBase_measure (rows : List PaletteRow) (id : ColorId) :
    reduceToBase (rows.map PaletteRow.measure) id =
      if id.IsBase then id
      else
        (( nearestEntry? ((rows.filter (·.id.IsBase)).map PaletteRow.measure)
          (Lab.ofRgb (shownColor rows id))).map (·.id)).getD .white := by
  have hlisted : (rows.map PaletteRow.measure).filter (·.id.IsBase) =
      (rows.filter (·.id.IsBase)).map PaletteRow.measure :=
    List.filter_map
  have hshown : (rows.map PaletteRow.measure).find? (·.id = id) =
      (rows.find? (·.id = id)).map PaletteRow.measure :=
    List.find?_map
  have hlab (row : PaletteRow) : row.measure.lab = Lab.ofRgb row.rgb := rfl
  rw [reduceToBase, shownColor, hlisted, hshown]
  split
  · rfl
  · cases rows.find? (·.id = id) <;> simp only [Option.map_some, Option.map_none, hlab]
    all_goals
      split
      all_goals
        next hnearest =>
          rw [hnearest]
          rfl

theorem reducesTo_reduceToBase
    (hmeasurable : Measurable (rows.filter (·.id.IsBase)) (shownColor rows id)) :
    ReducesTo rows id (reduceToBase (rows.map PaletteRow.measure) id) := by
  rw [reduceToBase_measure]
  split
  · next hbase => exact .kept hbase
  · next hbeyond =>
      by_cases hnone : rows.filter (·.id.IsBase) = []
      · rw [hnone]
        exact .white hbeyond (by simpa using hnone)
      · obtain ⟨found, hnearest, hfound⟩ := exists_firstNearest hmeasurable hnone
        rw [hnearest]
        exact .nearest hbeyond hfound

theorem ReducesTo.unique
    (hmeasurable : Measurable (rows.filter (·.id.IsBase)) (shownColor rows id))
    {base other : ColorId} (hbase : ReducesTo rows id base) (hother : ReducesTo rows id other) :
    base = other := by
  have hlisted {found : PaletteRow}
      (hfound : FirstNearest (rows.filter (·.id.IsBase)) (shownColor rows id) found)
      (hnone : ∀ row ∈ rows, ¬ row.id.IsBase) : False := by
    have hmem := List.mem_filter.mp hfound.mem
    exact hnone found hmem.1 (of_decide_eq_true hmem.2)
  cases hbase with
  | kept hbase =>
      cases hother with
      | kept _ => rfl
      | nearest hbeyond _ => exact absurd hbase hbeyond
      | white hbeyond _ => exact absurd hbase hbeyond
  | nearest hbeyond hfound =>
      cases hother with
      | kept hbase => exact absurd hbase hbeyond
      | nearest _ hfound' => rw [hfound.unique hmeasurable hfound']
      | white _ hnone => exact (hlisted hfound hnone).elim
  | white hbeyond hnone =>
      cases hother with
      | kept hbase => exact absurd hbase hbeyond
      | nearest _ hfound => exact (hlisted hfound hnone).elim
      | white _ _ => rfl

namespace Palette

variable {palette : Palette}

theorem entries_of_ofRows (hpalette : ofRows rows = .ok palette) :
    rows ≠ [] ∧ palette.entries = rows.map PaletteRow.measure := by
  unfold ofRows at hpalette
  split at hpalette
  · cases hpalette
  · split at hpalette
    · cases hpalette
    · next hsome =>
        cases hpalette
        exact ⟨hsome, rfl⟩

theorem matchColor_eq_iff (hpalette : ofRows rows = .ok palette)
    (hmeasurable : Measurable rows target) :
    palette.matchColor target = id ↔
      ∃ found, FirstNearest rows target found ∧ found.id = id := by
  obtain ⟨hsome, hentries⟩ := entries_of_ofRows hpalette
  obtain ⟨found, hnearest, hfound⟩ := exists_firstNearest hmeasurable hsome
  have hmatch : palette.matchColor target = found.id := by
    rw [← hentries] at hnearest
    simp only [matchColor, hnearest, PaletteRow.id_measure]
  rw [hmatch]
  constructor
  · exact fun hid => ⟨found, hfound, hid⟩
  · rintro ⟨other, hother, rfl⟩
    rw [hfound.unique hmeasurable hother]

theorem nearestBase_eq_iff (hpalette : ofRows rows = .ok palette)
    (hmeasurable : Measurable (rows.filter (·.id.IsBase)) (shownColor rows id))
    {base : ColorId} : palette.nearestBase id = base ↔ ReducesTo rows id base := by
  have hreduced := reducesTo_reduceToBase hmeasurable
  rw [nearestBase_eq, (entries_of_ofRows hpalette).2]
  constructor
  · rintro rfl
    exact hreduced
  · exact hreduced.unique hmeasurable

/-- Matching finds the earliest nearest row of a table. Reducing finds the earliest nearest
row with a base color, is a projection onto the base colors, and no part of the base pair
of two reduced colors is cut off. -/
theorem nearest_colors_come_first (hpalette : ofRows rows = .ok palette) (color : Rgb)
    (id : ColorId) (hcolor : Measurable rows color)
    (hid : Measurable (rows.filter (·.id.IsBase)) (shownColor rows id)) :
    (∀ matched, palette.matchColor color = matched ↔
        ∃ found, FirstNearest rows color found ∧ found.id = matched) ∧
      (∀ base, palette.nearestBase id = base ↔ ReducesTo rows id base) ∧
      (∀ other, (palette.nearestBase other).IsBase ∧
        palette.nearestBase (palette.nearestBase other) = palette.nearestBase other) ∧
      ∀ table : PairTable, table.palette = palette → ∀ foreground background,
        table.nearestBasePair foreground background =
          8 * (palette.nearestBase foreground).val + (palette.nearestBase background).val := by
  refine ⟨fun _ => matchColor_eq_iff hpalette hcolor, fun _ => nearestBase_eq_iff hpalette hid,
    fun other => ?_, ?_⟩
  · have hbase := palette.nearestBase_isBase other
    exact ⟨hbase, palette.nearestBase_of_isBase hbase⟩
  · rintro table rfl foreground background
    exact table.nearestBasePair_eq_gridPair (.indexed foreground background)

/-- Two rows are equally near, and a row without a base color is nearer than both to a
color that has no row. -/
theorem nearest_colors_come_first_among_equals :
    let rows : List PaletteRow := [⟨9, "Dim", ⟨5, 5, 5⟩⟩, ⟨3, "Dusk", ⟨1, 2, 3⟩⟩,
      ⟨0, "Night", ⟨0, 0, 0⟩⟩, ⟨5, "Late dusk", ⟨1, 2, 3⟩⟩]
    ∃ palette, ofRows rows = .ok palette ∧ palette.matchColor ⟨1, 2, 3⟩ = 3 ∧
      palette.nearestBase 232 = 3 := by
  intro rows
  have hcolor : Measurable rows ⟨1, 2, 3⟩ := by
    unfold Measurable
    decide +kernel
  have hid : Measurable (rows.filter (·.id.IsBase)) (shownColor rows 232) := by
    unfold Measurable
    decide +kernel
  have hmatched : FirstNearest rows ⟨1, 2, 3⟩ ⟨3, "Dusk", ⟨1, 2, 3⟩⟩ :=
    ⟨[⟨9, "Dim", ⟨5, 5, 5⟩⟩], _, rfl, by decide +kernel, by decide +kernel⟩
  have hreduced : FirstNearest (rows.filter (·.id.IsBase)) (shownColor rows 232)
      ⟨3, "Dusk", ⟨1, 2, 3⟩⟩ :=
    ⟨[], _, rfl, by decide +kernel, by decide +kernel⟩
  obtain ⟨palette, hpalette⟩ : ∃ palette, ofRows rows = .ok palette := ⟨_, rfl⟩
  obtain ⟨hmatch, hbase, -⟩ := nearest_colors_come_first hpalette ⟨1, 2, 3⟩ 232 hcolor hid
  exact ⟨palette, hpalette, (hmatch 3).mpr ⟨_, hmatched, rfl⟩,
    (hbase 3).mpr (.nearest (by decide) hreduced)⟩

end Palette

end LinePainter
