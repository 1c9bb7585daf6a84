import LinePainter.Proofs.Theme.Reloading

namespace LinePainter

/-! Every role looks as its recipe says for as long as its generation of pairs lasts, also
when the pairs run out while the roles get their looks. -/

namespace Role

theorem getElem?_all_index (role : Role) : all[role.index.val]? = some role := by
  cases role <;> rfl

theorem index_injective {role other : Role} (hindex : role.index.val = other.index.val) :
    role = other := by
  apply Option.some.inj
  rw [← getElem?_all_index, ← getElem?_all_index, hindex]

end Role

namespace Recipe

/-- The style of what is made after the recipe. Only body text can be dimmed. -/
def style (settings : ColorSettings) : Recipe → Style
  | styleOnly style => style
  | base _ _ style => style
  | body style => style.union { dim := settings.dimText }
  | named _ _ => .plain

/-- The base colors that the recipe names. Body text is white on black. -/
def baseColors? : Recipe → Option (ColorId × ColorId)
  | base foreground background _ => some (foreground, background)
  | body _ => some (.white, .black)
  | _ => none

/-- The look when the colors in `granted` have pairs of their own. -/
def lookAmong (palette : Palette) (capabilities : Capabilities) (settings : ColorSettings)
    (granted : List PairColors) (recipe : Recipe) : Look where
  style := recipe.style settings
  pair :=
    match recipe.request? palette with
    | some request => PairTable.listAnswer palette capabilities settings granted request
    | none => 0

variable {palette : Palette} {capabilities : Capabilities} {settings : ColorSettings}
  {asked : List PairColors}

theorem request?_of_baseColors? {recipe : Recipe} {foreground background : ColorId}
    (hcolors : recipe.baseColors? = some (foreground, background)) :
    recipe.request? palette = some (.indexed foreground background) := by
  cases recipe with
  | styleOnly _ => cases hcolors
  | named _ _ => cases hcolors
  | base _ _ _ => cases hcolors; rfl
  | body _ => cases hcolors; rfl

/-- Colors that were asked for keep their pair, so later requests change no look. -/
theorem lookAmong_append {recipe : Recipe}
    (hasked : ∀ request ∈ recipe.request? palette, request.colors palette settings ∈ asked)
    (more : List PairColors) :
    recipe.lookAmong palette capabilities settings (capabilities.granted (asked ++ more)) =
      recipe.lookAmong palette capabilities settings (capabilities.granted asked) := by
  unfold lookAmong
  cases hrequest : recipe.request? palette with
  | none => rfl
  | some request =>
      dsimp only
      rw [PairTable.listAnswer, PairTable.listAnswer,
        PairTable.idxOf?_granted_append (hasked request hrequest)]

end Recipe

theorem Role.isBase_of_baseColors? {role : Role} {foreground background : ColorId}
    (hcolors : role.recipe.baseColors? = some (foreground, background)) :
    foreground.IsBase ∧ background.IsBase ∧ (foreground, background) ≠ (.black, .black) := by
  cases role <;> cases hcolors <;> decide

namespace PairTable

variable {palette : Palette} {capabilities : Capabilities} {settings : ColorSettings}
  {table : PairTable} {asked : List PairColors}

theorem Follows.cook (hfollows : table.Follows palette capabilities settings asked)
    (recipe : Recipe) :
    let longer := asked ++ (recipe.request? palette).toList.map (·.colors palette settings)
    (table.cook recipe).2.Follows palette capabilities settings longer ∧
      (table.cook recipe).1 =
        recipe.lookAmong palette capabilities settings (capabilities.granted longer) := by
  intro longer
  obtain rfl := hfollows.palette_eq
  obtain rfl := hfollows.settings_eq
  cases recipe with
  | styleOnly style =>
      have hsame : longer = asked := List.append_nil _
      rw [hsame]
      exact ⟨hfollows, rfl⟩
  | base foreground background style =>
      obtain ⟨hnext, hanswer, -⟩ := hfollows.answer (.indexed foreground background)
      exact ⟨hnext, congrArg (Look.mk _) hanswer⟩
  | body style =>
      obtain ⟨hnext, hanswer, -⟩ := hfollows.answer (.indexed .white .black)
      have hcooked : (table.cook (.body style)).1 =
          ⟨style.union
              { dim := (table.answer (.indexed .white .black)).2.settings.dimText },
            (table.answer (.indexed .white .black)).1⟩ := rfl
      rw [hcooked, hnext.settings_eq, hanswer]
      exact ⟨hnext, rfl⟩
  | named foreground background =>
      obtain ⟨hnext, hanswer, -⟩ := hfollows.answer
        (.matched (foreground.resolve table.palette) (some (background.resolve table.palette)))
      exact ⟨hnext, congrArg (Look.mk _) hanswer⟩

/-! The pairs of base colors. -/

theorem Follows.colors?_basePair (hfollows : table.Follows palette capabilities settings asked)
    {foreground background : ColorId} (hforeground : foreground.IsBase)
    (hbackground : background.IsBase) (hcolored : (foreground, background) ≠ (.black, .black)) :
    table.colors? (8 * foreground.val + background.val) =
      some ⟨.indexed foreground, .indexed background⟩ := by
  have hreserves := capabilities.reserves_reservedPairs settings
  have hpos : 0 < 8 * foreground.val + background.val := by
    apply Nat.pos_of_ne_zero
    intro hzero
    have hblack (id : ColorId) (hid : id.val = 0) : id = .black := Fin.ext hid
    exact hcolored (by rw [hblack foreground (by omega), hblack background (by omega)])
  have hpair := hreserves.base_pair foreground background hforeground hbackground hpos
  obtain ⟨hplace, -⟩ := List.getElem?_eq_some_iff.mp hpair
  rw [colors?, ← Array.getElem?_toList, hfollows.pairs_eq, List.getElem?_append_left hplace,
    hpair]

/-- How a pair shows two base colors: as a pair of their own, in which with default colors
the terminal's own stand for a white foreground and a black background, or as their pair in
the grid where there is no room. -/
inductive ShowsBase (table : PairTable) (foreground background : ColorId) (pair : PairId) :
    Prop
  | own : table.tier = .dynamic → table.firstDynamic ≤ pair →
      table.colors? pair = some {
        foreground :=
          if table.settings.defaultColors = true ∧ foreground = .white then .terminalDefault
          else .indexed foreground
        background :=
          if table.settings.defaultColors = true ∧ background = .black then .terminalDefault
          else .indexed background } →
      ShowsBase table foreground background pair
  | grid : table.tier = .basic ∨ table.capabilities.colorPairs ≤ table.size →
      pair = 8 * foreground.val + background.val →
      table.colors? pair = some ⟨.indexed foreground, .indexed background⟩ →
      ShowsBase table foreground background pair

theorem Follows.showsBase (hfollows : table.Follows palette capabilities settings asked)
    {foreground background : ColorId} (hforeground : foreground.IsBase)
    (hbackground : background.IsBase) (hcolored : (foreground, background) ≠ (.black, .black))
    (hasked : (PairRequest.indexed foreground background).colors palette settings ∈ asked) :
    table.ShowsBase foreground background
      (listAnswer palette capabilities settings (capabilities.granted asked)
        (.indexed foreground background)) := by
  have hgrid := hfollows.colors?_basePair hforeground hbackground hcolored
  have hgranted := @hfollows.colors?_listAnswer _ _ _ _ _ (.indexed foreground background)
  obtain rfl := hfollows.palette_eq
  obtain rfl := hfollows.capabilities_eq
  obtain rfl := hfollows.settings_eq
  by_cases hplaced : (PairRequest.indexed foreground background).colors table.palette
      table.settings ∈ table.capabilities.granted asked
  · refine .own ?_ ?_ (hgranted hplaced)
    · cases htier : table.tier with
      | dynamic => rfl
      | basic =>
          rw [Capabilities.granted_eq_nil_of_basic htier] at hplaced
          exact absurd hplaced List.not_mem_nil
    · obtain ⟨place, hplace⟩ := Option.isSome_iff_exists.mp (List.isSome_idxOf?.mpr hplaced)
      rw [listAnswer, hplace]
      exact Nat.le_add_right ..
  · have hanswer : listAnswer table.palette table.capabilities table.settings
        (table.capabilities.granted asked) (.indexed foreground background) =
          8 * foreground.val + background.val := by
      rw [listAnswer, List.idxOf?_eq_none_iff.mpr hplaced, PairRequest.gridPair, PairRequest.ids,
        table.palette.nearestBase_of_isBase hforeground,
        table.palette.nearestBase_of_isBase hbackground]
    rw [hanswer]
    refine .grid (.inr (Nat.le_of_not_lt fun hroom => ?_)) rfl hgrid
    exact hplaced (hfollows.mem_granted hroom hasked)

end PairTable

namespace Theme

variable {theme : Theme} {palette : Palette} {capabilities : Capabilities}
  {settings : ColorSettings} {asked : List PairColors} {role other : Role}

/-- The role asked for its colors, and has the look that its recipe says since. -/
structure Placed (theme : Theme) (palette : Palette) (capabilities : Capabilities)
    (settings : ColorSettings) (asked : List PairColors) (role : Role) : Prop where
  requested : ∀ request ∈ role.recipe.request? palette, request.colors palette settings ∈ asked
  look_eq : theme.look role =
    role.recipe.lookAmong palette capabilities settings (capabilities.granted asked)

theorem Placed.later (hplaced : theme.Placed palette capabilities settings asked role)
    {after : Theme} (hlook : after.look role = theme.look role) (more : List PairColors) :
    after.Placed palette capabilities settings (asked ++ more) role where
  requested request hrequest := List.mem_append_left _ (hplaced.requested request hrequest)
  look_eq := by rw [hlook, hplaced.look_eq, Recipe.lookAmong_append hplaced.requested]

theorem placed_assign (hfollows : theme.pairs.Follows palette capabilities settings asked)
    (hplaced : other = role ∨ theme.Placed palette capabilities settings asked other) :
    let longer := asked ++ (role.recipe.request? palette).toList.map (·.colors palette settings)
    (theme.assign role).pairs.Follows palette capabilities settings longer ∧
      (theme.assign role).Placed palette capabilities settings longer other := by
  intro longer
  obtain ⟨hnext, hcooked⟩ := hfollows.cook role.recipe
  refine ⟨hnext, ?_⟩
  by_cases hsame : other = role
  · subst hsame
    refine ⟨fun request hrequest => ?_, ?_⟩
    · exact List.mem_append_right _
        (List.mem_map_of_mem (Option.mem_toList.mpr hrequest))
    · rw [look_assign, if_pos rfl, hcooked]
  · apply (hplaced.resolve_left hsame).later
    rw [look_assign, if_neg fun hindex => hsame (Role.index_injective hindex).symm]

theorem placed_foldl_assign {roles : List Role}
    (hfollows : theme.pairs.Follows palette capabilities settings asked)
    (hplaced : other ∈ roles ∨ theme.Placed palette capabilities settings asked other) :
    (roles.foldl assign theme).Placed palette capabilities settings
      (asked ++ (roles.filterMap (·.recipe.request? palette)).map (·.colors palette settings))
      other := by
  induction roles generalizing theme asked with
  | nil =>
      rw [List.filterMap_nil, List.map_nil, List.append_nil]
      exact hplaced.resolve_left List.not_mem_nil
  | cons role rest ih =>
      have hrequests : ((role :: rest).filterMap (·.recipe.request? palette)) =
          (role.recipe.request? palette).toList ++
            rest.filterMap (·.recipe.request? palette) := by
        cases hrequest : role.recipe.request? palette <;> simp [hrequest]
      rw [hrequests, List.map_append, ← List.append_assoc]
      rw [List.mem_cons, or_assoc] at hplaced
      rcases hplaced with hfirst | hlater | hplaced
      · obtain ⟨hnext, hnow⟩ := placed_assign hfollows (.inl hfirst)
        exact ih hnext (.inr hnow)
      · exact ih (hfollows.cook role.recipe).1 (.inl hlater)
      · obtain ⟨hnext, hnow⟩ := placed_assign hfollows (.inr hplaced)
        exact ih hnext (.inr hnow)

theorem placed_build (palette : Palette) (capabilities : Capabilities)
    (settings : ColorSettings) (role : Role) :
    (build palette capabilities settings).Placed palette capabilities settings
      ((roleRequests palette).map (·.colors palette settings)) role := by
  let bare : Theme :=
    ⟨PairTable.reserve palette capabilities settings, Vector.replicate Role.count Look.plain⟩
  have hbare : bare.pairs.Follows palette capabilities settings [] :=
    PairTable.follows_reserve palette capabilities settings
  exact placed_foldl_assign hbare (.inl role.mem_all)

@[simp] theorem look_with_pairs (theme : Theme) (pairs : PairTable) (role : Role) :
    look { theme with pairs } role = theme.look role := rfl

theorem undergoAll_requests (theme : Theme) (requests : List PairRequest) :
    theme.undergoAll (requests.map .request) =
      { theme with pairs := (theme.pairs.serve requests).2 } := by
  induction requests generalizing theme with
  | nil => rfl
  | cons request rest ih =>
      rw [List.map_cons, undergoAll, List.foldl_cons, ← undergoAll, ih, undergo, pairs_answer]
      rfl

theorem Begins.eq_build (hbegins : theme.Begins palette capabilities settings) :
    theme = build palette capabilities settings := by
  rcases hbegins with hbuilt | ⟨old, hpalette, hreloaded⟩
  · exact hbuilt
  · rw [hreloaded, reload_eq_build, hpalette]

/-- Within a generation of pairs every role stays placed, whatever is asked for. -/
theorem Begins.exists_placed (hbegins : theme.Begins palette capabilities settings)
    (requests : List PairRequest) :
    ∃ asked, (theme.undergoAll (requests.map .request)).pairs.Follows palette capabilities
        settings asked ∧
      ∀ role, (theme.undergoAll (requests.map .request)).Placed palette capabilities settings
        asked role := by
  obtain ⟨hfollows, -⟩ := (follows_build palette capabilities settings).serve requests
  rw [hbegins.eq_build, undergoAll_requests]
  exact ⟨_, hfollows, fun role =>
    (placed_build palette capabilities settings role).later (look_with_pairs ..) _⟩

/-! What a placed role looks like. -/

theorem Placed.style_eq (hplaced : theme.Placed palette capabilities settings asked role) :
    (theme.look role).style = role.recipe.style settings := by
  rw [hplaced.look_eq, Recipe.lookAmong]

theorem Placed.pair_eq (hplaced : theme.Placed palette capabilities settings asked role)
    {foreground background : ColorId}
    (hcolors : role.recipe.baseColors? = some (foreground, background)) :
    (theme.look role).pair =
      PairTable.listAnswer palette capabilities settings (capabilities.granted asked)
        (.indexed foreground background) := by
  rw [hplaced.look_eq, Recipe.lookAmong, Recipe.request?_of_baseColors? hcolors]

theorem Placed.showsBase (hplaced : theme.Placed palette capabilities settings asked role)
    (hfollows : theme.pairs.Follows palette capabilities settings asked)
    {foreground background : ColorId}
    (hcolors : role.recipe.baseColors? = some (foreground, background)) :
    theme.pairs.ShowsBase foreground background (theme.look role).pair := by
  obtain ⟨hforeground, hbackground, hcolored⟩ := Role.isBase_of_baseColors? hcolors
  rw [hplaced.pair_eq hcolors]
  exact hfollows.showsBase hforeground hbackground hcolored
    (hplaced.requested _ (Recipe.request?_of_baseColors? hcolors))

theorem Placed.pair_lt (hplaced : theme.Placed palette capabilities settings asked role)
    (hfollows : theme.pairs.Follows palette capabilities settings asked) :
    (theme.look role).pair < theme.pairs.size := by
  rw [hplaced.look_eq, Recipe.lookAmong]
  cases role.recipe.request? palette with
  | none => exact hfollows.inUse.size_pos
  | some request => exact hfollows.listAnswer_lt request

/-- Every role keeps the look of its recipe, whatever is asked for after the theme was built
or reloaded. -/
theorem roles_keep_looks (hbegins : theme.Begins palette capabilities settings)
    (requests : List PairRequest) :
    let later := theme.undergoAll (requests.map .request)
    (later.pairs.capabilities = capabilities ∧ later.pairs.settings = settings) ∧
      (∀ role, (later.look role).style = role.recipe.style settings) ∧
      (∀ role foreground background,
        role.recipe.baseColors? = some (foreground, background) →
          later.pairs.ShowsBase foreground background (later.look role).pair) ∧
      (∀ role other colors, role.recipe.baseColors? = some colors →
        other.recipe.baseColors? = some colors →
          (later.look role).pair = (later.look other).pair) ∧
      later.look .altRow = (later.look .text).withStyle { bold := true } ∧
      later.look .search = .ofStyle { reverse := true } ∧
      (later.look .inactiveStatus).pair < later.pairs.size := by
  intro later
  obtain ⟨asked, hfollows, hplaced⟩ := hbegins.exists_placed requests
  refine ⟨⟨hfollows.capabilities_eq, hfollows.settings_eq⟩, fun role => (hplaced role).style_eq,
    fun role foreground background hcolors => (hplaced role).showsBase hfollows hcolors,
    fun role other colors hrole hother => ?_, ?_, (hplaced .search).look_eq,
    (hplaced .inactiveStatus).pair_lt hfollows⟩
  · exact ((hplaced role).pair_eq hrole).trans ((hplaced other).pair_eq hother).symm
  · have hstyle : Recipe.style settings (.body { bold := true }) =
        (Recipe.style settings (.body .plain)).union { bold := true } := by
      simp [Recipe.style, Style.union, Style.plain]
    have htext : later.look .text = _ := (hplaced .text).look_eq
    have haltRow : later.look .altRow = _ := (hplaced .altRow).look_eq
    rw [htext, haltRow]
    exact congrArg (Look.mk · _) hstyle

/-- Two pairs are left for the roles here, which ask for more. -/
theorem roles_keep_looks_when_full :
    let settings : ColorSettings := ⟨true, true⟩
    let theme := build .xterm ⟨8, 66⟩ settings
    let later := theme.undergoAll [.request (.indexed 200 17)]
    (later.look .altRow).style = { bold := true, dim := true } ∧
      later.pairs.ShowsBase .green .black (later.look .ok).pair ∧
      (later.look .ok).pair = (later.look .diffAdd).pair := by
  intro settings theme later
  have hbegins : theme.Begins .xterm ⟨8, 66⟩ settings := .inl rfl
  obtain ⟨-, hstyle, hshows, hsame, -⟩ := roles_keep_looks hbegins [.indexed 200 17]
  exact ⟨hstyle .altRow, hshows .ok .green .black rfl, hsame .ok .diffAdd _ rfl rfl⟩

end Theme

end LinePainter
