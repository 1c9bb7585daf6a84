import LinePainter.Proofs.PairTable.Meaning
import LinePainter.Proofs.Theme.Generation
import LinePainter.Proofs.Theme.Looks

namespace LinePainter

/-! A theme that is reloaded starts afresh. Nothing of what it was before stays but its
palette: no pair, no look, and no answer that was given. -/

theorem Role.exists_index_eq (place : Fin Role.count) : ∃ role : Role, role.index = place := by
  have hall : ∀ place : Fin Role.count, ∃ role ∈ Role.all, role.index = place := by decide
  obtain ⟨role, -, hindex⟩ := hall place
  exact ⟨role, hindex⟩

namespace Theme

/-- What happens to a theme between one look at it and the next. -/
inductive Event where
  | request (request : PairRequest)
  | reload (capabilities : Capabilities) (settings : ColorSettings)

def undergo (theme : Theme) : Event → Theme
  | .request request => (theme.answer request).2
  | .reload capabilities settings => theme.reload capabilities settings

def undergoAll (theme : Theme) (events : List Event) : Theme :=
  events.foldl undergo theme

theorem ext_look {left right : Theme} (hpairs : left.pairs = right.pairs)
    (hlook : ∀ role, left.look role = right.look role) : left = right := by
  obtain ⟨pairs, looks⟩ := left
  obtain ⟨pairs', looks'⟩ := right
  cases hpairs
  congr 1
  apply Vector.ext
  intro place hplace
  obtain ⟨role, hindex⟩ := Role.exists_index_eq ⟨place, hplace⟩
  have hplace : place = role.index.val := by rw [hindex]
  subst hplace
  exact hlook role

/-! Giving every role its look leaves no old look behind. -/

variable {left right : Theme}

theorem pairs_assign_congr (hpairs : left.pairs = right.pairs) (role : Role) :
    (left.assign role).pairs = (right.assign role).pairs := by
  rw [assign, assign, hpairs]

theorem look_assign_congr (hpairs : left.pairs = right.pairs) {role other : Role}
    (hlook : role = other ∨ left.look other = right.look other) :
    (left.assign role).look other = (right.assign role).look other := by
  rw [look_assign, look_assign, hpairs]
  rcases hlook with rfl | hsame
  · rw [if_pos rfl, if_pos rfl]
  · rw [hsame]

/-- A role that is given its look, now or later, has the same one in both themes. -/
theorem look_foldl_assign_congr {roles : List Role} (hpairs : left.pairs = right.pairs)
    {other : Role} (hlook : other ∈ roles ∨ left.look other = right.look other) :
    (roles.foldl assign left).look other = (roles.foldl assign right).look other := by
  induction roles generalizing left right with
  | nil => exact hlook.resolve_left List.not_mem_nil
  | cons role rest ih =>
      apply ih (pairs_assign_congr hpairs role)
      rw [List.mem_cons, or_assoc] at hlook
      rcases hlook with rfl | hrest | hsame
      · exact .inr (look_assign_congr hpairs (.inl rfl))
      · exact .inl hrest
      · exact .inr (look_assign_congr hpairs (.inr hsame))

theorem assignAll_congr (hpairs : left.pairs = right.pairs) :
    left.assignAll = right.assignAll := by
  refine ext_look ?_ fun role => look_foldl_assign_congr hpairs (.inl role.mem_all)
  rw [assignAll, assignAll, pairs_foldl_assign, pairs_foldl_assign, hpairs]

theorem reload_eq_build (theme : Theme) (capabilities : Capabilities)
    (settings : ColorSettings) :
    theme.reload capabilities settings =
      build theme.pairs.palette capabilities settings :=
  assignAll_congr rfl

/-! What a theme is after a history. -/

variable (palette : Palette) (capabilities : Capabilities) (settings : ColorSettings)

theorem follows_build :
    (build palette capabilities settings).pairs.Follows palette capabilities settings
      ((roleRequests palette).map (·.colors palette settings)) := by
  have hfresh := PairTable.follows_reserve palette capabilities settings
  rw [pairs_build]
  exact (hfresh.serve (roleRequests palette)).1

/-- No role asks for more than one pair. -/
theorem size_build_le :
    (build palette capabilities settings).pairs.size ≤
      capabilities.firstDynamic + Role.count := by
  have hfresh := PairTable.follows_reserve palette capabilities settings
  have hserved := hfresh.inUse.size_serve_le (roleRequests palette)
  have hroles : (roleRequests palette).length ≤ Role.count := List.length_filterMap_le ..
  rw [hfresh.size_eq] at hserved
  rw [pairs_build]
  simp only [Capabilities.granted, List.eraseDups_nil, List.take_nil, List.length_nil,
    Nat.add_zero] at hserved
  omega

theorem palette_undergo (theme : Theme) (event : Event) :
    (theme.undergo event).pairs.palette = theme.pairs.palette := by
  cases event with
  | request request =>
      rw [undergo, pairs_answer]
      exact PairTable.answer_palette ..
  | reload capabilities settings =>
      rw [undergo, reload_eq_build]
      exact (follows_build ..).palette_eq

theorem palette_undergoAll (theme : Theme) (history : List Event) :
    (theme.undergoAll history).pairs.palette = theme.pairs.palette := by
  induction history generalizing theme with
  | nil => rfl
  | cons event rest ih => exact (ih (theme.undergo event)).trans (theme.palette_undergo event)

theorem Ready.undergo {theme : Theme} (hready : theme.Ready) (event : Event) :
    (theme.undergo event).Ready := by
  cases event with
  | request request =>
      have hanswered := hready.inUse.answer request
      rw [Theme.undergo, pairs_answer]
      exact hready.grow hanswered.inUse hanswered.grows
  | reload capabilities settings =>
      rw [Theme.undergo, reload_eq_build]
      exact ready_build ..

theorem Ready.undergoAll {theme : Theme} (hready : theme.Ready) (history : List Event) :
    (theme.undergoAll history).Ready := by
  induction history generalizing theme with
  | nil => exact hready
  | cons event rest ih => exact ih (hready.undergo event)

/-- Whatever a theme has been through, reloading it makes it the theme that is built anew for
the same palette. Its pairs are the reserved ones and then what its roles ask for, and
reloading it again changes nothing. -/
theorem reload_starts_afresh (history : List Event) (capabilities' : Capabilities)
    (settings' : ColorSettings) :
    let lived := (build palette capabilities settings).undergoAll history
    let reloaded := lived.reload capabilities' settings'
    reloaded = build palette capabilities' settings' ∧
      reloaded.pairs.Follows palette capabilities' settings'
        ((roleRequests palette).map (·.colors palette settings')) ∧
      reloaded.reload capabilities' settings' = reloaded := by
  intro lived reloaded
  have hpalette : lived.pairs.palette = palette := by
    rw [palette_undergoAll]
    exact (follows_build ..).palette_eq
  have hfresh : reloaded = build palette capabilities' settings' := by
    rw [← hpalette]
    exact lived.reload_eq_build capabilities' settings'
  have hfollows := follows_build palette capabilities' settings'
  refine ⟨hfresh, hfresh ▸ hfollows, ?_⟩
  rw [reload_eq_build, hfresh, hfollows.palette_eq]

end Theme

end LinePainter
