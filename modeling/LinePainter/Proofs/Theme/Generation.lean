import LinePainter.Palette.Xterm
import LinePainter.Proofs.PairTable.ListModel
import LinePainter.Theme

namespace LinePainter

/-! A generation of pairs begins when a theme is built or reloaded. Its first requests
are those of the roles. -/

namespace Recipe

def request? (palette : Palette) : Recipe → Option PairRequest
  | styleOnly _ => none
  | base foreground background _ => some (.indexed foreground background)
  | body _ => some (.indexed .white .black)
  | named foreground background =>
      some (.matched (foreground.resolve palette) (some (background.resolve palette)))

end Recipe

/-- What the roles ask for, in the order in which they get their looks. -/
def roleRequests (palette : Palette) : List PairRequest :=
  Role.all.filterMap (·.recipe.request? palette)

namespace PairTable

theorem cook_table (table : PairTable) (recipe : Recipe) :
    (table.cook recipe).2 =
      match recipe.request? table.palette with
      | some request => (table.answer request).2
      | none => table := by
  cases recipe <;> rfl

end PairTable

namespace Theme

theorem pairs_foldl_assign (roles : List Role) (theme : Theme) :
    (roles.foldl assign theme).pairs =
      (theme.pairs.serve
        (roles.filterMap (·.recipe.request? theme.pairs.palette))).2 := by
  induction roles generalizing theme with
  | nil => rfl
  | cons role rest ih =>
      have hpairs : (theme.assign role).pairs = (theme.pairs.cook role.recipe).2 := rfl
      rw [List.foldl_cons, ih, hpairs, PairTable.cook_table]
      cases hrequest : role.recipe.request? theme.pairs.palette with
      | none => simp only [List.filterMap_cons, hrequest]
      | some request =>
          simp only [List.filterMap_cons, hrequest, PairTable.answer_palette]
          rfl

theorem pairs_build (palette : Palette) (capabilities : Capabilities)
    (settings : ColorSettings) :
    (build palette capabilities settings).pairs =
      ((PairTable.reserve palette capabilities settings).serve (roleRequests palette)).2 :=
  pairs_foldl_assign ..

theorem pairs_reload (old : Theme) (capabilities : Capabilities) (settings : ColorSettings) :
    (old.reload capabilities settings).pairs =
      (build old.pairs.palette capabilities settings).pairs := by
  rw [pairs_build]
  exact pairs_foldl_assign ..

def Begins (theme : Theme) (palette : Palette) (capabilities : Capabilities)
    (settings : ColorSettings) : Prop :=
  theme = build palette capabilities settings ∨
    ∃ old : Theme, old.pairs.palette = palette ∧ theme = old.reload capabilities settings

variable {theme : Theme} {palette : Palette} {capabilities : Capabilities}
  {settings : ColorSettings}

theorem Begins.pairs_eq (hbegins : theme.Begins palette capabilities settings) :
    theme.pairs =
      ((PairTable.reserve palette capabilities settings).serve (roleRequests palette)).2 := by
  rcases hbegins with hbuilt | ⟨old, hpalette, hreloaded⟩
  · rw [hbuilt]
    exact pairs_build ..
  · rw [hreloaded, ← hpalette]
    exact (pairs_reload old capabilities settings).trans (pairs_build ..)

end Theme

namespace Theme

variable {theme : Theme} {palette : Palette} {capabilities : Capabilities}
  {settings : ColorSettings}

/-- Since a generation of pairs began, whatever is asked for and in whatever order, the
pairs are the reserved ones and then the first distinct colors asked for, and every
answer is a place in that list, or a grid pair for colors that came too late. -/
theorem requests_follow_list (hbegins : theme.Begins palette capabilities settings)
    (requests : List PairRequest) :
    let fresh := PairTable.reserve palette capabilities settings
    let opening := fresh.serve (roleRequests palette)
    let served := theme.pairs.serve requests
    theme.pairs = opening.2 ∧
      capabilities.firstDynamic =
        (if 256 ≤ capabilities.colors ∧ 118 ≤ capabilities.colorPairs then 118 else 64) ∧
      (capabilities.reservedPairs settings).length = capabilities.firstDynamic ∧
      ∃ granted,
        (capabilities.tier = .basic → capabilities.firstDynamic = 64 ∧ granted = []) ∧
        PairTable.RefinesList palette capabilities settings (roleRequests palette ++ requests)
          (opening.1 ++ served.1) served.2 granted := by
  have happend := PairTable.serve_append (PairTable.reserve palette capabilities settings)
    (roleRequests palette) requests
  have hrefines := PairTable.refinesList_serve palette capabilities settings
    (roleRequests palette ++ requests)
  rw [happend, ← hbegins.pairs_eq] at hrefines
  refine ⟨hbegins.pairs_eq, rfl, capabilities.length_reservedPairs settings, _, ?_, hrefines⟩
  intro htier
  obtain ⟨hfirst, hfew⟩ := Capabilities.firstDynamic_eq_of_basic htier
  refine ⟨hfirst, List.take_eq_nil_iff.mpr (.inl ?_)⟩
  rw [hfirst]
  exact Nat.sub_eq_zero_of_le hfew

/-- A palette of one color, and a terminal with one pair more than the roles take. The first
request gets that pair and keeps it, the second one comes too late, and the two behind it
meet pairs of the roles. -/
theorem requests_follow_list_until_full :
    let entry := PaletteRow.measure ⟨200, "Only", ⟨1, 2, 3⟩⟩
    let palette := Palette.ofEntries [entry] (List.cons_ne_nil _ _) (List.pairwise_singleton _ _)
    let theme := build palette ⟨8, 82⟩ {}
    let requests : List PairRequest := [.indexed 200 17, .indexed .blue .red,
      .matched ⟨9, 9, 9⟩ (some ⟨0, 0, 0⟩), .indexed .green .black, .indexed 200 17]
    let served := theme.pairs.serve requests
    served.1 = [81, 33, 75, 65, 81] ∧ served.2.size = 82 ∧
      served.2.colors? 33 = some ⟨.indexed .blue, .indexed .red⟩ := by
  intro entry palette theme requests served
  have hbegins : theme.Begins palette ⟨8, 82⟩ {} := .inl rfl
  obtain ⟨-, -, hreserved, granted, -, hrefines⟩ := requests_follow_list hbegins requests
  obtain rfl := hrefines.granted_eq
  have hanswers := hrefines.answers_eq
  rw [List.map_append] at hanswers
  have hserved := List.append_inj_right' hanswers
    (by rw [PairTable.length_serve, List.length_map])
  have hbase : (Capabilities.reservedPairs ⟨8, 82⟩ {})[33]? =
      some ⟨.indexed .blue, .indexed .red⟩ :=
    hrefines.reserves.base_pair .blue .red (by decide) (by decide) (by decide)
  obtain ⟨hplace, -⟩ := List.getElem?_eq_some_iff.mp hbase
  refine ⟨?_, ?_, ?_⟩
  · rw [show served.1 = _ from hserved]
    decide +kernel
  · rw [PairTable.size, ← Array.length_toList, hrefines.pairs_eq, List.length_append, hreserved]
    decide +kernel
  · rw [PairTable.colors?, ← Array.getElem?_toList, hrefines.pairs_eq,
      List.getElem?_append_left hplace]
    exact hbase

end Theme

end LinePainter
