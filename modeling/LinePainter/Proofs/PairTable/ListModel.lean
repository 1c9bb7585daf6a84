import Mathlib.Data.List.Induction
import LinePainter.PairTable
import LinePainter.Proofs.Palette.Nearest

namespace LinePainter

/-! A pair table refines a list: behind the reserved pairs it holds the first distinct
colors asked for, as many as there is room for, and a request is answered by its place
in that list. -/

/-- A request for a pair, by palette ids or by colors to match. -/
inductive PairRequest where
  | indexed (foreground background : ColorId)
  | matched (foreground : Rgb) (background : Option Rgb)

namespace PairRequest

def ids (palette : Palette) : PairRequest → ColorId × ColorId
  | indexed foreground background => (foreground, background)
  | matched foreground background =>
      (palette.matchColor foreground, (background.map palette.matchColor).getD .black)

/-- The colors to show. With default colors, the terminal's own take the place of a white
foreground and of a black background. -/
def colors (palette : Palette) (settings : ColorSettings) (request : PairRequest) :
    PairColors where
  foreground :=
    if settings.defaultColors = true ∧ (request.ids palette).1 = .white then .terminalDefault
    else .indexed (request.ids palette).1
  background :=
    if settings.defaultColors = true ∧ (request.ids palette).2 = .black then .terminalDefault
    else .indexed (request.ids palette).2

theorem colors_eq_resolve (palette : Palette) (settings : ColorSettings)
    (request : PairRequest) :
    request.colors palette settings =
      PairColors.resolve settings (request.ids palette).1 (request.ids palette).2 := rfl

def gridPair (palette : Palette) (request : PairRequest) : PairId :=
  8 * (palette.nearestBase (request.ids palette).1).val +
    (palette.nearestBase (request.ids palette).2).val

end PairRequest

namespace Capabilities

theorem length_reservedPairs (capabilities : Capabilities) (settings : ColorSettings) :
    (capabilities.reservedPairs settings).length = capabilities.firstDynamic := by
  have hbase : baseBlock.length = basePairCount := rfl
  have hcube : (cubeBlock settings).length = cubePairCount := rfl
  rw [reservedPairs, firstDynamic, List.length_append, hbase]
  split
  · rw [hcube]
  · rfl

theorem getElem?_baseBlock {pair : Nat} (hpos : 0 < pair) (hpair : pair < basePairCount) :
    baseBlock[pair]? =
      some ⟨.indexed (Fin.ofNat 256 (pair / 8)), .indexed (Fin.ofNat 256 (pair % 8))⟩ := by
  obtain ⟨before, rfl⟩ := Nat.exists_eq_succ_of_ne_zero (Nat.ne_of_gt hpos)
  have hbefore : before < basePairCount - 1 := Nat.lt_sub_of_add_lt hpair
  rw [baseBlock, List.getElem?_cons_succ, List.getElem?_map, List.getElem?_range' hbefore,
    Nat.one_mul, Nat.add_comm]
  rfl

/-- The pairs that are there before any is asked for. Pair 0 is the terminal's own, any two
base colors have their place in a grid, and behind the grid there are cube colors over
black, or over the terminal's background, if all of them have room. -/
structure Reserves (capabilities : Capabilities) (settings : ColorSettings)
    (pairs : List PairColors) : Prop where
  length_eq : pairs.length =
    if 256 ≤ capabilities.colors ∧ 118 ≤ capabilities.colorPairs then 118 else 64
  terminal_pair : pairs[0]? = some ⟨.terminalDefault, .terminalDefault⟩
  base_pair : ∀ foreground background : ColorId, foreground.val < 8 → background.val < 8 →
    0 < 8 * foreground.val + background.val →
      pairs[8 * foreground.val + background.val]? =
        some ⟨.indexed foreground, .indexed background⟩
  cube_pair : 256 ≤ capabilities.colors → 118 ≤ capabilities.colorPairs →
    ∀ (red : Fin 6) (green blue : Fin 3) (color : ColorId),
      color.val = 16 + 36 * red.val + 6 * (2 * green.val + 1) + (2 * blue.val + 1) →
        pairs[64 + (9 * red.val + 3 * blue.val + green.val)]? =
          some ⟨.indexed color,
            if settings.defaultColors = true then .terminalDefault else .indexed .black⟩

theorem getElem?_cubeBlock (settings : ColorSettings) (red : Fin 6) (green blue : Fin 3)
    {color : ColorId}
    (hcolor : color.val = 16 + 36 * red.val + 6 * (2 * green.val + 1) + (2 * blue.val + 1)) :
    (cubeBlock settings)[9 * red.val + 3 * blue.val + green.val]? =
      some ⟨.indexed color, (PairColors.resolve settings .black .black).background⟩ := by
  let ids : List ColorId := (List.range 6).flatMap fun red =>
    [1, 3, 5].flatMap fun blue =>
      [1, 3, 5].map fun green => Fin.ofNat 256 (16 + 36 * red + 6 * green + blue)
  have hblock : cubeBlock settings = ids.map fun id =>
      ⟨.indexed id, (PairColors.resolve settings .black .black).background⟩ := rfl
  have hids : ∀ (red : Fin 6) (green blue : Fin 3),
      ids[9 * red.val + 3 * blue.val + green.val]? = some (Fin.ofNat 256
        (16 + 36 * red.val + 6 * (2 * green.val + 1) + (2 * blue.val + 1))) := by
    decide
  have hid : Fin.ofNat 256
      (16 + 36 * red.val + 6 * (2 * green.val + 1) + (2 * blue.val + 1)) = color :=
    Fin.ext (by rw [Fin.val_ofNat, ← hcolor, Nat.mod_eq_of_lt color.isLt])
  rw [hblock, List.getElem?_map, hids, hid]
  rfl

theorem reserves_reservedPairs (capabilities : Capabilities) (settings : ColorSettings) :
    capabilities.Reserves settings (capabilities.reservedPairs settings) where
  length_eq := capabilities.length_reservedPairs settings
  terminal_pair := rfl
  base_pair foreground background hforeground hbackground hpos := by
    have hpair : 8 * foreground.val + background.val < basePairCount := by
      rw [basePairCount]
      omega
    have hforeground' : Fin.ofNat 256 ((8 * foreground.val + background.val) / 8) =
        foreground := Fin.ext (by rw [Fin.val_ofNat]; omega)
    have hbackground' : Fin.ofNat 256 ((8 * foreground.val + background.val) % 8) =
        background := Fin.ext (by rw [Fin.val_ofNat]; omega)
    rw [reservedPairs, List.getElem?_append_left (by exact hpair), getElem?_baseBlock hpos hpair,
      hforeground', hbackground']
  cube_pair hcolors hpairs red green blue color hcolor := by
    have hbase : baseBlock.length = 64 := rfl
    have hbackground : (PairColors.resolve settings .black .black).background =
        if settings.defaultColors = true then .terminalDefault else .indexed .black := by
      simp [PairColors.resolve]
    rw [reservedPairs, if_pos ⟨hcolors, hpairs⟩,
      List.getElem?_append_right (by rw [hbase]; exact Nat.le_add_right ..), hbase,
      Nat.add_sub_cancel_left, getElem?_cubeBlock settings red green blue hcolor, hbackground]

theorem basePairCount_le_firstDynamic (capabilities : Capabilities) :
    basePairCount ≤ capabilities.firstDynamic := by
  unfold firstDynamic
  split
  · exact Nat.le_add_right ..
  · exact Nat.le_refl _

theorem firstDynamic_le_of_dynamic {capabilities : Capabilities}
    (htier : capabilities.tier = .dynamic) :
    capabilities.firstDynamic ≤ capabilities.colorPairs := by
  have hmany : ¬ capabilities.colorPairs ≤ basePairCount := by
    intro hfew
    rw [tier, if_pos hfew] at htier
    cases htier
  unfold firstDynamic
  split
  · next hcube => exact hcube.2
  · exact Nat.le_of_not_le hmany

theorem firstDynamic_eq_of_basic {capabilities : Capabilities}
    (htier : capabilities.tier = .basic) :
    capabilities.firstDynamic = basePairCount ∧ capabilities.colorPairs ≤ basePairCount := by
  have hfew : capabilities.colorPairs ≤ basePairCount := by
    unfold tier at htier
    split at htier
    · assumption
    · cases htier
  refine ⟨if_neg fun hcube => ?_, hfew⟩
  have hroom := hcube.2
  rw [cubePairCount] at hroom
  omega

/-- The colors that get a pair of their own once `asked` was asked for. -/
def granted (capabilities : Capabilities) (asked : List PairColors) : List PairColors :=
  asked.eraseDups.take (capabilities.colorPairs - capabilities.firstDynamic)

theorem granted_eq_nil_of_basic {capabilities : Capabilities}
    (htier : capabilities.tier = .basic) (asked : List PairColors) :
    capabilities.granted asked = [] := by
  obtain ⟨hfirst, hfew⟩ := firstDynamic_eq_of_basic htier
  rw [granted, hfirst, Nat.sub_eq_zero_of_le hfew, List.take_zero]

end Capabilities

namespace PairTable

def answer (table : PairTable) : PairRequest → PairId × PairTable
  | .indexed foreground background => table.request foreground background
  | .matched foreground background => table.requestColors foreground background

/-- The answers to requests asked one after the other, and the table they leave. -/
def serve (table : PairTable) : List PairRequest → List PairId × PairTable
  | [] => ([], table)
  | request :: rest =>
      let (pair, table) := table.answer request
      let (pairs, table) := serve table rest
      (pair :: pairs, table)

theorem length_serve (table : PairTable) (requests : List PairRequest) :
    (table.serve requests).1.length = requests.length := by
  induction requests generalizing table with
  | nil => rfl
  | cons request rest ih => exact congrArg Nat.succ (ih _)

theorem answer_eq_request (table : PairTable) (request : PairRequest) :
    table.answer request =
      table.request (request.ids table.palette).1 (request.ids table.palette).2 := by
  cases request with
  | indexed foreground background => rfl
  | matched foreground background => cases background <;> rfl

variable {palette : Palette} {capabilities : Capabilities} {settings : ColorSettings}

/-! Facts about the list itself. -/

theorem idxOf?_append (left right : List PairColors) (colors : PairColors) :
    (left ++ right).idxOf? colors =
      (left.idxOf? colors).or ((right.idxOf? colors).map (· + left.length)) :=
  List.findIdx?_append

theorem eraseDups_concat (asked : List PairColors) (colors : PairColors) :
    (asked ++ [colors]).eraseDups =
      if colors ∈ asked then asked.eraseDups else asked.eraseDups ++ [colors] := by
  rw [List.eraseDups_append]
  split
  · next hasked => simp [List.removeAll, hasked]
  · next hfresh => simp [List.removeAll, hfresh, List.eraseDups_cons]

theorem granted_append (asked more : List PairColors) :
    capabilities.granted (asked ++ more) =
      capabilities.granted asked ++ (more.removeAll asked).eraseDups.take
        (capabilities.colorPairs - capabilities.firstDynamic - asked.eraseDups.length) := by
  rw [Capabilities.granted, List.eraseDups_append, List.take_append, Capabilities.granted]

theorem granted_prefix_granted_append (capabilities : Capabilities) (asked more : List PairColors) :
    capabilities.granted asked <+: capabilities.granted (asked ++ more) := by
  rw [granted_append]
  exact List.prefix_append ..

theorem granted_concat_of_mem {asked : List PairColors} {colors : PairColors}
    (hgranted : colors ∈ capabilities.granted asked) :
    capabilities.granted (asked ++ [colors]) = capabilities.granted asked := by
  have hasked : colors ∈ asked := List.mem_eraseDups.mp (List.mem_of_mem_take hgranted)
  rw [Capabilities.granted, eraseDups_concat, if_pos hasked, Capabilities.granted]

theorem granted_concat_of_room {asked : List PairColors} {colors : PairColors}
    (hnew : colors ∉ capabilities.granted asked)
    (hroom : (capabilities.granted asked).length <
      capabilities.colorPairs - capabilities.firstDynamic) :
    capabilities.granted (asked ++ [colors]) = capabilities.granted asked ++ [colors] := by
  have hshort : asked.eraseDups.length <
      capabilities.colorPairs - capabilities.firstDynamic := by
    rw [Capabilities.granted, List.length_take] at hroom
    omega
  have hall : capabilities.granted asked = asked.eraseDups :=
    List.take_of_length_le (Nat.le_of_lt hshort)
  rw [hall, List.mem_eraseDups] at hnew
  rw [hall, Capabilities.granted, eraseDups_concat, if_neg hnew]
  apply List.take_of_length_le
  rw [List.length_append, List.length_singleton]
  omega

theorem granted_append_of_full {asked : List PairColors}
    (hfull : capabilities.colorPairs - capabilities.firstDynamic ≤
      (capabilities.granted asked).length) (more : List PairColors) :
    capabilities.granted (asked ++ more) = capabilities.granted asked := by
  have hlong : capabilities.colorPairs - capabilities.firstDynamic ≤
      asked.eraseDups.length := by
    rw [Capabilities.granted, List.length_take] at hfull
    omega
  rw [granted_append, Nat.sub_eq_zero_of_le hlong, List.take_zero, List.append_nil]

theorem idxOf?_granted_append {asked : List PairColors} {colors : PairColors}
    (hasked : colors ∈ asked) (more : List PairColors) :
    (capabilities.granted (asked ++ more)).idxOf? colors =
      (capabilities.granted asked).idxOf? colors := by
  have hlisted : colors ∈ asked.eraseDups := List.mem_eraseDups.mpr hasked
  rw [granted_append, idxOf?_append]
  cases hfound : (capabilities.granted asked).idxOf? colors with
  | some place => rfl
  | none =>
      -- Colors without a place were asked for when the list was full already.
      have hfull : capabilities.colorPairs - capabilities.firstDynamic <
          asked.eraseDups.length := by
        rw [List.idxOf?_eq_none_iff] at hfound
        by_contra hroom
        rw [Capabilities.granted, List.take_of_length_le (Nat.le_of_not_lt hroom)] at hfound
        exact hfound hlisted
      rw [Nat.sub_eq_zero_of_le (Nat.le_of_lt hfull)]
      rfl

theorem eraseDups_nodup (asked : List PairColors) : asked.eraseDups.Nodup := by
  induction asked using List.reverseRecOn with
  | nil => exact List.nodup_nil
  | append_singleton asked colors ih =>
      rw [eraseDups_concat]
      split
      · exact ih
      · next hfresh =>
          rw [List.nodup_append]
          refine ⟨ih, by simp, ?_⟩
          intro left hleft right hright heq
          rw [List.mem_singleton.mp hright] at heq
          subst heq
          exact hfresh (List.mem_eraseDups.mp hleft)

theorem granted_nodup (capabilities : Capabilities) (asked : List PairColors) :
    (capabilities.granted asked).Nodup :=
  (List.take_sublist ..).nodup (eraseDups_nodup asked)

/-! The table follows the list. -/

/-- The table is in the state that the list of colors asked for so far says. -/
structure Follows (table : PairTable) (palette : Palette) (capabilities : Capabilities)
    (settings : ColorSettings) (asked : List PairColors) : Prop where
  palette_eq : table.palette = palette
  capabilities_eq : table.capabilities = capabilities
  settings_eq : table.settings = settings
  pairs_eq : table.pairs.toList =
    capabilities.reservedPairs settings ++ capabilities.granted asked
  issued_eq : ∀ colors, table.issued[colors]? =
    ((capabilities.granted asked).idxOf? colors).map (capabilities.firstDynamic + ·)

/-- The answer that the list says: the place of the colors in it, or a grid pair. -/
def listAnswer (palette : Palette) (capabilities : Capabilities) (settings : ColorSettings)
    (granted : List PairColors) (request : PairRequest) : PairId :=
  match granted.idxOf? (request.colors palette settings) with
  | some place => capabilities.firstDynamic + place
  | none => request.gridPair palette

theorem follows_reserve (palette : Palette) (capabilities : Capabilities)
    (settings : ColorSettings) :
    (reserve palette capabilities settings).Follows palette capabilities settings [] where
  palette_eq := rfl
  capabilities_eq := rfl
  settings_eq := rfl
  pairs_eq := by simp [reserve, Capabilities.granted]
  issued_eq colors := by simp [reserve, Capabilities.granted]

theorem Follows.size_eq {table : PairTable} {asked : List PairColors}
    (hfollows : table.Follows palette capabilities settings asked) :
    table.size = capabilities.firstDynamic + (capabilities.granted asked).length := by
  rw [size, ← Array.length_toList, hfollows.pairs_eq, List.length_append,
    capabilities.length_reservedPairs]

theorem nearestBasePair_eq_gridPair (table : PairTable) (request : PairRequest) :
    table.nearestBasePair (request.ids table.palette).1 (request.ids table.palette).2 =
      request.gridPair table.palette := by
  have hbase (id : ColorId) : (table.palette.nearestBase id).val % 8 =
      (table.palette.nearestBase id).val :=
    Nat.mod_eq_of_lt (table.palette.nearestBase_isBase id)
  rw [nearestBasePair, basePair, hbase, hbase, PairRequest.gridPair]

def extended (table : PairTable) (colors : PairColors) : PairTable :=
  { table with
    pairs := table.pairs.push colors
    issued := table.issued.insert colors table.size }

/-- All that a request can do: find a pair handed out before, take the next one, or
fall back on the grid when there is none to take. -/
theorem Follows.answer_cases {table : PairTable} {asked : List PairColors}
    (hfollows : table.Follows palette capabilities settings asked) (request : PairRequest) :
    let colors := request.colors palette settings
    let room := capabilities.colorPairs - capabilities.firstDynamic
    (∃ place, (capabilities.granted asked).idxOf? colors = some place ∧
      table.answer request = (capabilities.firstDynamic + place, table)) ∨
    (colors ∉ capabilities.granted asked ∧ (capabilities.granted asked).length < room ∧
      table.answer request = (table.size, table.extended colors)) ∨
    (colors ∉ capabilities.granted asked ∧ room ≤ (capabilities.granted asked).length ∧
      table.answer request = (request.gridPair palette, table)) := by
  intro colors room
  have hgrid := nearestBasePair_eq_gridPair table request
  have hfound := hfollows.issued_eq colors
  have hsize := hfollows.size_eq
  obtain ⟨rfl, rfl, rfl, -, -⟩ := hfollows
  rw [answer_eq_request, PairTable.request, hgrid, tier]
  cases htier : table.capabilities.tier with
  | basic =>
      obtain ⟨hfirst, hfew⟩ := Capabilities.firstDynamic_eq_of_basic htier
      have hnone : room = 0 := by
        simp only [room, hfirst]
        exact Nat.sub_eq_zero_of_le hfew
      refine .inr (.inr ⟨?_, by rw [hnone]; exact Nat.zero_le _, rfl⟩)
      rw [Capabilities.granted_eq_nil_of_basic htier]
      exact List.not_mem_nil
  | dynamic =>
      have hfirst := Capabilities.firstDynamic_le_of_dynamic htier
      dsimp only
      rw [← PairRequest.colors_eq_resolve, hfound]
      cases hplace : (table.capabilities.granted asked).idxOf? colors with
      | some place => exact .inl ⟨place, rfl, rfl⟩
      | none =>
          have hnew := List.idxOf?_eq_none_iff.mp hplace
          dsimp only [Option.map_none]
          split
          · exact .inr (.inl ⟨hnew, by omega, rfl⟩)
          · exact .inr (.inr ⟨hnew, by omega, rfl⟩)

theorem Follows.of_granted_eq {table : PairTable} {asked longer : List PairColors}
    (hfollows : table.Follows palette capabilities settings asked)
    (hsame : capabilities.granted longer = capabilities.granted asked) :
    table.Follows palette capabilities settings longer := by
  obtain ⟨hpalette, hcapabilities, hsettings, hpairs, hissued⟩ := hfollows
  rw [← hsame] at hpairs hissued
  exact ⟨hpalette, hcapabilities, hsettings, hpairs, hissued⟩

theorem Follows.extended {table : PairTable} {asked : List PairColors} {colors : PairColors}
    (hfollows : table.Follows palette capabilities settings asked)
    (hnew : colors ∉ capabilities.granted asked)
    (hroom : (capabilities.granted asked).length <
      capabilities.colorPairs - capabilities.firstDynamic) :
    (table.extended colors).Follows palette capabilities settings (asked ++ [colors]) := by
  have hgranted := granted_concat_of_room hnew hroom
  refine ⟨hfollows.palette_eq, hfollows.capabilities_eq, hfollows.settings_eq, ?_, ?_⟩
  · rw [hgranted, PairTable.extended, Array.toList_push, hfollows.pairs_eq,
      List.append_assoc]
  · intro other
    rw [hgranted, PairTable.extended, Std.HashMap.getElem?_insert, hfollows.issued_eq,
      hfollows.size_eq, idxOf?_append]
    split
    · next heq =>
        have hsame : colors = other := eq_of_beq heq
        subst hsame
        rw [List.idxOf?_eq_none_iff.mpr hnew]
        simp [List.idxOf?_cons]
    · next hne =>
        have hlast : [colors].idxOf? other = none := by
          simpa [List.idxOf?_cons] using hne
        rw [hlast]
        simp

/-- One request: the table follows the longer list, and the answer is the list's. Only
colors that get a place in the list change the table. -/
theorem Follows.answer {table : PairTable} {asked : List PairColors}
    (hfollows : table.Follows palette capabilities settings asked) (request : PairRequest) :
    let longer := asked ++ [request.colors palette settings]
    (table.answer request).2.Follows palette capabilities settings longer ∧
      (table.answer request).1 =
        listAnswer palette capabilities settings (capabilities.granted longer) request ∧
      (request.colors palette settings ∉ capabilities.granted longer →
        (table.answer request).2 = table) := by
  intro longer
  rcases hfollows.answer_cases request with
    ⟨place, hplace, hanswer⟩ | ⟨hnew, hroom, hanswer⟩ | ⟨hnew, hfull, hanswer⟩
  · have hmem : request.colors palette settings ∈ capabilities.granted asked := by
      rw [← List.isSome_idxOf?, hplace]
      rfl
    have hsame : capabilities.granted longer = capabilities.granted asked :=
      granted_concat_of_mem hmem
    rw [hanswer, listAnswer, hsame, hplace]
    exact ⟨hfollows.of_granted_eq hsame, rfl, fun _ => rfl⟩
  · have hlonger : capabilities.granted longer =
        capabilities.granted asked ++ [request.colors palette settings] :=
      granted_concat_of_room hnew hroom
    rw [hanswer]
    refine ⟨hfollows.extended hnew hroom, ?_, fun habsent => absurd ?_ habsent⟩
    · rw [listAnswer, hlonger, idxOf?_append, List.idxOf?_eq_none_iff.mpr hnew]
      simpa [List.idxOf?_cons] using hfollows.size_eq
    · rw [hlonger]
      exact List.mem_concat_self
  · have hsame : capabilities.granted longer = capabilities.granted asked :=
      granted_append_of_full hfull _
    rw [hanswer, listAnswer, hsame, List.idxOf?_eq_none_iff.mpr hnew]
    exact ⟨hfollows.of_granted_eq hsame, rfl, fun _ => rfl⟩

/-- A run of requests. An answer given early is the one the list of the whole run
says. -/
theorem Follows.serve (requests : List PairRequest) {table : PairTable}
    {asked : List PairColors}
    (hfollows : table.Follows palette capabilities settings asked) :
    let all := asked ++ requests.map (·.colors palette settings)
    (table.serve requests).2.Follows palette capabilities settings all ∧
      (table.serve requests).1 = requests.map
        (listAnswer palette capabilities settings (capabilities.granted all)) := by
  induction requests generalizing table asked with
  | nil => simpa [PairTable.serve] using hfollows
  | cons request rest ih =>
      obtain ⟨hnext, hanswer, -⟩ := hfollows.answer request
      obtain ⟨hlast, hanswers⟩ := ih hnext
      rw [List.append_assoc] at hlast hanswers
      refine ⟨hlast, ?_⟩
      have hsettled : listAnswer palette capabilities settings
          (capabilities.granted (asked ++ [request.colors palette settings])) request =
          listAnswer palette capabilities settings
            (capabilities.granted (asked ++ (request :: rest).map (·.colors palette settings)))
            request := by
        rw [listAnswer, listAnswer, List.map_cons, List.append_cons asked _ (List.map _ rest),
          idxOf?_granted_append (List.mem_append_right _ (List.mem_singleton_self _))]
      rw [List.map_cons, ← hsettled, ← hanswer]
      exact congrArg (List.cons _) hanswers

/-! What a table that follows the list looks like. -/

variable {table : PairTable} {asked : List PairColors}

theorem Follows.pairs_prefix_pairs {later : PairTable} {more : List PairColors}
    (hearlier : table.Follows palette capabilities settings asked)
    (hlater : later.Follows palette capabilities settings (asked ++ more)) :
    table.pairs.toList <+: later.pairs.toList := by
  rw [hearlier.pairs_eq, hlater.pairs_eq]
  exact (List.prefix_append_right_inj _).mpr (granted_prefix_granted_append capabilities asked more)

theorem Follows.size_le (hfollows : table.Follows palette capabilities settings asked) :
    table.size ≤ max basePairCount capabilities.colorPairs := by
  have hgranted : (capabilities.granted asked).length ≤
      capabilities.colorPairs - capabilities.firstDynamic := List.length_take_le ..
  rw [hfollows.size_eq]
  cases htier : capabilities.tier with
  | basic =>
      obtain ⟨hfirst, hfew⟩ := Capabilities.firstDynamic_eq_of_basic htier
      rw [hfirst] at hgranted ⊢
      omega
  | dynamic =>
      have hfirst := Capabilities.firstDynamic_le_of_dynamic htier
      calc capabilities.firstDynamic + (capabilities.granted asked).length
          _ ≤ capabilities.firstDynamic +
              (capabilities.colorPairs - capabilities.firstDynamic) :=
            Nat.add_le_add_left hgranted _
          _ = capabilities.colorPairs := Nat.add_sub_of_le hfirst
          _ ≤ max basePairCount capabilities.colorPairs := Nat.le_max_right ..

theorem gridPair_lt (palette : Palette) (request : PairRequest) :
    request.gridPair palette < basePairCount := by
  have hforeground := palette.nearestBase_isBase (request.ids palette).1
  have hbackground := palette.nearestBase_isBase (request.ids palette).2
  unfold ColorId.IsBase at hforeground hbackground
  show (_ : Nat) < 64
  rw [PairRequest.gridPair]
  omega

theorem Follows.listAnswer_lt (hfollows : table.Follows palette capabilities settings asked)
    (request : PairRequest) :
    listAnswer palette capabilities settings (capabilities.granted asked) request <
      table.size := by
  rw [listAnswer, hfollows.size_eq]
  split
  · next place hplace =>
      obtain ⟨hbound, -⟩ := List.idxOf?_eq_some_iff.mp hplace
      exact Nat.add_lt_add_left hbound _
  · exact Nat.lt_of_lt_of_le (gridPair_lt palette request)
      (Nat.le_trans capabilities.basePairCount_le_firstDynamic (Nat.le_add_right ..))

theorem Follows.colors?_listAnswer
    (hfollows : table.Follows palette capabilities settings asked) {request : PairRequest}
    (hgranted : request.colors palette settings ∈ capabilities.granted asked) :
    table.colors? (listAnswer palette capabilities settings (capabilities.granted asked)
      request) = some (request.colors palette settings) := by
  obtain ⟨place, hplace⟩ := Option.isSome_iff_exists.mp (List.isSome_idxOf?.mpr hgranted)
  obtain ⟨hbound, hcolors, -⟩ := List.idxOf?_eq_some_iff.mp hplace
  have hpast : (capabilities.reservedPairs settings).length ≤
      capabilities.firstDynamic + place := by
    rw [capabilities.length_reservedPairs]
    exact Nat.le_add_right ..
  rw [listAnswer, hplace, colors?, ← Array.getElem?_toList, hfollows.pairs_eq,
    List.getElem?_append_right hpast, capabilities.length_reservedPairs,
    Nat.add_sub_cancel_left, List.getElem?_eq_getElem hbound, hcolors]

theorem serve_append (table : PairTable) (first second : List PairRequest) :
    table.serve (first ++ second) =
      ((table.serve first).1 ++ ((table.serve first).2.serve second).1,
        ((table.serve first).2.serve second).2) := by
  induction first generalizing table with
  | nil => rfl
  | cons request rest ih => simp only [List.cons_append, serve, ih]

/-- How the answers to `asked`, requested one after the other from a table with only the
reserved pairs on, and the table they lead to are read off the list. -/
structure RefinesList (palette : Palette) (capabilities : Capabilities)
    (settings : ColorSettings) (asked : List PairRequest) (answers : List PairId)
    (table : PairTable) (granted : List PairColors) : Prop where
  granted_eq : granted = (asked.map (·.colors palette settings)).eraseDups.take
    (capabilities.colorPairs - capabilities.firstDynamic)
  nodup : granted.Nodup
  reserves : capabilities.Reserves settings (capabilities.reservedPairs settings)
  pairs_eq : table.pairs.toList = capabilities.reservedPairs settings ++ granted
  size_le : table.size ≤ max 64 capabilities.colorPairs
  answers_eq : answers = asked.map (listAnswer palette capabilities settings granted)
  colors?_eq : ∀ request ∈ asked, request.colors palette settings ∈ granted →
    table.colors? (listAnswer palette capabilities settings granted request) =
      some (request.colors palette settings)
  /-- One request on the way: its pair is in the table at once, the table only grows at
  its end, and it stays as it is unless the colors get a place in the list. -/
  step : ∀ before request after, asked = before ++ request :: after →
    let earlier := ((reserve palette capabilities settings).serve before).2
    let pair := (earlier.answer request).1
    let later := (earlier.answer request).2
    pair < later.size ∧
      earlier.pairs.toList <+: later.pairs.toList ∧
      later.pairs.toList <+: table.pairs.toList ∧
      (request.colors palette settings ∉ granted → later = earlier)

theorem refinesList_serve (palette : Palette) (capabilities : Capabilities)
    (settings : ColorSettings) (asked : List PairRequest) :
    RefinesList palette capabilities settings asked
      ((reserve palette capabilities settings).serve asked).1
      ((reserve palette capabilities settings).serve asked).2
      (capabilities.granted (asked.map (·.colors palette settings))) := by
  have hfresh := follows_reserve palette capabilities settings
  obtain ⟨hall, hanswers⟩ := hfresh.serve asked
  rw [List.nil_append] at hall hanswers
  constructor
  case granted_eq => rfl
  case nodup => exact granted_nodup ..
  case reserves => exact capabilities.reserves_reservedPairs settings
  case pairs_eq => exact hall.pairs_eq
  case size_le => exact hall.size_le
  case answers_eq => exact hanswers
  case colors?_eq => exact fun request _ hgranted => hall.colors?_listAnswer hgranted
  case step =>
      intro before request after hasked earlier pair later
      obtain ⟨hearlier, -⟩ := hfresh.serve before
      rw [List.nil_append] at hearlier
      obtain ⟨hlater, hanswer, hsame⟩ := hearlier.answer request
      have hcolors : asked.map (·.colors palette settings) =
          before.map (·.colors palette settings) ++ [request.colors palette settings] ++
            after.map (·.colors palette settings) := by
        simp [hasked]
      rw [hcolors] at hall ⊢
      refine ⟨?_, hearlier.pairs_prefix_pairs hlater, hlater.pairs_prefix_pairs hall,
        fun hlate => ?_⟩
      · have hbound := hlater.listAnswer_lt request
        rw [← hanswer] at hbound
        exact hbound
      · apply hsame
        intro hgranted
        exact hlate ((granted_prefix_granted_append capabilities _ _).subset hgranted)

theorem answer_palette (table : PairTable) (request : PairRequest) :
    (table.answer request).2.palette = table.palette := by
  rw [answer_eq_request, PairTable.request]
  split
  · rfl
  · dsimp only
    split
    · rfl
    · split <;> rfl

end PairTable

end LinePainter
