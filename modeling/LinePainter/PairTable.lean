import Std.Data.HashMap
import LinePainter.Palette.Basic
import LinePainter.Style

namespace LinePainter

/-! The color pairs a terminal was told about. Pair 0 is the terminal's own pair and
pairs 1 to 63 are the base colors in all combinations. A terminal with many colors
also gets a block of cube colors. Later pairs are handed out on request, and the
same colors get the same pair again. When the table is full, or the terminal offers
only the base pairs, a request is answered with the nearest base pair. -/

structure Capabilities where
  colors : Nat := 256
  colorPairs : Nat := 32767
  deriving DecidableEq

structure ColorSettings where
  defaultColors : Bool := false
  dimText : Bool := false
  deriving DecidableEq

structure PairColors where
  foreground : CellColor
  background : CellColor
  deriving DecidableEq, Hashable

namespace PairColors

def terminalDefault : PairColors := ⟨.terminalDefault, .terminalDefault⟩

/-- The colors asked for, a white foreground and a black background giving way to
the terminal's own colors when the settings say so. -/
def resolve (settings : ColorSettings) (foreground background : ColorId) : PairColors where
  foreground :=
    if settings.defaultColors ∧ foreground = .white then .terminalDefault
    else .indexed foreground
  background :=
    if settings.defaultColors ∧ background = .black then .terminalDefault
    else .indexed background

end PairColors

inductive Tier where
  | basic
  | dynamic
  deriving DecidableEq

def basePairCount : Nat := 64

def cubePairCount : Nat := 54

def basePair (foreground background : ColorId) : PairId :=
  8 * (foreground.val % 8) + background.val % 8

def baseBlock : List PairColors :=
  .terminalDefault ::
    (List.range' 1 (basePairCount - 1)).map fun pair =>
      ⟨.indexed (Fin.ofNat 256 (pair / 8)), .indexed (Fin.ofNat 256 (pair % 8))⟩

/-- Every level of red with every other level of blue and green, over black. -/
def cubeBlock (settings : ColorSettings) : List PairColors :=
  let background := (PairColors.resolve settings .black .black).background
  (List.range 6).flatMap fun red =>
    [1, 3, 5].flatMap fun blue =>
      [1, 3, 5].map fun green =>
        ⟨.indexed (Fin.ofNat 256 (16 + 36 * red + 6 * green + blue)), background⟩

namespace Capabilities

def tier (capabilities : Capabilities) : Tier :=
  if capabilities.colorPairs ≤ basePairCount then .basic else .dynamic

/-- Whether there is room for all of the cube block. -/
def HasCube (capabilities : Capabilities) : Prop :=
  256 ≤ capabilities.colors ∧ basePairCount + cubePairCount ≤ capabilities.colorPairs

instance (capabilities : Capabilities) : Decidable capabilities.HasCube :=
  inferInstanceAs (Decidable (_ ∧ _))

def firstDynamic (capabilities : Capabilities) : PairId :=
  if capabilities.HasCube then basePairCount + cubePairCount else basePairCount

def reservedPairs (capabilities : Capabilities) (settings : ColorSettings) :
    List PairColors :=
  baseBlock ++ if capabilities.HasCube then cubeBlock settings else []

end Capabilities

/-- The pairs by id, and the ids of those that were handed out on request. -/
structure PairTable where
  palette : Palette
  capabilities : Capabilities
  settings : ColorSettings
  pairs : Array PairColors
  issued : Std.HashMap PairColors PairId

namespace PairTable

def reserve (palette : Palette) (capabilities : Capabilities) (settings : ColorSettings) :
    PairTable where
  palette
  capabilities
  settings
  pairs := (capabilities.reservedPairs settings).toArray
  issued := ∅

def tier (table : PairTable) : Tier := table.capabilities.tier

def firstDynamic (table : PairTable) : PairId := table.capabilities.firstDynamic

def size (table : PairTable) : Nat := table.pairs.size

def colors? (table : PairTable) (pair : PairId) : Option PairColors :=
  table.pairs[pair]?

def cubePair? (table : PairTable) (index : Nat) : Option PairId :=
  if table.capabilities.HasCube ∧ index < cubePairCount then
    some (basePairCount + index)
  else none

def nearestBasePair (table : PairTable) (foreground background : ColorId) : PairId :=
  basePair (table.palette.nearestBase foreground) (table.palette.nearestBase background)

/-- The pair that shows `foreground` on `background`. -/
def request (table : PairTable) (foreground background : ColorId) : PairId × PairTable :=
  match table.tier with
  | .basic => (table.nearestBasePair foreground background, table)
  | .dynamic =>
      let colors := PairColors.resolve table.settings foreground background
      match table.issued[colors]? with
      | some pair => (pair, table)
      | none =>
          if table.size < table.capabilities.colorPairs then
            (table.size,
              { table with
                pairs := table.pairs.push colors
                issued := table.issued.insert colors table.size })
          else (table.nearestBasePair foreground background, table)

/-- The pair for the palette colors nearest to the given ones, black standing in for
a missing background. -/
def requestColors (table : PairTable) (foreground : Rgb) (background : Option Rgb) :
    PairId × PairTable :=
  table.request (table.palette.matchColor foreground)
    (match background with
      | some color => table.palette.matchColor color
      | none => .black)

/-- The answers to several requests, asked from left to right. -/
def requestAll (table : PairTable) : List (ColorId × ColorId) → List PairId × PairTable
  | [] => ([], table)
  | (foreground, background) :: rest =>
      let (pair, table) := table.request foreground background
      let (pairs, table) := requestAll table rest
      (pair :: pairs, table)

end PairTable

def highlightLooks : List Look :=
  let bold : Style := { bold := true }
  [ ⟨.plain, basePair .blue .black⟩, ⟨.plain, basePair .cyan .black⟩,
    ⟨.plain, basePair .green .black⟩, ⟨.plain, basePair .magenta .black⟩,
    ⟨.plain, basePair .black .white⟩, ⟨.plain, basePair .cyan .black⟩,
    ⟨bold, basePair .yellow .magenta⟩, ⟨bold, basePair .magenta .cyan⟩ ]

def highlightLook (index : Nat) : Look :=
  highlightLooks[index % 8]?.getD .plain

end LinePainter
