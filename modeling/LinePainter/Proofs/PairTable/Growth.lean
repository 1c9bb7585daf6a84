import LinePainter.Proofs.PairTable.ListModel

namespace LinePainter

namespace PairTable

/-! Requests only ever add pairs to a table, at its end. An id stands for the same colors
for as long as the table lives. -/

/-- The later table has all pairs of the earlier one, at the same places. -/
def Extends (earlier later : PairTable) : Prop :=
  earlier.pairs.toList <+: later.pairs.toList

theorem Extends.refl (table : PairTable) : table.Extends table :=
  List.prefix_refl _

theorem Extends.trans {first second third : PairTable} (hsecond : first.Extends second)
    (hthird : second.Extends third) : first.Extends third :=
  List.IsPrefix.trans hsecond hthird

theorem Extends.size_le {earlier later : PairTable} (hextends : earlier.Extends later) :
    earlier.size ≤ later.size :=
  List.IsPrefix.length_le hextends

theorem Extends.colors?_eq {earlier later : PairTable} (hextends : earlier.Extends later)
    {pair : PairId} (hpair : pair < earlier.size) :
    later.colors? pair = earlier.colors? pair := by
  obtain ⟨more, hlater⟩ := hextends
  rw [colors?, colors?, ← Array.getElem?_toList, ← Array.getElem?_toList, ← hlater,
    List.getElem?_append_left hpair]

/-- The table of a generation of pairs, whatever has been asked for in it. -/
def InUse (table : PairTable) : Prop :=
  ∃ asked, table.Follows table.palette table.capabilities table.settings asked

/-- What comes of asking: the table is still in use, has no pair less than before, and
the pair given as an answer is in it. -/
structure Answered (before : PairTable) (pair : PairId) (after : PairTable) : Prop where
  inUse : after.InUse
  grows : before.Extends after
  pair_lt : pair < after.size

variable {table : PairTable}

theorem Follows.inUse {palette : Palette} {capabilities : Capabilities}
    {settings : ColorSettings} {asked : List PairColors}
    (hfollows : table.Follows palette capabilities settings asked) : table.InUse := by
  refine ⟨asked, ?_⟩
  rwa [hfollows.palette_eq, hfollows.capabilities_eq, hfollows.settings_eq]

theorem InUse.basePairCount_le_size (hinUse : table.InUse) : basePairCount ≤ table.size := by
  obtain ⟨asked, hfollows⟩ := hinUse
  rw [hfollows.size_eq]
  exact Nat.le_trans table.capabilities.basePairCount_le_firstDynamic (Nat.le_add_right ..)

theorem InUse.size_pos (hinUse : table.InUse) : 0 < table.size :=
  Nat.lt_of_lt_of_le (by decide) hinUse.basePairCount_le_size

theorem InUse.answer (hinUse : table.InUse) (request : PairRequest) :
    table.Answered (table.answer request).1 (table.answer request).2 := by
  obtain ⟨asked, hfollows⟩ := hinUse
  obtain ⟨hlonger, hanswer, -⟩ := hfollows.answer request
  refine ⟨hlonger.inUse, hfollows.pairs_prefix_pairs hlonger, ?_⟩
  rw [hanswer]
  exact hlonger.listAnswer_lt request

/-- Several requests. An early answer is still in the table when the last one is given. -/
theorem InUse.requestAll (hinUse : table.InUse) (inks : List (ColorId × ColorId)) :
    (table.requestAll inks).2.InUse ∧ table.Extends (table.requestAll inks).2 ∧
      ∀ pair ∈ (table.requestAll inks).1, pair < (table.requestAll inks).2.size := by
  induction inks generalizing table with
  | nil => exact ⟨hinUse, .refl table, fun _ hmem => nomatch hmem⟩
  | cons ink rest ih =>
      have hfirst := hinUse.answer (.indexed ink.1 ink.2)
      obtain ⟨hlast, hextends, hpairs⟩ := ih hfirst.inUse
      refine ⟨hlast, hfirst.grows.trans hextends, fun pair hpair => ?_⟩
      rcases List.mem_cons.mp hpair with rfl | hrest
      · exact Nat.lt_of_lt_of_le hfirst.pair_lt hextends.size_le
      · exact hpairs pair hrest

end PairTable

end LinePainter
