import LinePainter.Painting
import LinePainter.Proofs.Frame.Runs
import LinePainter.Proofs.Line.Edits
import LinePainter.Proofs.Line.StampOrder
import LinePainter.Proofs.PairTable.Meaning

namespace LinePainter

/-! Painting lays the strip of a line, turns its colors into pairs and writes it. What is
said here holds of any strip, so it does not matter where attributes were clipped. -/

namespace PairTable

theorem length_requestAll (table : PairTable) (inks : List (ColorId × ColorId)) :
    (table.requestAll inks).1.length = inks.length := by
  induction inks generalizing table with
  | nil => rfl
  | cons ink rest ih => exact congrArg Nat.succ (ih _)

end PairTable

namespace Strip

/-! Stamping treats every column by itself. -/

theorem length_stampAttribute (expansion : Expansion) (windowStart width : Nat)
    (strip : Strip) (attr : Attribute) :
    (stampAttribute expansion windowStart width strip attr).length = strip.length := by
  unfold stampAttribute
  split
  · exact List.length_mapIdx
  · rfl

theorem length_base (expansion : Expansion) (windowStart width : Nat) (look : Look) :
    (base expansion windowStart width look).length = width := by
  simp only [base, List.length_map, List.length_append, List.length_replicate,
    List.length_take]
  omega

theorem length_ofLine (line : Line) (windowStart width : Nat) (look : Look) :
    (ofLine line windowStart width look).length = width := by
  have hfold (attributes : List Attribute) (strip : Strip) :
      (attributes.foldl
        (stampAttribute (Expansion.ofText line.text) windowStart width) strip).length =
        strip.length := by
    induction attributes generalizing strip with
    | nil => rfl
    | cons attr rest ih => rw [List.foldl_cons, ih, length_stampAttribute]
  rw [ofLine, hfold, length_base]

theorem forall_mem_stampAttribute {Holds : Column → Prop} {expansion : Expansion}
    {windowStart width : Nat} {strip : Strip} {attr : Attribute}
    (hstrip : ∀ column ∈ strip, Holds column)
    (hstamp : ∀ column, Holds column → Holds (attr.directive.stamp column)) :
    ∀ column ∈ strip.stampAttribute expansion windowStart width attr, Holds column := by
  unfold stampAttribute
  split
  · intro column hcolumn
    obtain ⟨position, hposition, rfl⟩ := List.mem_mapIdx.mp hcolumn
    have hheld := hstrip _ (List.getElem_mem hposition)
    split
    · exact hstamp _ hheld
    · exact hheld
  · exact hstrip

/-- What holds of text in its look and is kept by every attribute of the line holds all over
the strip, wherever the attributes are. -/
theorem forall_mem_ofLine {Holds : Column → Prop} {line : Line} {look : Look}
    (hbase : ∀ glyph, Holds { cell := Cell.ofChar glyph look })
    (hstamp : ∀ attr ∈ line.attributes, ∀ column, Holds column →
      Holds (attr.directive.stamp column)) (windowStart width : Nat) :
    ∀ column ∈ ofLine line windowStart width look, Holds column := by
  have hfold (attributes : List Attribute) (hmem : ∀ attr ∈ attributes, attr ∈ line.attributes)
      (strip : Strip) (hstrip : ∀ column ∈ strip, Holds column) :
      ∀ column ∈ attributes.foldl
        (stampAttribute (Expansion.ofText line.text) windowStart width) strip, Holds column := by
    induction attributes generalizing strip with
    | nil => exact hstrip
    | cons attr rest ih =>
        obtain ⟨hfirst, hrest⟩ := List.forall_mem_cons.mp hmem
        exact ih hrest _ (forall_mem_stampAttribute hstrip (hstamp attr hfirst))
  refine hfold _ (fun attr => Line.mem_stampOrder.mp) _ fun column hcolumn => ?_
  obtain ⟨glyph, -, rfl⟩ := List.mem_map.mp hcolumn
  exact hbase glyph

theorem map_stampRun {value : Type} {directive : Directive} (strip : Strip) (start stop : Nat)
    (read : Column → value) (change : value → value)
    (hstamp : ∀ column, read (directive.stamp column) = change (read column)) :
    (strip.stampRun start stop directive).map read =
      (strip.map read).mapIdx fun position old =>
        if start ≤ position ∧ position < stop then change old else old := by
  apply List.ext_getElem?
  intro position
  rw [List.getElem?_map, stampRun, List.getElem?_mapIdx, List.getElem?_mapIdx,
    List.getElem?_map, Option.map_map, Option.map_map]
  congr 1
  funext column
  simp only [Function.comp_apply, apply_ite read, hstamp]

theorem map_stampRun_of_kept {value : Type} {directive : Directive} (strip : Strip)
    (start stop : Nat) {read : Column → value}
    (hstamp : ∀ column, read (directive.stamp column) = read column) :
    (strip.stampRun start stop directive).map read = strip.map read := by
  have hmap := strip.map_stampRun start stop read id hstamp
  simp only [id_eq, ite_self] at hmap
  rw [hmap, List.mapIdx_eq_iff]
  intro position
  rw [Option.map_id']

/-! The pairs that the columns get, and what they mean. -/

def pairs (strip : Strip) (table : PairTable) : List PairId × PairTable :=
  if strip.any (·.isInked) then table.requestAll (strip.map (·.ink))
  else (strip.map (·.cell.look.pair), table)

/-- What the columns ask for. -/
def requests (strip : Strip) : List PairRequest :=
  if strip.any (·.isInked) then
    (strip.map (·.ink)).map fun ink => .indexed ink.1 ink.2
  else []

/-- The colors shown, one column after the other. -/
def meanings (strip : Strip) (table : PairTable) : List (Option PairColors) :=
  if strip.any (·.isInked) then
    (strip.map (·.ink)).map fun ink =>
      (PairRequest.indexed ink.1 ink.2).meaning? table.palette table.capabilities
        table.settings
  else strip.map fun column => table.colors? column.cell.look.pair

variable (strip : Strip) {table later : PairTable}

theorem flatten_eq (table : PairTable) :
    strip.flatten table =
      (List.zipWith (fun column pair => column.cell.withPair pair) strip
        (strip.pairs table).1, (strip.pairs table).2) := by
  unfold flatten pairs
  split
  · rfl
  · rw [List.zipWith_map_right, List.zipWith_self]
    rfl

theorem length_pairs (table : PairTable) : (strip.pairs table).1.length = strip.length := by
  unfold pairs
  split
  · rw [PairTable.length_requestAll, List.length_map]
  · exact List.length_map _

theorem length_flatten (table : PairTable) : (strip.flatten table).1.length = strip.length := by
  rw [flatten_eq, List.length_zipWith, length_pairs, Nat.min_self]

theorem mem_pairs_of_mem_flatten {cell : Cell} (hcell : cell ∈ (strip.flatten table).1) :
    cell.look.pair ∈ (strip.pairs table).1 := by
  rw [flatten_eq] at hcell
  obtain ⟨position, hposition⟩ := List.getElem?_of_mem hcell
  rw [List.getElem?_zipWith_eq_some] at hposition
  obtain ⟨column, pair, -, hpair, rfl⟩ := hposition
  exact List.mem_of_getElem? hpair

theorem pairs_snd_eq_serve (table : PairTable) :
    (strip.pairs table).2 = (table.serve strip.requests).2 := by
  unfold pairs requests
  split
  · rw [PairTable.requestAll_eq_serve]
  · rfl

theorem length_requests_le : strip.requests.length ≤ strip.length := by
  unfold requests
  split <;> simp

theorem inUse_pairs (hinUse : table.InUse) :
    (strip.pairs table).2.InUse ∧ table.Extends (strip.pairs table).2 := by
  unfold pairs
  split
  · obtain ⟨hlast, hgrows, -⟩ := hinUse.requestAll (strip.map (·.ink))
    exact ⟨hlast, hgrows⟩
  · exact ⟨hinUse, .refl table⟩

theorem pairs_again (hinUse : table.InUse) :
    strip.pairs (strip.pairs table).2 = strip.pairs table := by
  unfold pairs
  split
  · exact hinUse.requestAll_again _
  · rfl

theorem flatten_again (hinUse : table.InUse) :
    strip.flatten (strip.flatten table).2 = strip.flatten table := by
  rw [flatten_eq, flatten_eq, pairs_again strip hinUse]

theorem map_colors?_pairs (hinUse : table.InUse) (hroom : (strip.pairs table).2.HasRoom) :
    (strip.pairs table).1.map (strip.pairs table).2.colors? = strip.meanings table := by
  unfold meanings
  unfold pairs at hroom ⊢
  by_cases hinked : strip.any (·.isInked) = true
  · rw [if_pos hinked] at hroom ⊢
    rw [if_pos hinked]
    exact hinUse.colors?_requestAll hroom
  · rw [if_neg hinked, if_neg hinked, List.map_map]
    rfl

variable {strip}

theorem lt_of_mem_pairs (hinUse : table.InUse)
    (hknown : ∀ column ∈ strip, column.cell.look.pair < table.size) {pair : PairId}
    (hpair : pair ∈ (strip.pairs table).1) : pair < (strip.pairs table).2.size := by
  revert hpair
  unfold pairs
  split
  · intro hpair
    obtain ⟨-, -, hanswers⟩ := hinUse.requestAll (strip.map (·.ink))
    exact hanswers pair hpair
  · intro hpair
    obtain ⟨column, hcolumn, rfl⟩ := List.mem_map.mp hpair
    exact hknown column hcolumn

/-- The colors do not depend on what was asked for before. -/
theorem meanings_of_leadsTo (hleads : table.LeadsTo later)
    (hknown : ∀ column ∈ strip, column.cell.look.pair < table.size) :
    strip.meanings later = strip.meanings table := by
  unfold meanings
  split
  · rw [hleads.palette_eq, hleads.capabilities_eq, hleads.settings_eq]
  · exact List.map_congr_left fun column hcolumn =>
      hleads.grows.colors?_eq (hknown column hcolumn)

end Strip

namespace Span

theorem windowBounds_of_le {start stop : Nat} (hwindow : start ≤ stop) :
    windowBounds ⟨start, some stop⟩ = .ok (start, stop - start) :=
  if_neg (Nat.not_lt.mpr hwindow)

theorem windowBounds_of_lt {start stop : Nat} (hinverted : stop < start) :
    windowBounds ⟨start, some stop⟩ = .error (.invertedWindow ⟨start, some stop⟩) :=
  if_pos hinverted

theorem eq_of_windowBounds {window : Span} {start length : Nat}
    (hbounds : window.windowBounds = .ok (start, length)) :
    window = ⟨start, some (start + length)⟩ := by
  obtain ⟨windowStart, stop⟩ := window
  cases stop with
  | none => cases hbounds
  | some stop =>
      rcases Nat.lt_or_ge stop windowStart with hinverted | hordered
      · rw [windowBounds_of_lt hinverted] at hbounds
        cases hbounds
      · rw [windowBounds_of_le hordered] at hbounds
        cases hbounds
        rw [Nat.add_sub_cancel' hordered]

end Span

namespace Frame

/-- What a line that is not rejected gives the columns from `start` on, and the pairs after
it. -/
def rowOf (frame : Frame) (theme : Theme) (x y : Nat) (line : Line) (start length : Nat)
    (role : Role) : List Cell × PairTable :=
  (Strip.ofLine line start (min length (frame.room x y)) (theme.look role)).flatten theme.pairs

theorem paint_eq (frame : Frame) (theme : Theme) (x y : Nat) (line : Line) (window : Span)
    (role : Role) :
    frame.paint theme x y line window role =
      match window.windowBounds, line.fault? with
      | .error error, _ => .error error
      | .ok _, some fault => .error (.spanFault fault)
      | .ok (start, length), none =>
          let row := frame.rowOf theme x y line start length role
          .ok (frame.write x y row.1, { theme with pairs := row.2 }) := by
  rw [paint]
  cases window.windowBounds with
  | error error => rfl
  | ok bounds => cases line.fault? <;> rfl

theorem paint_of_valid {line : Line} {start stop : Nat} (hvalid : line.fault? = none)
    (hwindow : start ≤ stop) (frame : Frame) (theme : Theme) (x y : Nat) (role : Role) :
    let row := frame.rowOf theme x y line start (stop - start) role
    frame.paint theme x y line ⟨start, some stop⟩ role =
      .ok (frame.write x y row.1, { theme with pairs := row.2 }) := by
  rw [paint_eq, Span.windowBounds_of_le hwindow, hvalid]

theorem length_rowOf (frame : Frame) (theme : Theme) (x y : Nat) (line : Line)
    (start length : Nat) (role : Role) :
    (frame.rowOf theme x y line start length role).1.length = min length (frame.room x y) := by
  rw [rowOf, Strip.length_flatten, Strip.length_ofLine]

end Frame

end LinePainter
