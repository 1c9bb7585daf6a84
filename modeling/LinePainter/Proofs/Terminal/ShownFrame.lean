import Mathlib.Data.List.SplitBy
import Mathlib.Tactic.IntervalCases
import LinePainter.Proofs.Frame.Runs
import LinePainter.Proofs.Terminal.Emulator
import LinePainter.Terminal.Screen

namespace LinePainter

namespace Pen

/-! How a pen comes to write in a look. -/

/-- Standout is bold and reverse. Reverse on top of standout is not reverse. -/
def ofLook (look : Look) (colors : PairColors) : Pen where
  bold := look.style.bold || look.style.standout
  dim := look.style.dim
  italic := look.style.italic
  underline := look.style.underline
  blink := look.style.blink
  reverse := look.style.reverse != look.style.standout
  hidden := look.style.hidden
  foreground := colors.foreground
  background := colors.background

theorem select_of_change? {pen changed : Pen} {parameter : Nat}
    (hchange : pen.change? parameter = some changed) (rest : List Nat) :
    pen.select (parameter :: rest) = changed.select rest := by
  conv_lhs => unfold select
  rw [hchange]

theorem select_of_extended {pen : Pen} {parameter : Nat}
    (hchange : pen.change? parameter = none) (id : Nat) :
    pen.select [parameter, 5, id] = pen.extendedChange? parameter id := by
  conv_lhs => unfold select
  rw [hchange]
  exact Option.bind_fun_some _

/-- A parameter that is sent if a flag is up, and that puts the flag up in the pen. -/
theorem select_flag {parameter : Nat} (pen : Bool → Pen)
    (hchange : (pen false).change? parameter = some (pen true)) (flag : Bool)
    (rest : List Nat) :
    (pen false).select ((if flag then [parameter] else []) ++ rest) =
      (pen flag).select rest := by
  cases flag with
  | false => rfl
  | true => exact select_of_change? hchange rest

theorem select_style (style : Style) :
    plain.select style.parameters =
      some {
        bold := style.bold || style.standout
        dim := style.dim
        italic := style.italic
        underline := style.underline
        blink := style.blink
        reverse := style.reverse != style.standout
        hidden := style.hidden } := by
  rw [Style.parameters, ← List.append_nil (if style.hidden then [8] else [])]
  simp only [List.append_assoc]
  refine (select_flag (fun bold => { bold }) rfl _ _).trans ?_
  refine (select_flag (fun dim => { bold := _, dim }) rfl _ _).trans ?_
  refine (select_flag (fun italic => { bold := _, dim := _, italic }) rfl _ _).trans ?_
  refine (select_flag (fun underline =>
    { bold := _, dim := _, italic := _, underline }) rfl _ _).trans ?_
  refine (select_flag (fun blink =>
    { bold := _, dim := _, italic := _, underline := _, blink }) rfl _ _).trans ?_
  refine (select_flag (fun reverse =>
    { bold := _, dim := _, italic := _, underline := _, blink := _, reverse }) rfl _ _).trans ?_
  exact select_flag (fun hidden =>
    { bold := _, dim := _, italic := _, underline := _, blink := _, reverse := _, hidden })
    rfl _ _

theorem select_foreground (pen : Pen) (color : CellColor) :
    pen.select color.foregroundParameters = some { pen with foreground := color } := by
  cases color with
  | terminalDefault => rfl
  | indexed id =>
      obtain ⟨id, hid⟩ := id
      rw [CellColor.foregroundParameters]
      dsimp only
      split
      · interval_cases id <;> rfl
      · split
        · interval_cases id <;> rfl
        · rw [select_of_extended rfl, extendedChange?, dif_pos hid, if_pos rfl]

theorem select_background (pen : Pen) (color : CellColor) :
    pen.select color.backgroundParameters = some { pen with background := color } := by
  cases color with
  | terminalDefault => rfl
  | indexed id =>
      obtain ⟨id, hid⟩ := id
      rw [CellColor.backgroundParameters]
      dsimp only
      split
      · interval_cases id <;> rfl
      · split
        · interval_cases id <;> rfl
        · rw [select_of_extended rfl, extendedChange?, dif_pos hid, if_neg (by decide),
            if_pos rfl]

end Pen

namespace Display

theorem obeyAll_style (display : Display) (style : Style) :
    display.obeyAll style.signals =
      (display.pen.select style.parameters).map fun pen => { display with pen } := by
  rw [Style.signals]
  split
  · next hplain =>
      rw [hplain]
      rfl
  · exact (obeyAll_cons ..).trans (Option.bind_fun_some _)

/-- Whatever the pen was before, it writes in the look afterwards. -/
theorem obeyAll_look (display : Display) (look : Look) (colorsOf : PairId → PairColors) :
    display.obeyAll (look.signals colorsOf) =
      some { display with pen := .ofLook look (colorsOf look.pair) } := by
  have hreset : display.obey .reset = some { display with pen := .plain } := rfl
  rw [Look.signals, List.cons_append, obeyAll_cons, hreset, Option.bind_some, obeyAll_append,
    obeyAll_style, Pen.select_style]
  simp only [Option.map_some, Option.bind_some, obeyAll_cons, obey, Pen.select_foreground,
    Pen.select_background, obeyAll_nil]
  rfl

/-- The display after marks were put next to each other, from the cursor on. -/
def stamped (display : Display) (marks : List (Char × Pen)) : Display :=
  { display with
    column := display.column + marks.length
    shown := fun x y =>
      if y = display.row ∧ display.column ≤ x ∧ x < display.column + marks.length then
        marks[x - display.column]?
      else display.shown x y }

@[simp] theorem row_stamped (display : Display) (marks : List (Char × Pen)) :
    (display.stamped marks).row = display.row := rfl

@[simp] theorem column_stamped (display : Display) (marks : List (Char × Pen)) :
    (display.stamped marks).column = display.column + marks.length := rfl

theorem shown_stamped (display : Display) (marks : List (Char × Pen)) (x y : Nat) :
    (display.stamped marks).shown x y =
      if y = display.row ∧ display.column ≤ x ∧ x < display.column + marks.length then
        marks[x - display.column]?
      else display.shown x y := rfl

@[simp] theorem stamped_nil (display : Display) : display.stamped [] = display := by
  ext x y : 3
  · rfl
  · rfl
  · rfl
  · rw [shown_stamped, if_neg]
    rw [List.length_nil]
    omega

theorem stamped_append (display : Display) (first second : List (Char × Pen)) :
    (display.stamped first).stamped second = display.stamped (first ++ second) := by
  ext x y : 3
  · rfl
  · simp [Nat.add_assoc]
  · rfl
  · rw [shown_stamped, shown_stamped, shown_stamped, row_stamped, column_stamped,
      List.length_append, List.getElem?_append]
    by_cases hsecond : y = display.row ∧ display.column + first.length ≤ x ∧
        x < display.column + first.length + second.length
    · rw [if_pos hsecond, if_pos (by omega), if_neg (by omega), Nat.sub_sub]
    · rw [if_neg hsecond]
      by_cases hfirst : y = display.row ∧ display.column ≤ x ∧
          x < display.column + first.length
      · rw [if_pos hfirst, if_pos (by omega), if_pos (by omega)]
      · rw [if_neg hfirst, if_neg (by omega)]

theorem print_eq_stamped (display : Display) (char : Char) :
    display.print char = display.stamped [(char, display.pen)] := by
  ext x y : 3
  · rfl
  · rfl
  · rfl
  · rw [shown_stamped, shown_print, List.length_singleton]
    by_cases hhere : y = display.row ∧ x = display.column
    · rw [if_pos hhere, if_pos (by omega), hhere.2, Nat.sub_self]
      rfl
    · rw [if_neg hhere, if_neg (by omega)]

end Display

namespace CellColor

theorem foregroundParameters_ne_nil (color : CellColor) : color.foregroundParameters ≠ [] := by
  unfold foregroundParameters
  split
  · split
    · exact List.cons_ne_nil _ _
    · split <;> exact List.cons_ne_nil _ _
  · exact List.cons_ne_nil _ _

theorem backgroundParameters_ne_nil (color : CellColor) : color.backgroundParameters ≠ [] := by
  unfold backgroundParameters
  split
  · split
    · exact List.cons_ne_nil _ _
    · split <;> exact List.cons_ne_nil _ _
  · exact List.cons_ne_nil _ _

end CellColor

namespace Look

theorem legible_signals (look : Look) (colorsOf : PairId → PairColors) :
    ∀ signal ∈ look.signals colorsOf, signal.Legible := by
  intro signal hsignal
  rw [signals, List.mem_append, List.mem_cons, List.mem_cons, List.mem_singleton] at hsignal
  rcases hsignal with (rfl | hstyle) | rfl | rfl
  · exact List.cons_ne_nil _ _
  · rw [Style.signals] at hstyle
    split at hstyle
    · cases hstyle
    · next hparameters =>
        rw [List.mem_singleton.mp hstyle]
        exact hparameters
  · exact CellColor.foregroundParameters_ne_nil _
  · exact CellColor.backgroundParameters_ne_nil _

end Look

namespace Cell

/-- How a cell shows. A codepoint that is no character shows as a space. -/
def mark (colorsOf : PairId → PairColors) (cell : Cell) : Char × Pen :=
  (cell.charD ' ', .ofLook cell.look (colorsOf cell.look.pair))

theorem charD_ne_escape {cell : Cell} (hcodepoint : cell.codepoint ≠ 0x1b) :
    cell.charD ' ' ≠ '\x1b' := by
  rw [charD]
  cases hchar : cell.char? with
  | none => decide
  | some char =>
      rintro rfl
      exact hcodepoint (char?_eq_some_iff.mp hchar)

/-- The signals for a row in which every cell has its look set up anew. -/
def apartSignals (colorsOf : PairId → PairColors) (cells : List Cell) : List Signal :=
  (cells.map ([·])).flatMap (runSignals colorsOf) ++ [.reset]

theorem legible_runSignals (colorsOf : PairId → PairColors) {cells : List Cell}
    (hcells : ∀ cell ∈ cells, cell.charD ' ' ≠ '\x1b') :
    ∀ signal ∈ runSignals colorsOf cells, signal.Legible := by
  intro signal hsignal
  cases cells with
  | nil => cases hsignal
  | cons first rest =>
      rcases List.mem_append.mp hsignal with hlook | hprint
      · exact first.look.legible_signals colorsOf signal hlook
      · obtain ⟨cell, hcell, rfl⟩ := List.mem_map.mp hprint
        exact hcells cell hcell

end Cell

namespace Frame

def signalsApart (frame : Frame) (colorsOf : PairId → PairColors) : List Signal :=
  (frame.rows.zipIdx.flatMap fun (row, y) =>
    .cursor 0 y :: Cell.apartSignals colorsOf row) ++ [.reset]

/-- The text for a terminal when no two cells share the signals for their look. -/
def toTerminalApart (frame : Frame) (colorsOf : PairId → PairColors) : String :=
  String.ofList (Signal.encodeAll (frame.signalsApart colorsOf))

end Frame

namespace Display

variable (colorsOf : PairId → PairColors)

theorem obeyAll_cells (display : Display) (cells : List Cell) :
    display.obeyAll (cells.map Cell.signal) =
      some (display.stamped (cells.map fun cell => (cell.charD ' ', display.pen))) := by
  induction cells generalizing display with
  | nil => rw [List.map_nil, List.map_nil, stamped_nil, obeyAll_nil]
  | cons cell rest ih =>
      have hprint : display.obey cell.signal = some (display.print (cell.charD ' ')) := rfl
      rw [List.map_cons, obeyAll_cons, hprint, Option.bind_some, ih, print_eq_stamped,
        stamped_append]
      rfl

/-- Cells that look the same need their look set up only once. -/
theorem obeyAll_run (display : Display) {first : Cell} {rest : List Cell}
    (hsame : ∀ cell ∈ rest, cell.look = first.look) :
    display.obeyAll (Cell.runSignals colorsOf (first :: rest)) =
      some { display.stamped ((first :: rest).map (Cell.mark colorsOf)) with
        pen := .ofLook first.look (colorsOf first.look.pair) } := by
  have hmarks : (first :: rest).map (fun cell =>
      (cell.charD ' ', Pen.ofLook first.look (colorsOf first.look.pair))) =
        (first :: rest).map (Cell.mark colorsOf) := by
    apply List.map_congr_left
    intro cell hcell
    have hlook : cell.look = first.look := by
      rcases List.mem_cons.mp hcell with rfl | hrest
      · rfl
      · exact hsame cell hrest
    rw [Cell.mark, hlook]
  rw [Cell.runSignals, obeyAll_append, obeyAll_look, Option.bind_some, obeyAll_cells]
  dsimp only
  rw [hmarks]
  rfl

/-- Runs of cells, each of which looks the same throughout, show every cell in its own
look. -/
theorem obeyAll_runs (display : Display) {runs : List (List Cell)}
    (hruns : ∀ run ∈ runs, ∃ first rest,
      run = first :: rest ∧ ∀ cell ∈ rest, cell.look = first.look) :
    display.obeyAll (runs.flatMap (Cell.runSignals colorsOf) ++ [.reset]) =
      some { display.stamped (runs.flatten.map (Cell.mark colorsOf)) with pen := .plain } := by
  induction runs generalizing display with
  | nil =>
      rw [List.flatten_nil, List.map_nil, stamped_nil]
      rfl
  | cons run runs ih =>
      obtain ⟨first, rest, rfl, hsame⟩ := hruns run List.mem_cons_self
      have hrest := fun other hother => hruns other (List.mem_cons_of_mem _ hother)
      rw [List.flatMap_cons, List.append_assoc, obeyAll_append,
        obeyAll_run colorsOf display hsame, Option.bind_some, ih _ hrest, List.flatten_cons,
        List.map_append, ← stamped_append]
      rfl

/-- A way to write a row whose signals show every cell in its own look. -/
structure Shows (write : List Cell → List Signal) : Prop where
  obeyed : ∀ (display : Display) (cells : List Cell),
    display.obeyAll (write cells) =
      some { display.stamped (cells.map (Cell.mark colorsOf)) with pen := .plain }
  legible : ∀ cells : List Cell, (∀ cell ∈ cells, cell.charD ' ' ≠ '\x1b') →
    ∀ signal ∈ write cells, signal.Legible

/-- Rows cut into runs of one look are shown. -/
theorem shows_of_runs {cut : List Cell → List (List Cell)}
    (hcut : ∀ cells, (cut cells).flatten = cells)
    (hruns : ∀ cells, ∀ run ∈ cut cells, ∃ first rest,
      run = first :: rest ∧ ∀ cell ∈ rest, cell.look = first.look) :
    Shows colorsOf fun cells =>
      (cut cells).flatMap (Cell.runSignals colorsOf) ++ [.reset] where
  obeyed display cells := by
    rw [obeyAll_runs colorsOf display (hruns cells), hcut]
  legible cells hcells signal hsignal := by
    rcases List.mem_append.mp hsignal with hrun | hreset
    · obtain ⟨run, hmem, hsignal⟩ := List.mem_flatMap.mp hrun
      refine Cell.legible_runSignals colorsOf (fun cell hcell => hcells cell ?_) signal hsignal
      rw [← hcut cells]
      exact List.mem_flatten_of_mem hmem hcell
    · rw [List.mem_singleton.mp hreset]
      exact List.cons_ne_nil _ _

theorem shows_rowSignals : Shows colorsOf (Cell.rowSignals colorsOf) := by
  refine shows_of_runs colorsOf (fun cells => List.flatten_splitBy _ cells) ?_
  intro cells run hrun
  obtain ⟨first, rest, rfl⟩ := List.exists_cons_of_ne_nil (List.ne_nil_of_mem_splitBy hrun)
  have hchain : List.IsChain (fun left right : Cell => left.look = right.look)
      (first :: rest) :=
    (List.isChain_of_mem_splitBy hrun).imp fun _ _ hsame => of_decide_eq_true hsame
  exact ⟨first, rest, rfl, fun cell hcell => (hchain.rel_cons hcell).symm⟩

theorem shows_apartSignals : Shows colorsOf (Cell.apartSignals colorsOf) := by
  refine shows_of_runs colorsOf (fun cells => ?_) ?_
  · rw [← List.flatMap_def, List.flatMap_singleton']
  · intro cells run hrun
    obtain ⟨cell, -, rfl⟩ := List.mem_map.mp hrun
    exact ⟨cell, [], rfl, fun _ hmem => nomatch hmem⟩

/-- The display after rows of marks were drawn, the first of them on row `y`. -/
def drawn (display : Display) (y : Nat) : List (List (Char × Pen)) → Display
  | [] => display
  | marks :: rest =>
      drawn { { display with row := y, column := 0 }.stamped marks with pen := .plain }
        (y + 1) rest

theorem obeyAll_rows {write : List Cell → List Signal} (hwrite : Shows colorsOf write)
    (display : Display) (y : Nat) (rows : List (List Cell)) :
    display.obeyAll ((rows.zipIdx y).flatMap fun (row, y) => .cursor 0 y :: write row) =
      some (display.drawn y (rows.map (·.map (Cell.mark colorsOf)))) := by
  induction rows generalizing display y with
  | nil => rfl
  | cons row rest ih =>
      have hcursor : display.obey (.cursor 0 y) =
          some { display with row := y, column := 0 } := rfl
      rw [List.zipIdx_cons, List.flatMap_cons, List.cons_append, obeyAll_cons, hcursor,
        Option.bind_some, obeyAll_append, hwrite.obeyed,
        Option.bind_some, ih]
      rfl

theorem shown_drawn (display : Display) (first : Nat) (rows : List (List (Char × Pen)))
    (x y : Nat) :
    (display.drawn first rows).shown x y =
      (if first ≤ y then rows[y - first]?.bind (·[x]?) else none).or (display.shown x y) := by
  induction rows generalizing display first with
  | nil =>
      rw [drawn]
      split <;> rfl
  | cons marks rest ih =>
      have hmarks : ({ { display with row := first, column := 0 }.stamped marks with
            pen := .plain } : Display).shown x y =
          if y = first ∧ 0 ≤ x ∧ x < 0 + marks.length then marks[x - 0]?
          else display.shown x y := rfl
      rw [drawn, ih, hmarks, Nat.zero_add, Nat.sub_zero]
      rcases Nat.lt_trichotomy y first with habove | hhere | hbelow
      · rw [if_neg (by omega), if_neg (by omega), if_neg (by omega)]
      · subst hhere
        rw [if_neg (by omega), if_pos (Nat.le_refl y), Nat.sub_self, List.getElem?_cons_zero,
          Option.bind_some, Option.none_or]
        by_cases hx : x < marks.length
        · rw [if_pos ⟨rfl, Nat.zero_le x, hx⟩, List.getElem?_eq_getElem hx]
          rfl
        · rw [if_neg fun hreached => hx hreached.2.2,
            List.getElem?_eq_none (Nat.le_of_not_lt hx)]
          rfl
      · obtain ⟨steps, rfl⟩ := Nat.exists_eq_add_of_lt hbelow
        rw [if_pos (by omega), if_neg (by omega), if_pos (by omega),
          show first + steps + 1 - (first + 1) = steps by omega,
          show first + steps + 1 - first = steps + 1 by omega, List.getElem?_cons_succ]

end Display

namespace Terminal

open Display

theorem receive_rows {frame : Frame} {colorsOf : PairId → PairColors}
    {write : List Cell → List Signal} (hwrite : Shows colorsOf write)
    (hcells : ∀ cell ∈ frame.cells, cell.charD ' ' ≠ '\x1b')
    (display : Display) :
    let signals :=
      (frame.rows.zipIdx.flatMap fun (row, y) => .cursor 0 y :: write row) ++ [.reset]
    receive ⟨.plain, display⟩ (String.ofList (Signal.encodeAll signals)).toUTF8 =
      some ⟨.plain,
        { display.drawn 0 (frame.rows.map (·.map (Cell.mark colorsOf))) with pen := .plain }⟩ := by
  intro signals
  have hlegible : ∀ signal ∈ signals, signal.Legible := by
    intro signal hsignal
    rcases List.mem_append.mp hsignal with hrows | hreset
    · obtain ⟨⟨row, y⟩, hrow, hsignal⟩ := List.mem_flatMap.mp hrows
      rcases List.mem_cons.mp hsignal with rfl | hwritten
      · trivial
      · refine hwrite.legible row (fun cell hcell => hcells cell ?_) signal hwritten
        exact Frame.mem_cells_of_mem_rows (List.fst_mem_of_mem_zipIdx hrow) hcell
    · rw [List.mem_singleton.mp hreset]
      exact List.cons_ne_nil _ _
  rw [receive_toUTF8, String.toList_ofList, feedAll_encodeAll display hlegible,
    obeyAll_append, obeyAll_rows colorsOf hwrite]
  rfl

end Terminal

namespace Frame

/-- What a terminal reads of a frame is the frame: at every place the character of the
cell's codepoint, or a space if that is none, in the look of the cell and the colors of its
pair, and nothing anywhere else, with the pen plain in the end. Only an escape character would
not be printed as it is. Shared signals make no difference to what is shown. -/
theorem terminal_shows_frame (frame : Frame) (colorsOf : PairId → PairColors)
    (hcells : ∀ cell ∈ frame.cells, cell.codepoint ≠ 0x1b) (display : Display) :
    ∃ final,
      Terminal.receive ⟨.plain, display⟩ (frame.toTerminal colorsOf).toUTF8 =
          some ⟨.plain, final⟩ ∧
        Terminal.receive ⟨.plain, display⟩ (frame.toTerminalApart colorsOf).toUTF8 =
          some ⟨.plain, final⟩ ∧
        final.pen = .plain ∧
        (∀ x y cell, frame.get? x y = some cell →
          final.shown x y =
            some (if cell.codepoint.isValidChar then Char.ofNat cell.codepoint else ' ',
              .ofLook cell.look (colorsOf cell.look.pair))) ∧
        ∀ x y, frame.get? x y = none → final.shown x y = display.shown x y := by
  have hprinted : ∀ cell ∈ frame.cells, cell.charD ' ' ≠ '\x1b' :=
    fun cell hcell => Cell.charD_ne_escape (hcells cell hcell)
  have hshown (x y : Nat) :
      (display.drawn 0 (frame.rows.map (·.map (Cell.mark colorsOf)))).shown x y =
        ((frame.get? x y).map (Cell.mark colorsOf)).or (display.shown x y) := by
    rw [Display.shown_drawn, if_pos (Nat.zero_le y), Nat.sub_zero, ← frame.getElem?_rows,
      List.getElem?_map]
    cases frame.rows[y]? with
    | none => rfl
    | some row => simp
  refine ⟨_, Terminal.receive_rows (Display.shows_rowSignals colorsOf) hprinted display,
    Terminal.receive_rows (Display.shows_apartSignals colorsOf) hprinted display, rfl, ?_, ?_⟩
  · intro x y cell hcell
    rw [← cell.charD_eq]
    exact (hshown x y).trans (by rw [hcell]; rfl)
  · intro x y hcell
    exact (hshown x y).trans (by rw [hcell]; rfl)

/-- A codepoint that is no character, and next to it a character of two bytes. -/
theorem terminal_shows_frame_standout :
    let standout : Look := ⟨{ standout := true, reverse := true }, 1⟩
    let frame := (empty 3 2).write 1 1 [⟨0xD800, standout⟩, ⟨'é'.toNat, standout⟩]
    let colorsOf : PairId → PairColors :=
      fun pair => if pair = 1 then ⟨.indexed 9, .indexed 200⟩ else .terminalDefault
    let display : Display := ⟨0, 0, { reverse := true }, fun _ _ => none⟩
    let pen : Pen := { bold := true, foreground := .indexed 9, background := .indexed 200 }
    ∃ final,
      Terminal.receive ⟨.plain, display⟩ (frame.toTerminal colorsOf).toUTF8 =
          some ⟨.plain, final⟩ ∧
        final.pen = .plain ∧
        final.shown 1 1 = some (' ', pen) ∧
        final.shown 2 1 = some ('é', pen) ∧
        final.shown 0 0 = some (' ', .plain) := by
  intro standout frame colorsOf display pen
  have hcells : ∀ cell ∈ frame.cells, cell.codepoint ≠ 0x1b := by decide
  obtain ⟨final, hfinal, -, hpen, hshown, -⟩ :=
    terminal_shows_frame frame colorsOf hcells display
  exact ⟨final, hfinal, hpen, hshown 1 1 _ rfl, hshown 2 1 _ rfl, hshown 0 0 _ rfl⟩

end Frame

end LinePainter
