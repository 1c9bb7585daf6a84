import Mathlib.Data.List.SplitBy
import LinePainter.Proofs.Frame.Runs
import LinePainter.Terminal.Screen

namespace LinePainter

/-! A frame is shown row by row: every row is drawn from a cursor position of its own, with
one character for each of its cells. -/

namespace Signal

def printed? : Signal → Option Char
  | print char => some char
  | _ => none

/-- The signals put the cursor at the front of a row and print the cells from there on,
without moving it again. -/
def DrawsRow (y : Nat) (cells : List Cell) (signals : List Signal) : Prop :=
  ∃ rest, signals = .cursor 0 y :: rest ∧ (∀ row column, .moveTo row column ∉ rest) ∧
    rest.filterMap printed? = cells.map (·.charD ' ')

end Signal

variable (colorsOf : PairId → PairColors)

namespace Look

variable {colorsOf}

theorem exists_rendition {look : Look} {signal : Signal}
    (hsignal : signal ∈ look.signals colorsOf) :
    ∃ parameters, signal = .rendition parameters := by
  simp only [signals, Style.signals, Signal.reset, List.mem_append, List.mem_cons,
    List.not_mem_nil, or_false] at hsignal
  rcases hsignal with (rfl | hstyle) | rfl | rfl
  · exact ⟨_, rfl⟩
  · split at hstyle
    · cases hstyle
    · exact ⟨_, List.mem_singleton.mp hstyle⟩
  · exact ⟨_, rfl⟩
  · exact ⟨_, rfl⟩

end Look

namespace Cell

theorem printed_runSignals (cells : List Cell) :
    (runSignals colorsOf cells).filterMap Signal.printed? = cells.map (·.charD ' ') := by
  cases cells with
  | nil => rfl
  | cons first rest =>
      have hlook : (first.look.signals colorsOf).filterMap Signal.printed? = [] := by
        rw [List.filterMap_eq_nil_iff]
        intro signal hsignal
        obtain ⟨parameters, rfl⟩ := Look.exists_rendition hsignal
        rfl
      simp [runSignals, hlook, signal, Signal.printed?, Function.comp_def]

theorem moveTo_not_mem_runSignals (cells : List Cell) (row column : Nat) :
    .moveTo row column ∉ runSignals colorsOf cells := by
  cases cells with
  | nil => exact List.not_mem_nil
  | cons first rest =>
      have hlook : .moveTo row column ∉ first.look.signals colorsOf := by
        intro hsignal
        obtain ⟨parameters, hparameters⟩ := Look.exists_rendition hsignal
        cases hparameters
      simp [runSignals, hlook, signal]

theorem printed_runs (runs : List (List Cell)) :
    (runs.flatMap (runSignals colorsOf)).filterMap Signal.printed? =
      runs.flatten.map (·.charD ' ') := by
  induction runs with
  | nil => rfl
  | cons run rest ih => simp [printed_runSignals, ih]

theorem drawsRow_rowSignals (y : Nat) (cells : List Cell) :
    Signal.DrawsRow y cells (.cursor 0 y :: rowSignals colorsOf cells) := by
  refine ⟨_, rfl, ?_, ?_⟩
  · intro row column
    simp [rowSignals, Signal.reset, moveTo_not_mem_runSignals]
  · have hruns : (runs cells).flatten = cells := List.flatten_splitBy ..
    simp [rowSignals, Signal.reset, printed_runs, hruns, Signal.printed?]

end Cell

namespace Frame

variable (frame : Frame)

/-- The signals that show a frame, row by row. -/
def signalsByRow : List (List Signal) :=
  frame.rows.zipIdx.map fun (row, y) => .cursor 0 y :: Cell.rowSignals colorsOf row

theorem signals_eq_flatten :
    frame.signals colorsOf = (frame.signalsByRow colorsOf).flatten ++ [.reset] := by
  simp [signals, signalsByRow, List.flatMap_def]

theorem length_signalsByRow : (frame.signalsByRow colorsOf).length = frame.height := by
  simp [signalsByRow, rows]

theorem drawsRow_signalsByRow {y : Nat} {signals : List Signal}
    (hsignals : (frame.signalsByRow colorsOf)[y]? = some signals) :
    ∃ cells, frame.row? y = some cells ∧ cells.length = frame.width ∧
      Signal.DrawsRow y cells signals := by
  simp only [signalsByRow, List.getElem?_map, List.getElem?_zipIdx, Nat.zero_add,
    Option.map_map, getElem?_rows_eq_row?] at hsignals
  obtain ⟨cells, hcells, rfl⟩ := Option.map_eq_some_iff.mp hsignals
  refine ⟨cells, hcells, ?_, Cell.drawsRow_rowSignals colorsOf y cells⟩
  unfold row? at hcells
  split at hcells
  · next hrow =>
      cases hcells
      exact frame.length_read_row hrow
  · cases hcells

end Frame

end LinePainter
