import LinePainter.Palette.Xterm
import LinePainter.Proofs.Painting.Flattening
import LinePainter.Proofs.Theme.Looks

namespace LinePainter

/-! A cell on a frame names its colors by a pair id only, and the theme knows what the id
means. Painting and pair requests, in any order, never change what a cell on the frame
means. -/

namespace Line

variable {line : Line} {table : PairTable}

/-- The pairs that the attributes of the line bring along are in the table. -/
def PairsKnown (line : Line) (table : PairTable) : Prop :=
  ∀ attr ∈ line.attributes, ∀ look, attr.directive = .style look → look.pair < table.size

theorem pairsKnown_of_base (hinUse : table.InUse)
    (hbase : ∀ attr ∈ line.attributes, ∀ look,
      attr.directive = .style look → look.pair < basePairCount) : line.PairsKnown table :=
  fun attr hattr look hlook =>
    Nat.lt_of_lt_of_le (hbase attr hattr look hlook) hinUse.basePairCount_le_size

/-- A strip of the line names only pairs of the table. -/
theorem pair_lt_of_mem_ofLine (hknown : line.PairsKnown table) {look : Look}
    (hbase : look.pair < table.size) (start width : Nat) :
    ∀ column ∈ Strip.ofLine line start width look, column.cell.look.pair < table.size := by
  refine Strip.forall_mem_ofLine (fun _ => hbase) (fun attr hattr column hcolumn => ?_) start width
  cases hdirective : attr.directive with
  | style above =>
      simp only [Directive.stamp, Look.overlay]
      split
      · exact hcolumn
      · exact hknown attr hattr above hdirective
  | _ => exact hcolumn

end Line

namespace Frame

variable {theme : Theme} (hready : theme.Ready)

include hready

theorem pairs_rowOf (frame : Frame) (x y : Nat) (line : Line) (start length : Nat)
    (role : Role) :
    (frame.rowOf theme x y line start length role).2.InUse ∧
      theme.pairs.Extends (frame.rowOf theme x y line start length role).2 := by
  rw [rowOf, Strip.flatten_eq]
  exact Strip.inUse_pairs _ hready.inUse

theorem lt_of_mem_rowOf {frame : Frame} {x y : Nat} {line : Line} {start length : Nat}
    {role : Role} (hknown : line.PairsKnown theme.pairs) {cell : Cell}
    (hcell : cell ∈ (frame.rowOf theme x y line start length role).1) :
    cell.look.pair < (frame.rowOf theme x y line start length role).2.size := by
  have hpair := Strip.mem_pairs_of_mem_flatten _ hcell
  rw [rowOf, Strip.flatten_eq]
  exact Strip.lt_of_mem_pairs hready.inUse
    (Line.pair_lt_of_mem_ofLine hknown (hready.look_lt role) _ _) hpair

end Frame

/-- A frame, and the theme that knows the pairs its cells name. -/
structure Canvas where
  frame : Frame
  theme : Theme

namespace Canvas

inductive Action where
  | paint (x y : Nat) (line : Line) (window : Span) (role : Role)
  | request (request : PairRequest)

namespace Action

/-- Whether the action gives the cell at `(x, y)` anew. A line that is rejected gives no
cell. -/
def Overwrites (x y : Nat) : Action → Prop
  | paint left row line window _ =>
      row = y ∧ line.fault? = none ∧
        ∃ stop ∈ window.stop, left ≤ x ∧ x < left + (stop - window.start)
  | request _ => False

/-- The pairs that the action brings along are in the table. -/
def Known (table : PairTable) : Action → Prop
  | paint _ _ line _ _ => line.PairsKnown table
  | request _ => True

end Action

def fresh (palette : Palette) (capabilities : Capabilities) (settings : ColorSettings)
    (width height : Nat) : Canvas where
  frame := Frame.empty width height
  theme := Theme.build palette capabilities settings

/-- A line that is rejected leaves everything as it was. -/
def perform (canvas : Canvas) : Action → Canvas
  | .paint x y line window role =>
      match canvas.frame.paint canvas.theme x y line window role with
      | .ok (frame, theme) => { frame, theme }
      | .error _ => canvas
  | .request request => { canvas with theme := (canvas.theme.answer request).2 }

def performAll (canvas : Canvas) (actions : List Action) : Canvas :=
  actions.foldl perform canvas

/-- Every action brings only pairs along that are in the table by then. -/
def AllKnown (canvas : Canvas) : List Action → Prop
  | [] => True
  | action :: rest =>
      action.Known canvas.theme.pairs ∧ (canvas.perform action).AllKnown rest

/-- Every cell of the frame names a pair of the table. -/
structure Settled (canvas : Canvas) : Prop where
  ready : canvas.theme.Ready
  pair_lt : ∀ x y cell, canvas.frame.get? x y = some cell →
    cell.look.pair < canvas.theme.pairs.size

variable {canvas : Canvas}

theorem settled_empty {theme : Theme} (hready : theme.Ready) (width height : Nat) :
    Settled { frame := Frame.empty width height, theme } where
  ready := hready
  pair_lt x y cell hcell := by
    rw [Frame.eq_empty_of_get?_empty hcell]
    exact hready.inUse.size_pos

theorem settled_fresh (palette : Palette) (capabilities : Capabilities)
    (settings : ColorSettings) (width height : Nat) :
    (fresh palette capabilities settings width height).Settled :=
  settled_empty (Theme.ready_build palette capabilities settings) width height

/-! One action. -/

theorem perform_paint (canvas : Canvas) (x y : Nat) (line : Line) (window : Span)
    (role : Role) :
    canvas.perform (.paint x y line window role) =
      match window.windowBounds, line.fault? with
      | .ok (start, length), none =>
          let row := canvas.frame.rowOf canvas.theme x y line start length role
          { frame := canvas.frame.write x y row.1
            theme := { canvas.theme with pairs := row.2 } }
      | _, _ => canvas := by
  rw [perform, Frame.paint_eq]
  cases window.windowBounds with
  | error error => rfl
  | ok bounds => cases line.fault? <;> rfl

/-- All that an action can do: nothing, answer a request, or write columns of a line. -/
theorem perform_cases (canvas : Canvas) (action : Action) :
    canvas.perform action = canvas ∨
      (∃ request, action = .request request ∧
        canvas.perform action = { canvas with
          theme := { canvas.theme with pairs := (canvas.theme.pairs.answer request).2 } }) ∨
      ∃ left y line start length role,
        action = .paint left y line ⟨start, some (start + length)⟩ role ∧ line.fault? = none ∧
          let row := canvas.frame.rowOf canvas.theme left y line start length role
          canvas.perform action = {
            frame := canvas.frame.write left y row.1
            theme := { canvas.theme with pairs := row.2 } } := by
  cases action with
  | request request =>
      refine .inr (.inl ⟨request, rfl, ?_⟩)
      rw [perform, Theme.pairs_answer]
  | paint left y line window role =>
      rw [perform_paint]
      cases hbounds : window.windowBounds with
      | error error => exact .inl rfl
      | ok bounds =>
          obtain ⟨start, length⟩ := bounds
          cases hfault : line.fault? with
          | some fault => exact .inl rfl
          | none =>
              obtain rfl := Span.eq_of_windowBounds hbounds
              exact .inr (.inr ⟨left, y, line, start, length, role, rfl, hfault, rfl⟩)

/-- An action keeps the theme in order and the pairs it has, whatever it brings along. -/
theorem theme_perform (hready : canvas.theme.Ready) (action : Action) :
    (canvas.perform action).theme.Ready ∧
      canvas.theme.pairs.Extends (canvas.perform action).theme.pairs := by
  rcases canvas.perform_cases action with
    hsame | ⟨request, -, hperform⟩ | ⟨left, y, line, start, length, role, -, -, hperform⟩
  · rw [hsame]
    exact ⟨hready, .refl _⟩
  · have hanswered := hready.inUse.answer request
    rw [hperform]
    exact ⟨hready.grow hanswered.inUse hanswered.grows, hanswered.grows⟩
  · obtain ⟨hinUse, hgrows⟩ :=
      Frame.pairs_rowOf hready canvas.frame left y line start length role
    rw [hperform]
    exact ⟨hready.grow hinUse hgrows, hgrows⟩

theorem inBounds_perform (canvas : Canvas) (action : Action) {x y : Nat} :
    (canvas.perform action).frame.InBounds x y ↔ canvas.frame.InBounds x y := by
  rcases canvas.perform_cases action with
    hsame | ⟨_, -, hperform⟩ | ⟨_, _, _, _, _, _, -, -, hperform⟩
  · rw [hsame]
  · rw [hperform]
  · rw [hperform]
    exact Iff.rfl

theorem get?_perform {action : Action} {x y : Nat} (hspared : ¬ action.Overwrites x y) :
    (canvas.perform action).frame.get? x y = canvas.frame.get? x y := by
  rcases canvas.perform_cases action with
    hsame | ⟨_, -, hperform⟩ | ⟨left, row, line, start, length, role, rfl, hvalid, hperform⟩
  · rw [hsame]
  · rw [hperform]
  · rw [hperform]
    dsimp only
    rw [Frame.get?_write, if_neg]
    rintro ⟨-, rfl, hleft, hright⟩
    rw [Frame.length_rowOf] at hright
    exact hspared ⟨rfl, hvalid, start + length, rfl, hleft, by dsimp only; omega⟩

theorem Settled.perform (hsettled : canvas.Settled) {action : Action}
    (hknown : action.Known canvas.theme.pairs) : (canvas.perform action).Settled := by
  obtain ⟨hready, hgrows⟩ := theme_perform hsettled.ready action
  refine ⟨hready, fun x y cell => ?_⟩
  have hold (hcell : canvas.frame.get? x y = some cell) :
      cell.look.pair < (canvas.perform action).theme.pairs.size :=
    Nat.lt_of_lt_of_le (hsettled.pair_lt x y cell hcell) hgrows.size_le
  rcases canvas.perform_cases action with
    hsame | ⟨_, -, hperform⟩ | ⟨left, row, line, start, length, role, rfl, -, hperform⟩
  · rw [hsame]
    exact hsettled.pair_lt x y cell
  · rw [hperform] at hold ⊢
    exact hold
  · intro hcell
    rw [hperform] at hcell hold ⊢
    dsimp only at hcell
    rw [Frame.get?_write] at hcell
    split at hcell
    · exact Frame.lt_of_mem_rowOf hsettled.ready hknown (List.mem_of_getElem? hcell)
    · exact hold hcell

/-! A run of actions. -/

theorem theme_performAll (hready : canvas.theme.Ready) (actions : List Action) :
    (canvas.performAll actions).theme.Ready ∧
      canvas.theme.pairs.Extends (canvas.performAll actions).theme.pairs := by
  induction actions generalizing canvas with
  | nil => exact ⟨hready, .refl _⟩
  | cons action rest ih =>
      obtain ⟨hnext, hgrows⟩ := theme_perform hready action
      obtain ⟨hlast, hmore⟩ := ih hnext
      exact ⟨hlast, hgrows.trans hmore⟩

theorem inBounds_performAll (canvas : Canvas) (actions : List Action) {x y : Nat} :
    (canvas.performAll actions).frame.InBounds x y ↔ canvas.frame.InBounds x y := by
  induction actions generalizing canvas with
  | nil => exact Iff.rfl
  | cons action rest ih => exact (ih (canvas.perform action)).trans (inBounds_perform ..)

theorem get?_performAll {actions : List Action} {x y : Nat}
    (hspared : ∀ action ∈ actions, ¬ action.Overwrites x y) :
    (canvas.performAll actions).frame.get? x y = canvas.frame.get? x y := by
  induction actions generalizing canvas with
  | nil => rfl
  | cons action rest ih =>
      have hfirst := hspared action List.mem_cons_self
      have hrest := fun other hmem => hspared other (List.mem_cons_of_mem _ hmem)
      exact (ih hrest).trans (get?_perform hfirst)

theorem Settled.performAll (hsettled : canvas.Settled) {actions : List Action}
    (hknown : canvas.AllKnown actions) : (canvas.performAll actions).Settled := by
  induction actions generalizing canvas with
  | nil => exact hsettled
  | cons action rest ih => exact ih (hsettled.perform hknown.1) hknown.2

theorem AllKnown.of_append {first second : List Action}
    (hknown : canvas.AllKnown (first ++ second)) : canvas.AllKnown first := by
  induction first generalizing canvas with
  | nil => trivial
  | cons action rest ih => exact ⟨hknown.1, ih hknown.2⟩

/-- Painted colors last. At every point of a run, every cell names a pair of the table,
and however the run goes on the pair keeps its colors, which the cell shows until a
line is painted over it. -/
theorem painted_colors_last {palette : Palette} {capabilities : Capabilities}
    {settings : ColorSettings} {width height : Nat} {earlier later : List Action}
    (hknown : (fresh palette capabilities settings width height).AllKnown (earlier ++ later))
    {x y : Nat} (hcolumn : x < width) (hrow : y < height) :
    let before := (fresh palette capabilities settings width height).performAll earlier
    let after := before.performAll later
    ∃ cell, before.frame.get? x y = some cell ∧
      cell.look.pair < before.theme.pairs.size ∧
      after.theme.pairs.colors? cell.look.pair = before.theme.pairs.colors? cell.look.pair ∧
      ((∀ action ∈ later, ¬ action.Overwrites x y) → after.frame.get? x y = some cell) := by
  intro before after
  have hsettled : before.Settled := (settled_fresh ..).performAll hknown.of_append
  have hinside : before.frame.InBounds x y := (inBounds_performAll ..).mpr ⟨hcolumn, hrow⟩
  obtain ⟨cell, hcell⟩ := hinside.exists_get?
  have hpair := hsettled.pair_lt x y cell hcell
  obtain ⟨-, hgrows⟩ := theme_performAll hsettled.ready later
  refine ⟨cell, hcell, hpair, hgrows.colors?_eq hpair, fun hspared => ?_⟩
  exact (get?_performAll hspared).trans hcell

theorem painted_colors_last_beside_full_table :
    let earlier : List Action := [.request (.indexed 200 17),
      .paint 1 0 ⟨['a', 'b', 'c'],
        [⟨⟨0, some 2⟩, .style ⟨.plain, 9⟩⟩, ⟨⟨1, none⟩, .foreground 200⟩]⟩ ⟨0, some 4⟩ .error]
    let later : List Action := [.request (.indexed 201 18),
      .paint 0 1 ⟨['d'], [⟨⟨0, none⟩, .background 202⟩]⟩ ⟨0, some 9⟩ .text]
    let before := (fresh .xterm ⟨256, 82⟩ {} 6 2).performAll earlier
    let after := before.performAll later
    ∃ cell, before.frame.get? 2 0 = some cell ∧ after.frame.get? 2 0 = some cell ∧
      after.theme.pairs.colors? cell.look.pair =
        before.theme.pairs.colors? cell.look.pair := by
  intro earlier later before after
  have hfresh := (settled_fresh .xterm ⟨256, 82⟩ {} 6 2).ready
  have hknown : (fresh .xterm ⟨256, 82⟩ {} 6 2).AllKnown (earlier ++ later) := by
    refine ⟨trivial, Line.pairsKnown_of_base (theme_perform hfresh _).1.inUse ?_, trivial,
      fun attr hattr look hlook => ?_, trivial⟩
    · intro attr hattr look hlook
      simp only [List.mem_cons, List.not_mem_nil, or_false] at hattr
      rcases hattr with rfl | rfl
      · cases hlook
        decide
      · cases hlook
    · rw [List.mem_singleton.mp hattr] at hlook
      cases hlook
  obtain ⟨cell, hcell, -, hcolors, hspared⟩ :=
    painted_colors_last hknown (by decide : 2 < 6) (by decide : 0 < 2)
  refine ⟨cell, hcell, hspared fun action haction hover => ?_, hcolors⟩
  simp only [later, List.mem_cons, List.not_mem_nil, or_false] at haction
  rcases haction with rfl | rfl
  · exact hover
  · exact absurd hover.1 (by decide)

end Canvas

end LinePainter
