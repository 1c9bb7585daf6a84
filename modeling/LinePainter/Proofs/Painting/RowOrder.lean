import LinePainter.Proofs.Painting.Permanence
import LinePainter.Proofs.Theme.Reloading

namespace LinePainter

/-! Lines on different rows can be painted in either order. The pairs that are handed out
on the way come in another order then, and cells name others; the cells show the same. -/

/-- What can be seen of a cell: its codepoint, its style and the colors of its pair. -/
def Cell.shown (cell : Cell) (table : PairTable) : Nat × Style × Option PairColors :=
  (cell.codepoint, cell.look.style, table.colors? cell.look.pair)

theorem Strip.map_shown_flatten (strip : Strip) {table : PairTable} (hinUse : table.InUse)
    (hroom : (strip.flatten table).2.HasRoom) :
    (strip.flatten table).1.map (·.shown (strip.flatten table).2) =
      List.zipWith
        (fun column colors => (column.cell.codepoint, column.cell.look.style, colors))
        strip (strip.meanings table) := by
  rw [flatten_eq] at hroom ⊢
  rw [← map_colors?_pairs strip hinUse hroom, List.map_zipWith, List.zipWith_map_right]
  rfl

namespace Canvas

variable {canvas other : Canvas}

/-- What can be seen at a place of the frame. -/
def shown (canvas : Canvas) (x y : Nat) : Option (Nat × Style × Option PairColors) :=
  (canvas.frame.get? x y).map (·.shown canvas.theme.pairs)

/-- What an action asks for. -/
def Action.requests (canvas : Canvas) : Action → List PairRequest
  | .paint x y line window role =>
      match window.windowBounds, line.fault? with
      | .ok (start, length), none =>
          (Strip.ofLine line start (min length (canvas.frame.room x y))
            (canvas.theme.look role)).requests
      | _, _ => []
  | .request asked => [asked]

/-- It matters only how large the frame is and how roles look. -/
theorem Action.requests_of_size_eq (hwidth : other.frame.width = canvas.frame.width)
    (hheight : other.frame.height = canvas.frame.height)
    (hlooks : other.theme.looks = canvas.theme.looks) (action : Action) :
    action.requests other = action.requests canvas := by
  cases action with
  | request request => rfl
  | paint x y line window role =>
      have hroom : other.frame.room x y = canvas.frame.room x y := by
        rw [Frame.room, Frame.room, hwidth, hheight]
      have hlook : other.theme.look role = canvas.theme.look role := by
        rw [Theme.look, Theme.look, hlooks]
      rw [requests, requests, hroom, hlook]

theorem pairs_perform (canvas : Canvas) (action : Action) :
    (canvas.perform action).theme.pairs =
      (canvas.theme.pairs.serve (action.requests canvas)).2 := by
  cases action with
  | request request =>
      rw [perform, Theme.pairs_answer]
      rfl
  | paint x y line window role =>
      rw [perform_paint, Action.requests]
      cases window.windowBounds with
      | error error => rfl
      | ok bounds =>
          cases line.fault? with
          | some fault => rfl
          | none =>
              dsimp only
              rw [Frame.rowOf, Strip.flatten_eq, Strip.pairs_snd_eq_serve]

theorem leadsTo_perform (hready : canvas.theme.Ready) (action : Action) :
    canvas.theme.pairs.LeadsTo (canvas.perform action).theme.pairs := by
  rw [pairs_perform]
  exact hready.inUse.leadsTo_serve _

/-- A line asks for at most one pair in every column of the frame. -/
theorem size_perform_paint_le (hready : canvas.theme.Ready) (x y : Nat) (line : Line)
    (window : Span) (role : Role) :
    (canvas.perform (.paint x y line window role)).theme.pairs.size ≤
      canvas.theme.pairs.size + canvas.frame.width := by
  have hasked : (Action.requests canvas (.paint x y line window role)).length ≤
      canvas.frame.width := by
    rw [Action.requests]
    split
    · next start length _ _ =>
        have hroom : canvas.frame.room x y ≤ canvas.frame.width := by
          unfold Frame.room
          split <;> omega
        have hcolumns := Strip.length_requests_le (Strip.ofLine line start
          (min length (canvas.frame.room x y)) (canvas.theme.look role))
        rw [Strip.length_ofLine] at hcolumns
        omega
    · exact Nat.zero_le _
  rw [pairs_perform]
  exact Nat.le_trans (hready.inUse.size_serve_le _) (Nat.add_le_add_left hasked _)

theorem size_frame_perform (canvas : Canvas) (action : Action) :
    (canvas.perform action).frame.width = canvas.frame.width ∧
      (canvas.perform action).frame.height = canvas.frame.height ∧
      (canvas.perform action).theme.looks = canvas.theme.looks := by
  rcases canvas.perform_cases action with
    hsame | ⟨_, -, hperform⟩ | ⟨_, _, _, _, _, _, -, -, hperform⟩
  · rw [hsame]
    exact ⟨rfl, rfl, rfl⟩
  · rw [hperform]
    exact ⟨rfl, rfl, rfl⟩
  · rw [hperform]
    exact ⟨rfl, rfl, rfl⟩

/-- Both canvases have the same cells on row `y`, and the theme of `other` is a later one
of the same generation. -/
structure AgreesOn (y : Nat) (canvas other : Canvas) : Prop where
  width_eq : other.frame.width = canvas.frame.width
  height_eq : other.frame.height = canvas.frame.height
  get?_eq : ∀ x, other.frame.get? x y = canvas.frame.get? x y
  looks_eq : other.theme.looks = canvas.theme.looks
  leadsTo : canvas.theme.pairs.LeadsTo other.theme.pairs

theorem agreesOn_perform (hready : canvas.theme.Ready) {action : Action} {y : Nat}
    (hspared : ∀ x, ¬ action.Overwrites x y) : AgreesOn y canvas (canvas.perform action) := by
  obtain ⟨hwidth, hheight, hlooks⟩ := canvas.size_frame_perform action
  exact ⟨hwidth, hheight, fun x => get?_perform (hspared x), hlooks,
    leadsTo_perform hready action⟩

theorem AgreesOn.shown_eq {y : Nat} (hagrees : AgreesOn y canvas other)
    (hsettled : canvas.Settled) (x : Nat) : other.shown x y = canvas.shown x y := by
  rw [shown, shown, hagrees.get?_eq]
  cases hcell : canvas.frame.get? x y with
  | none => rfl
  | some cell =>
      rw [Option.map_some, Option.map_some, Cell.shown, Cell.shown,
        hagrees.leadsTo.grows.colors?_eq (hsettled.pair_lt x y cell hcell)]

theorem shown_write (frame : Frame) (theme : Theme) (left y : Nat) (cells : List Cell)
    (x : Nat) :
    shown ⟨frame.write left y cells, theme⟩ x y =
      if frame.InBounds x y ∧ left ≤ x ∧ x < left + cells.length then
        (cells.map (·.shown theme.pairs))[x - left]?
      else (frame.get? x y).map (·.shown theme.pairs) := by
  rw [shown, Frame.get?_write]
  simp only [true_and]
  split
  · rw [List.getElem?_map]
  · rfl

/-- A line shows the same on both canvases, although the pairs it gets may differ. -/
theorem AgreesOn.shown_perform {y : Nat} (hagrees : AgreesOn y canvas other)
    (hsettled : canvas.Settled) (hother : other.theme.Ready) {left : Nat} {line : Line}
    {window : Span} {role : Role} (hknown : line.PairsKnown canvas.theme.pairs)
    (hroom : (canvas.perform (.paint left y line window role)).theme.pairs.HasRoom)
    (hroom' : (other.perform (.paint left y line window role)).theme.pairs.HasRoom)
    (x : Nat) :
    (other.perform (.paint left y line window role)).shown x y =
      (canvas.perform (.paint left y line window role)).shown x y := by
  have hafter := leadsTo_perform hsettled.ready (.paint left y line window role)
  have hafter' := leadsTo_perform hother (.paint left y line window role)
  rw [perform_paint] at hroom hroom' hafter hafter'
  rw [perform_paint, perform_paint]
  cases hbounds : window.windowBounds with
  | error error => exact hagrees.shown_eq hsettled x
  | ok bounds =>
      cases hfault : line.fault? with
      | some fault => exact hagrees.shown_eq hsettled x
      | none =>
          rw [hbounds, hfault] at hroom hroom' hafter hafter'
          dsimp only at hroom hroom' hafter hafter' ⊢
          have hcolumns : other.frame.room left y = canvas.frame.room left y := by
            rw [Frame.room, Frame.room, hagrees.width_eq, hagrees.height_eq]
          have hlook : other.theme.look role = canvas.theme.look role := by
            rw [Theme.look, Theme.look, hagrees.looks_eq]
          have hinside : other.frame.InBounds x y ↔ canvas.frame.InBounds x y := by
            rw [Frame.InBounds, Frame.InBounds, hagrees.width_eq, hagrees.height_eq]
          have hpairs := Line.pair_lt_of_mem_ofLine hknown (hsettled.ready.look_lt role)
          rw [shown_write, shown_write, Frame.length_rowOf, Frame.length_rowOf]
          rw [Frame.rowOf] at hroom hroom' hafter hafter' ⊢
          rw [Frame.rowOf]
          rw [hcolumns, hlook] at hroom' hafter' ⊢
          rw [Strip.map_shown_flatten _ hother.inUse hroom',
            Strip.map_shown_flatten _ hsettled.ready.inUse hroom,
            Strip.meanings_of_leadsTo hagrees.leadsTo (hpairs _ _), hagrees.get?_eq]
          simp only [hinside]
          congr 1
          apply Option.map_congr
          intro cell hcell
          have hpair := hsettled.pair_lt x y cell hcell
          rw [Cell.shown, Cell.shown, hafter.grows.colors?_eq hpair,
            (hagrees.leadsTo.grows.trans hafter'.grows).colors?_eq hpair]

/-- What the first line shows does not depend on whether the second one, on another row, is
painted before or after it. -/
theorem shown_perform_comm {first second : Action} {left y : Nat} {line : Line}
    {window : Span} {role : Role} (hfirst : first = .paint left y line window role)
    (hsettled : canvas.Settled) (hknown : first.Known canvas.theme.pairs)
    (hspared : ∀ x, ¬ second.Overwrites x y)
    (hforth : ((canvas.perform first).perform second).theme.pairs.HasRoom)
    (hback : ((canvas.perform second).perform first).theme.pairs.HasRoom) (x : Nat) :
    ((canvas.perform first).perform second).shown x y =
      ((canvas.perform second).perform first).shown x y := by
  subst hfirst
  have hpainted := hsettled.perform hknown
  have hready := (theme_perform hsettled.ready second).1
  have hroom := (leadsTo_perform hpainted.ready second).hasRoom hforth
  rw [(agreesOn_perform hpainted.ready hspared).shown_eq hpainted,
    (agreesOn_perform hsettled.ready hspared).shown_perform hsettled hready hknown hroom
      hback]

theorem size_perform_comm (hready : canvas.theme.Ready) (first second : Action) :
    ((canvas.perform first).perform second).theme.pairs.size =
      ((canvas.perform second).perform first).theme.pairs.size := by
  obtain ⟨hwidth, hheight, hlooks⟩ := canvas.size_frame_perform first
  obtain ⟨hwidth', hheight', hlooks'⟩ := canvas.size_frame_perform second
  rw [pairs_perform, pairs_perform, pairs_perform, pairs_perform,
    Action.requests_of_size_eq hwidth hheight hlooks,
    Action.requests_of_size_eq hwidth' hheight' hlooks']
  exact hready.inUse.size_serve_comm _ _

/-- Two lines on different rows show the same in whichever order they are painted, and the
table gets as many pairs, as long as no pair is refused. Either line may be rejected. -/
theorem rows_paint_in_any_order {frame : Frame} {theme : Theme} (hready : theme.Ready)
    (hframe : ∀ x y cell, frame.get? x y = some cell → cell.look.pair < theme.pairs.size)
    {left left' row row' : Nat} {line line' : Line} {window window' : Span}
    {role role' : Role} (hline : line.PairsKnown theme.pairs)
    (hline' : line'.PairsKnown theme.pairs) (hrows : row ≠ row') :
    let first : Action := .paint left row line window role
    let second : Action := .paint left' row' line' window' role'
    let forth := (perform ⟨frame, theme⟩ first).perform second
    let back := (perform ⟨frame, theme⟩ second).perform first
    (theme.pairs.tier = .basic ∨
        forth.theme.pairs.size < theme.pairs.capabilities.colorPairs) →
      forth.theme.pairs.size = back.theme.pairs.size ∧
        ∀ x y, forth.shown x y = back.shown x y := by
  intro first second forth back hfree
  have hsettled : Settled ⟨frame, theme⟩ := ⟨hready, hframe⟩
  have hfirst : (perform ⟨frame, theme⟩ first).Settled := hsettled.perform hline
  have hsecond : (perform ⟨frame, theme⟩ second).Settled := hsettled.perform hline'
  have hsize : forth.theme.pairs.size = back.theme.pairs.size :=
    size_perform_comm hready first second
  have hforth : forth.theme.pairs.HasRoom :=
    ((leadsTo_perform hready first).trans (leadsTo_perform hfirst.ready second)).hasRoom_iff.mpr
      hfree
  have hback : back.theme.pairs.HasRoom := by
    rw [((leadsTo_perform hready second).trans
      (leadsTo_perform hsecond.ready first)).hasRoom_iff]
    exact hfree.imp_right fun hless => hsize ▸ hless
  refine ⟨hsize, fun x y => ?_⟩
  have hupper (hy : row ≠ y) (x : Nat) : ¬ first.Overwrites x y := fun hover => hy hover.1
  have hlower (hy : row' ≠ y) (x : Nat) : ¬ second.Overwrites x y := fun hover => hy hover.1
  by_cases hy : row = y
  · subst hy
    exact shown_perform_comm rfl hsettled hline (hlower hrows.symm) hforth hback x
  by_cases hy' : row' = y
  · subst hy'
    exact (shown_perform_comm rfl hsettled hline' (hupper hrows) hback hforth x).symm
  · have hleft := hupper hy
    have hright := hlower hy'
    rw [(agreesOn_perform hfirst.ready hright).shown_eq hfirst,
      (agreesOn_perform hready hleft).shown_eq hsettled,
      (agreesOn_perform hsecond.ready hleft).shown_eq hsecond,
      (agreesOn_perform hready hright).shown_eq hsettled]

theorem rows_paint_in_any_order_sharing_colors :
    let theme := Theme.build .xterm ⟨256, 200⟩ { defaultColors := true }
    let upper : Line := ⟨['a', 'b', 'c'],
      [⟨⟨0, some 2⟩, .foreground 200⟩, ⟨⟨1, none⟩, .style ⟨{ reverse := true }, 9⟩⟩]⟩
    let lower : Line := ⟨['d', '\t', 'e'],
      [⟨⟨0, none⟩, .background 17⟩, ⟨⟨0, some 1⟩, .foreground 200⟩]⟩
    let first : Action := .paint 1 0 upper ⟨0, some 4⟩ .error
    let second : Action := .paint 0 1 lower ⟨0, some 9⟩ .text
    let forth := (perform ⟨.empty 6 2, theme⟩ first).perform second
    let back := (perform ⟨.empty 6 2, theme⟩ second).perform first
    forth.theme.pairs.size = back.theme.pairs.size ∧
      ∀ x y, forth.shown x y = back.shown x y := by
  have hready := Theme.ready_build .xterm ⟨256, 200⟩ { defaultColors := true }
  have hsize := Theme.size_build_le .xterm ⟨256, 200⟩ { defaultColors := true }
  have hcapabilities := (Theme.follows_build .xterm ⟨256, 200⟩
    { defaultColors := true }).capabilities_eq
  generalize Theme.build .xterm ⟨256, 200⟩ { defaultColors := true } = theme at *
  intro theme upper lower first second forth back
  have hframe := (settled_empty hready 6 2).pair_lt
  have hupper : upper.PairsKnown theme.pairs := by
    refine Line.pairsKnown_of_base hready.inUse fun attr hattr look hlook => ?_
    simp only [upper, List.mem_cons, List.not_mem_nil, or_false] at hattr
    rcases hattr with rfl | rfl
    · cases hlook
    · cases hlook
      decide
  have hlower : lower.PairsKnown theme.pairs := by
    refine Line.pairsKnown_of_base hready.inUse fun attr hattr look hlook => ?_
    simp only [lower, List.mem_cons, List.not_mem_nil, or_false] at hattr
    rcases hattr with rfl | rfl <;> cases hlook
  have hroom : forth.theme.pairs.size < theme.pairs.capabilities.colorPairs := by
    let start : Canvas := ⟨.empty 6 2, theme⟩
    have hstart : start.theme.Ready := hready
    have hwidth := (start.size_frame_perform first).1
    have hfirst := size_perform_paint_le hstart 1 0 upper ⟨0, some 4⟩ .error
    have hsecond := size_perform_paint_le (theme_perform hstart first).1 0 1 lower
      ⟨0, some 9⟩ .text
    rw [hwidth] at hsecond
    calc forth.theme.pairs.size
        _ ≤ (start.perform first).theme.pairs.size + 6 := hsecond
        _ ≤ theme.pairs.size + 6 + 6 := Nat.add_le_add_right hfirst 6
        _ ≤ (118 + 33) + 6 + 6 := Nat.add_le_add_right (Nat.add_le_add_right hsize 6) 6
        _ < theme.pairs.capabilities.colorPairs := by rw [hcapabilities]; decide
  exact rows_paint_in_any_order hready hframe hupper hlower Nat.zero_ne_one (.inr hroom)

end Canvas

end LinePainter
