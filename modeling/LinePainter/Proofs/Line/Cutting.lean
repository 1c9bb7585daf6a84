import LinePainter.Line.Split
import LinePainter.Proofs.Line.Edits

namespace LinePainter

/-! Cutting a valid line between two characters works, and every attribute of the part
is closed and lies within it. -/

namespace Span

variable {span : Span} {start stop length : Nat}

/-- A span cut to the bytes from `start` to `stop` and counted from `start`. -/
def clipped (span : Span) (start stop : Nat) : Span where
  start := max start span.start - start
  stop := some (min stop (span.stopOr stop) - start)

theorem intersection_shiftedWithin_eq_clipped {limit : Nat} (hfits : span.Fits length)
    (hlimit : length ≤ limit) (hstop : stop ≤ length)
    (hordered : max start span.start ≤ min stop (span.stopOr stop)) :
    (intersection ⟨start, some stop⟩ span).shiftedWithin limit start (-start) =
      span.clipped start stop := by
  have hearlier : earlierStop (some stop) span.stop = some (min stop (span.stopOr stop)) := by
    unfold stopOr
    cases span.stop with
    | none => simp [earlierStop]
    | some other => rfl
  have hmove (offset : Nat) (hfrom : start ≤ offset) (hoffset : offset ≤ length) :
      (if start ≤ offset then moveOffset limit (-start) offset else offset) =
        offset - start := by
    rw [if_pos hfrom, moveOffset]
    omega
  have hstart := hfits.start_le
  simp only [intersection, shiftedWithin, hearlier, Option.map_some]
  rw [hmove (max start span.start) (by omega) (by omega),
    hmove (min stop (span.stopOr stop)) (by omega) (by omega)]
  rw [Nat.max_eq_left (Nat.sub_le_sub_right hordered start)]
  rfl

theorem Fits.ordered_of_touches (hfits : span.Fits length) (hwindow : start ≤ stop)
    (htouches : Touches ⟨start, some stop⟩ span) :
    max start span.start ≤ min stop (span.stopOr stop) := by
  have hcontains {offset : Nat} (hoffset : Contains ⟨start, some stop⟩ offset) :
      start ≤ offset ∧ offset < stop :=
    ⟨hoffset.1, hoffset.2 stop rfl⟩
  cases hspan : span.stop with
  | none =>
      simp only [stopOr, hspan, Option.getD_none, Nat.min_self]
      rcases htouches with hfirst | ⟨last, hlast, -, -⟩ | hspread
      · have hinside := hcontains hfirst
        omega
      · rw [hspan] at hlast
        cases hlast
      · have hbefore : span.start ≤ start := hspread.1
        omega
  | some other =>
      have hwithin := hfits.stop_within other hspan
      simp only [stopOr, hspan, Option.getD_some]
      rcases htouches with hfirst | ⟨last, hlast, hpositive, hinside⟩ | hspread
      · have hinside := hcontains hfirst
        omega
      · rw [hspan] at hlast
        cases hlast
        have hinside := hcontains hinside
        omega
      · have hbefore : span.start ≤ start := hspread.1
        have hafter : start < other := hspread.2 other hspan
        omega

theorem fits_clipped (hordered : max start span.start ≤ min stop (span.stopOr stop)) :
    (span.clipped start stop).Fits (stop - start) := by
  refine ⟨by simp only [clipped]; omega, fun other hother => ?_⟩
  cases hother
  simp only [clipped]
  omega

end Span

namespace Text

theorem slice?_eq (before between after : Text) :
    slice? before.byteLength (before.byteLength + between.byteLength)
      (before ++ between ++ after) = some between := by
  rw [slice?, List.append_assoc, splitAt?_append]
  simp only [Option.bind_eq_bind, Option.bind_some, Nat.le_add_right, if_true,
    Nat.add_sub_cancel_left]
  rw [splitAt?_append]
  rfl

end Text

namespace Line

variable {line : Line} {start stop : Nat}

theorem attributesWithin_eq (hvalid : line.Valid) (hwindow : start ≤ stop)
    (hstop : stop ≤ line.length) :
    line.attributesWithin start stop =
      (line.attributes.filter fun attr =>
        Span.Touches ⟨start, some stop⟩ attr.span).map
          (Attribute.mapSpan (·.clipped start stop)) := by
  apply List.map_congr_left
  intro attr hattr
  obtain ⟨hmem, htouches⟩ := List.mem_filter.mp hattr
  have hfits := hvalid attr hmem
  have hordered := hfits.ordered_of_touches hwindow (of_decide_eq_true htouches)
  have hlimit : line.length ≤ line.text.offsetLimit := Nat.le_max_right ..
  rw [Attribute.mapSpan,
    Span.intersection_shiftedWithin_eq_clipped hfits hlimit hstop hordered,
    Attribute.mapSpan]

theorem fits_of_mem_attributesWithin (hvalid : line.Valid) (hwindow : start ≤ stop)
    (hstop : stop ≤ line.length) {attr : Attribute}
    (hattr : attr ∈ line.attributesWithin start stop) : attr.span.Fits (stop - start) := by
  rw [attributesWithin_eq hvalid hwindow hstop] at hattr
  obtain ⟨old, hold, rfl⟩ := List.mem_map.mp hattr
  obtain ⟨hmem, htouches⟩ := List.mem_filter.mp hold
  exact Span.fits_clipped
    ((hvalid old hmem).ordered_of_touches hwindow (of_decide_eq_true htouches))

theorem part_within {done current after : Text}
    (htext : line.text = done ++ current ++ after) :
    done.byteLength + current.byteLength ≤ line.length := by
  simp [length, htext]

/-- The part between two texts, whose attributes never stick out. -/
theorem subline_eq {before between after : Text} (hvalid : line.Valid)
    (htext : line.text = before ++ between ++ after) {length : Option Nat}
    (hlength : (length.map (before.byteLength + ·)).getD line.length =
      before.byteLength + between.byteLength) :
    line.subline before.byteLength length =
      .ok ⟨between, line.attributesWithin before.byteLength
        (before.byteLength + between.byteLength)⟩ := by
  have hstop := part_within htext
  have hinside : (line.attributesWithin before.byteLength
      (before.byteLength + between.byteLength)).find?
        (fun attr => between.byteLength < attr.span.stopOr 0) = none := by
    rw [List.find?_eq_none]
    intro attr hattr
    have hfits := fits_of_mem_attributesWithin hvalid (Nat.le_add_right ..) hstop hattr
    rw [Nat.add_sub_cancel_left] at hfits
    rw [decide_eq_true_eq, Nat.not_lt]
    cases hspan : attr.span.stop with
    | none => simp [Span.stopOr, hspan]
    | some last => simpa [Span.stopOr, hspan] using (hfits.stop_within last hspan).2
  rw [subline, hlength, htext, Text.slice?_eq]
  simp only [hinside]

/-! A part of a line, and the parts between its newlines. -/

def Closed (line : Line) : Prop :=
  ∀ attr ∈ line.attributes, attr.span.stop.isSome

/-- The piece `current` of a line, behind the text `done`. -/
def part (line : Line) (done current : Text) : Line where
  text := current
  attributes :=
    line.attributesWithin done.byteLength (done.byteLength + current.byteLength)

/-- The pieces of a line from `done` on, `text` being what follows there. -/
inductive CutsInto (line : Line) : Text → Text → List Line → Prop
  | last {done current : Text} :
      '\n' ∉ current → CutsInto line done current [line.part done current]
  | next {done current rest : Text} {pieces : List Line} :
      '\n' ∉ current → CutsInto line (done ++ current ++ ['\n']) rest pieces →
      CutsInto line done (current ++ '\n' :: rest) (line.part done current :: pieces)

variable {done current after text : Text} {pieces : List Line}

theorem subline_eq_part (hvalid : line.Valid) (htext : line.text = done ++ current ++ after) :
    line.subline done.byteLength (some current.byteLength) = .ok (line.part done current) :=
  subline_eq hvalid htext rfl

theorem valid_part (hvalid : line.Valid) (htext : line.text = done ++ current ++ after) :
    (line.part done current).Valid := by
  intro attr hattr
  have hfits := fits_of_mem_attributesWithin hvalid (Nat.le_add_right ..)
    (part_within htext) hattr
  rwa [Nat.add_sub_cancel_left] at hfits

theorem closed_part (hvalid : line.Valid) (htext : line.text = done ++ current ++ after) :
    (line.part done current).Closed := by
  intro attr hattr
  rw [part, attributesWithin_eq hvalid (Nat.le_add_right ..) (part_within htext)] at hattr
  obtain ⟨old, -, rfl⟩ := List.mem_map.mp hattr
  rfl

theorem exists_subline (hvalid : line.Valid) {length : Option Nat}
    (hle : start ≤ (length.map (start + ·)).getD line.length)
    (hstart : line.text.IsBoundary start)
    (hstop : line.text.IsBoundary ((length.map (start + ·)).getD line.length)) :
    ∃ result, line.subline start length = .ok result ∧ result.Valid := by
  obtain ⟨before, between, after, htext, rfl, hbetween⟩ :=
    Text.exists_between hle hstart hstop
  have hlength : (length.map (before.byteLength + ·)).getD line.length =
      before.byteLength + between.byteLength := by omega
  exact ⟨_, subline_eq hvalid htext hlength, valid_part hvalid htext⟩

theorem exists_cutsInto (hvalid : line.Valid) {rest : Text}
    (htext : line.text = done ++ current ++ rest) (hcurrent : '\n' ∉ current) :
    ∃ pieces,
      (pieceBounds done.byteLength current.byteLength rest).mapM
          (fun (start, length) => line.subline start (some length)) = .ok pieces ∧
        line.CutsInto done (current ++ rest) pieces := by
  -- On the text that is not read yet. A newline in it ends the piece `current`.
  induction rest generalizing done current with
  | nil =>
      refine ⟨[line.part done current], ?_, ?_⟩
      · simp only [pieceBounds, List.mapM_cons, List.mapM_nil, subline_eq_part hvalid htext]
        rfl
      · simpa using CutsInto.last hcurrent
  | cons char rest ih =>
      rw [pieceBounds]
      split
      · next hnewline =>
          subst hnewline
          obtain ⟨pieces, hpieces, hcuts⟩ :=
            @ih (done ++ current ++ ['\n']) [] (by simpa using htext) List.not_mem_nil
          refine ⟨line.part done current :: pieces, ?_, .next hcurrent hcuts⟩
          simp only [Text.byteLength_append, Text.byteLength_cons, Text.byteLength_nil,
            Text.utf8Size_newline] at hpieces
          simp only [List.mapM_cons, subline_eq_part hvalid htext, bind, Except.bind, hpieces]
          rfl
      · next hchar =>
          have hmore := @ih done (current ++ [char]) (by simpa using htext)
            (by simpa [eq_comm] using ⟨hcurrent, hchar⟩)
          simpa using hmore

theorem exists_splitLines (hvalid : line.Valid) :
    ∃ pieces, line.splitLines = .ok pieces ∧ line.CutsInto [] line.text pieces :=
  @exists_cutsInto line [] [] hvalid line.text rfl List.not_mem_nil

theorem CutsInto.valid_and_closed (hcuts : line.CutsInto done text pieces) (hvalid : line.Valid)
    (htext : line.text = done ++ text) : ∀ piece ∈ pieces, piece.Valid ∧ piece.Closed := by
  induction hcuts with
  | @last done current _ =>
      have hpart : line.text = done ++ current ++ [] := by simpa using htext
      simpa using And.intro (valid_part hvalid hpart) (closed_part hvalid hpart)
  | @next done current rest _ _ _ ih =>
      have hpart : line.text = done ++ current ++ '\n' :: rest := by simpa using htext
      exact List.forall_mem_cons.mpr
        ⟨⟨valid_part hvalid hpart, closed_part hvalid hpart⟩, ih (by simpa using htext)⟩

end Line

end LinePainter
