import LinePainter.Proofs.Line.Cutting
import LinePainter.Proofs.Span.Overlap

namespace LinePainter

namespace Text

/-- A newline lies at the byte offset. -/
def NewlineAt (text : Text) (offset : Nat) : Prop :=
  ∃ index < text.length, text[index]? = some '\n' ∧ byteLength (text.take index) = offset

instance (text : Text) (offset : Nat) : Decidable (text.NewlineAt offset) :=
  inferInstanceAs (Decidable (∃ index < text.length,
    text[index]? = some '\n' ∧ byteLength (text.take index) = offset))

theorem newlineAt_append_cons (before after : Text) :
    NewlineAt (before ++ '\n' :: after) before.byteLength :=
  ⟨before.length, by simp, by simp, by simp⟩

end Text

namespace Span

variable {span : Span} {start stop offset : Nat}

theorem contains_clipped_iff (hoffset : start + offset < stop) :
    (span.clipped start stop).Contains offset ↔ span.Contains (start + offset) := by
  cases hstop : span.stop with
  | none => simp [Contains, clipped, stopOr, hstop]; omega
  | some other => simp [Contains, clipped, stopOr, hstop]; omega

theorem Contains.touches (hcontains : span.Contains offset) (hstart : start ≤ offset)
    (hstop : offset < stop) : Touches ⟨start, some stop⟩ span := by
  refine Overlaps.touches ⟨offset, ⟨hstart, fun other hother => ?_⟩, hcontains⟩
  cases hother
  exact hstop

end Span

namespace Line

/-! A line that is cut at its newlines and put together again. Attributes that reached over
a newline are in several parts then, but on the same text. -/

/-- The directives on the byte at `offset`, in the order of the attributes. -/
def directivesAt (line : Line) (offset : Nat) : List Directive :=
  (line.attributes.filter fun attr => attr.span.Contains offset).map (·.directive)

/-- Appends pieces to a line, with a newline between each two. -/
def appendPieces (joined : Line) : List Line → Line
  | [] => joined
  | [piece] => joined.append piece
  | piece :: next :: rest =>
      appendPieces ((joined.append piece).appendText ['\n']) (next :: rest)

def rejoin (pieces : List Line) : Line :=
  appendPieces {} pieces

variable {line built : Line} {done current after text : Text} {pieces : List Line}

theorem directivesAt_part (hvalid : line.Valid) (htext : line.text = done ++ current ++ after)
    {offset : Nat} (hoffset : offset < current.byteLength) :
    (line.part done current).directivesAt offset =
      line.directivesAt (done.byteLength + offset) := by
  have hinside := Nat.add_lt_add_left hoffset done.byteLength
  rw [directivesAt, part,
    attributesWithin_eq hvalid (Nat.le_add_right ..) (part_within htext), List.filter_map,
    List.map_map, List.filter_filter, directivesAt]
  have hkept : (line.attributes.filter fun attr =>
      (decide ((attr.span.clipped done.byteLength
          (done.byteLength + current.byteLength)).Contains offset) &&
        decide (Span.Touches
          ⟨done.byteLength, some (done.byteLength + current.byteLength)⟩ attr.span))) =
      line.attributes.filter fun attr => attr.span.Contains (done.byteLength + offset) := by
    apply List.filter_congr
    intro attr _
    rw [← Bool.decide_and, decide_eq_decide, Span.contains_clipped_iff hinside]
    exact and_iff_left_of_imp fun hcontains =>
      hcontains.touches (Nat.le_add_right ..) hinside
  exact congrArg (List.map _) hkept

/-! Putting pieces together. -/

theorem append_eq (line fragment : Line) :
    line.append fragment =
      ⟨line.text ++ fragment.text,
        line.attributes ++ fragment.embeddedAttributes line.length⟩ := by
  simp [append, splice, Line.length, embeddedAttributes, Span.embedded]

theorem directivesAt_append_of_lt {fragment : Line} (hfragment : fragment.Valid)
    {offset : Nat} (hoffset : offset < line.length) :
    (line.append fragment).directivesAt offset = line.directivesAt offset := by
  have hnone : (fragment.embeddedAttributes line.length).filter
      (fun attr => attr.span.Contains offset) = [] := by
    simp only [embeddedAttributes, List.filter_eq_nil_iff, List.mem_map, decide_eq_true_eq]
    rintro _ ⟨attr, hattr, rfl⟩
    exact (hfragment attr hattr).not_contains_embedded (.inl hoffset)
  simp [append_eq, directivesAt, hnone]

theorem directivesAt_append_of_closed {fragment : Line} (hvalid : line.Valid)
    (hclosed : line.Closed) {offset : Nat} (hoffset : offset < fragment.length) :
    (line.append fragment).directivesAt (line.length + offset) =
      fragment.directivesAt offset := by
  have hnone : line.attributes.filter
      (fun attr => attr.span.Contains (line.length + offset)) = [] := by
    simp only [List.filter_eq_nil_iff, decide_eq_true_eq]
    intro attr hattr hcontains
    have hopen := ((hvalid attr hattr).contains_past_iff (Nat.le_add_right ..)).mp hcontains
    simpa [hopen] using hclosed attr hattr
  have hsame (attr : Attribute) :
      (attr.span.embedded line.length fragment.length).Contains (line.length + offset) ↔
        attr.span.Contains offset := Span.contains_embedded_iff hoffset
  simp [append_eq, directivesAt, hnone, embeddedAttributes, List.filter_map,
    Function.comp_def, hsame]

theorem closed_append {fragment : Line} (hclosed : line.Closed) :
    (line.append fragment).Closed := by
  intro attr hattr
  rw [append_eq] at hattr
  rcases List.mem_append.mp hattr with hold | hnew
  · exact hclosed attr hold
  · obtain ⟨old, -, rfl⟩ := List.mem_map.mp hnew
    rfl

/-- `built` is the line as far as `done`: every byte but the newlines is under the same
directives. Nothing in it reaches over what is appended next. -/
structure Repeats (line built : Line) (done : Text) : Prop where
  text_eq : built.text = done
  valid : built.Valid
  closed : built.Closed
  directivesAt_eq : ∀ offset < done.byteLength, ¬ line.text.NewlineAt offset →
    built.directivesAt offset = line.directivesAt offset

theorem repeats_nil (line : Line) : line.Repeats {} [] where
  text_eq := rfl
  valid _ hattr := nomatch hattr
  closed _ hattr := nomatch hattr
  directivesAt_eq _ hoffset := absurd hoffset (Nat.not_lt_zero _)

theorem Repeats.append (hrepeats : line.Repeats built done) (hvalid : line.Valid)
    (htext : line.text = done ++ current ++ after) :
    line.Repeats (built.append (line.part done current)) (done ++ current) where
  text_eq := by rw [append_eq, hrepeats.text_eq]; rfl
  valid := valid_append hrepeats.valid (valid_part hvalid htext)
  closed := closed_append hrepeats.closed
  directivesAt_eq offset hoffset hnewline := by
    have hlength : built.length = done.byteLength := congrArg _ hrepeats.text_eq
    -- What was built is closed, so it says nothing about the bytes of the piece.
    rcases Nat.lt_or_ge offset done.byteLength with hfront | hbehind
    · rw [directivesAt_append_of_lt (valid_part hvalid htext) (hlength ▸ hfront),
        hrepeats.directivesAt_eq offset hfront hnewline]
    · obtain ⟨inside, rfl⟩ := Nat.exists_eq_add_of_le hbehind
      have hinside : inside < current.byteLength := by
        rw [Text.byteLength_append] at hoffset
        omega
      rw [← directivesAt_part hvalid htext hinside, ← hlength]
      exact directivesAt_append_of_closed hrepeats.valid hrepeats.closed hinside

theorem Repeats.appendNewline (hrepeats : line.Repeats built done)
    (htext : line.text = done ++ '\n' :: after) :
    line.Repeats (built.appendText ['\n']) (done ++ ['\n']) where
  text_eq := congrArg (· ++ ['\n']) hrepeats.text_eq
  valid := valid_appendText hrepeats.valid _
  closed := hrepeats.closed
  directivesAt_eq offset hoffset hnewline := by
    rcases Nat.lt_or_ge offset done.byteLength with hfront | hbehind
    · exact hrepeats.directivesAt_eq offset hfront hnewline
    · have hhere : offset = done.byteLength := by
        simp at hoffset
        omega
      subst hhere
      exact absurd (htext ▸ Text.newlineAt_append_cons done after) hnewline

namespace CutsInto

theorem length_eq (hcuts : line.CutsInto done text pieces) :
    pieces.length = text.count '\n' + 1 := by
  induction hcuts with
  | last hcurrent => simp [List.count_eq_zero.mpr hcurrent]
  | next hcurrent _ ih => simp [List.count_eq_zero.mpr hcurrent, ih]

theorem newline_not_mem (hcuts : line.CutsInto done text pieces) :
    ∀ piece ∈ pieces, '\n' ∉ piece.text := by
  induction hcuts with
  | last hcurrent => simpa [part] using hcurrent
  | next hcurrent _ ih => exact List.forall_mem_cons.mpr ⟨hcurrent, ih⟩

theorem intercalate_eq (hcuts : line.CutsInto done text pieces) :
    ['\n'].intercalate (pieces.map (·.text)) = text := by
  induction hcuts with
  | last _ => simp [part]
  | next _ hrest ih => cases hrest <;> simp_all [part]

theorem repeats_appendPieces (hcuts : line.CutsInto done text pieces) (hvalid : line.Valid)
    (htext : line.text = done ++ text) (hrepeats : line.Repeats built done) :
    line.Repeats (built.appendPieces pieces) (done ++ text) := by
  induction hcuts generalizing built with
  | @last done current _ =>
      have hpart : line.text = done ++ current ++ [] := by simpa using htext
      exact hrepeats.append hvalid hpart
  | @next done current rest pieces _ hrest ih =>
      have hpart : line.text = done ++ current ++ '\n' :: rest := by simpa using htext
      have hnext := ih (by simpa using htext) ((hrepeats.append hvalid hpart).appendNewline hpart)
      have hstep : built.appendPieces (line.part done current :: pieces) =
          ((built.append (line.part done current)).appendText ['\n']).appendPieces pieces := by
        cases hrest <;> rfl
      rw [hstep]
      simpa using hnext

end CutsInto

/-- Cutting a line at its newlines and putting the pieces together again gives its text
back, and every byte but the newlines is under the same directives in the same order. -/
theorem pieces_rejoin (hvalid : line.fault? = none) :
    ∃ pieces, line.splitLines = .ok pieces ∧
      pieces.length = line.text.count '\n' + 1 ∧
      ['\n'].intercalate (pieces.map (·.text)) = line.text ∧
      (∀ piece ∈ pieces, '\n' ∉ piece.text ∧ piece.fault? = none ∧
        ∀ attr ∈ piece.attributes, attr.span.stop.isSome) ∧
      (rejoin pieces).text = line.text ∧
      (rejoin pieces).fault? = none ∧
      ∀ offset < line.length, ¬ line.text.NewlineAt offset →
        (rejoin pieces).directivesAt offset = line.directivesAt offset := by
  simp only [← valid_iff_fault?_eq_none] at hvalid ⊢
  obtain ⟨pieces, hpieces, hcuts⟩ := exists_splitLines hvalid
  have hrejoined := hcuts.repeats_appendPieces hvalid rfl line.repeats_nil
  refine ⟨pieces, hpieces, hcuts.length_eq, hcuts.intercalate_eq, fun piece hpiece => ?_,
    hrejoined.text_eq, hrejoined.valid, hrejoined.directivesAt_eq⟩
  exact ⟨hcuts.newline_not_mem piece hpiece,
    hcuts.valid_and_closed hvalid rfl piece hpiece⟩

theorem pieces_rejoin_across_newlines :
    let line : Line := ⟨['a', '\n', 'é', 'b', '\n', '\n', 'c'],
      [⟨⟨0, none⟩, .foreground .red⟩, ⟨⟨1, some 5⟩, .graphic '─'⟩,
        ⟨⟨4, some 4⟩, .background .blue⟩]⟩
    ∃ pieces, line.splitLines = .ok pieces ∧ pieces.length = 4 ∧
      (rejoin pieces).text = line.text ∧
      (rejoin pieces).directivesAt 4 = [.foreground .red, .graphic '─'] := by
  intro line
  obtain ⟨pieces, hpieces, hlength, -, -, htext, -, hdirectives⟩ :=
    @pieces_rejoin line (by decide)
  exact ⟨pieces, hpieces, hlength, htext, hdirectives 4 (by decide) (by decide)⟩

end Line

end LinePainter
