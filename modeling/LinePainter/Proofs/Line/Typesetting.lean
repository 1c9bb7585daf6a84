import LinePainter.Proofs.Line.Reflow
import LinePainter.Proofs.Line.Rows

namespace LinePainter

namespace Wrap

open Text

/-! What a wrap pass puts on its lines, without the text it came from. -/

/-- `text` may go on a line with `room` left. A unit stays on its line where it does not
overflow, filler is put where the line is not full, and a new line has its usable width
left. `behind` says that something was put on the line before; a unit then starts with a
word. -/
inductive Typeset (wrap : TextWrap) : Bool → Room → Text → Prop
  | done {behind : Bool} {room : Room} : Typeset wrap behind room []
  | unit {behind : Bool} {room : Room} {unit text : Text} :
      unit ≠ [] → leadingUnit unit = unit →
      (behind = true → startsInWord unit = true) →
      (text.head?.any isUnitChar = true → unit.getLast? = some '.') →
      ¬ Overflows wrap.usable room unit →
      Typeset wrap true (room.map (· - unit.length)) text →
      Typeset wrap behind room (unit ++ text)
  | filler {behind : Bool} {room : Room} {char : Char} {text : Text} :
      isWordChar char = false → char ≠ '\n' → room ≠ some 0 →
      Typeset wrap true (room.map (· - 1)) text →
      Typeset wrap behind room (char :: text)
  | newline {behind : Bool} {room : Room} {text : Text} :
      Typeset wrap false (some wrap.usable) text →
      Typeset wrap behind room ('\n' :: (List.replicate wrap.indent ' ' ++ text))

variable {wrap : TextWrap} {behind : Bool} {room : Room} {text new : Text}

/-! Units, as they are read. -/

theorem isUnitChar_of_mem_leadingUnit {char : Char} (hmem : char ∈ leadingUnit text) :
    isUnitChar char = true := by
  induction text with
  | nil => cases hmem
  | cons first rest ih =>
      rw [leadingUnit] at hmem
      split at hmem
      · next hfirst =>
          split at hmem
          · rw [List.mem_singleton.mp hmem]
            exact hfirst
          · rcases List.mem_cons.mp hmem with rfl | hlater
            · exact hfirst
            · exact ih hlater
      · cases hmem

theorem isUnitChar_of_mem_unit {unit : Text} (hunit : leadingUnit unit = unit) :
    ∀ char ∈ unit, isUnitChar char = true :=
  fun _ hmem => isUnitChar_of_mem_leadingUnit (hunit ▸ hmem)

theorem leadingUnit_leadingUnit (text : Text) :
    leadingUnit (leadingUnit text) = leadingUnit text := by
  induction text with
  | nil => rfl
  | cons first rest ih =>
      rw [leadingUnit]
      split
      · next hfirst =>
          split
          · next hstop => rw [leadingUnit, if_pos hfirst, if_pos hstop]
          · next hstop => rw [leadingUnit, if_pos hfirst, if_neg hstop, ih]
      · rfl

theorem leadingUnit_of_prefix_unit {part unit : Text} (hunit : leadingUnit unit = unit)
    (hpart : part <+: unit) : leadingUnit part = part := by
  induction part generalizing unit with
  | nil => rfl
  | cons first others ih =>
      obtain ⟨rest, rfl⟩ := hpart
      rw [List.cons_append, leadingUnit] at hunit
      split at hunit
      · next hfirst =>
          rw [leadingUnit, if_pos hfirst]
          split at hunit
          · next hstop =>
              have hothers : others = [] :=
                (List.append_eq_nil_iff.mp (List.cons.inj hunit).2.symm).1
              rw [if_pos hstop, hothers]
          · next hstop =>
              rw [if_neg hstop, ih (List.cons.inj hunit).2 (List.prefix_append others rest)]
      · cases hunit

theorem leadingUnit_prefix_append (text more : Text) :
    leadingUnit text <+: leadingUnit (text ++ more) := by
  induction text with
  | nil => exact List.nil_prefix
  | cons first rest ih =>
      rw [List.cons_append, leadingUnit, leadingUnit]
      split
      · split
        · exact List.prefix_rfl
        · exact List.cons_prefix_cons.mpr ⟨rfl, ih⟩
      · exact List.nil_prefix

theorem leadingUnit_eq_nil_iff : leadingUnit text = [] ↔ text.head?.any isUnitChar = false := by
  cases text with
  | nil => exact ⟨fun _ => rfl, fun _ => rfl⟩
  | cons first rest =>
      rw [leadingUnit, List.head?_cons, Option.any_some]
      split
      · next hfirst =>
          rw [hfirst]
          split <;> simp
      · next hfirst => simp [hfirst]

theorem startsInWord_leadingUnit (hstart : startsInWord text = true) :
    startsInWord (leadingUnit text) = true := by
  cases text with
  | nil => cases hstart
  | cons first rest =>
      have hword : isWordChar first = true := hstart
      rw [leadingUnit, if_pos (isUnitChar_of_isWordChar hword)]
      split <;> exact hstart

/-- A unit goes on as long as it can, unless it ends with a full stop. -/
theorem getLast?_leadingUnit (hunit : leadingUnit text ≠ [])
    (hnext : (text.drop (leadingUnit text).length).head?.any isUnitChar = true) :
    (leadingUnit text).getLast? = some '.' := by
  induction text with
  | nil => exact absurd rfl hunit
  | cons first rest ih =>
      rw [leadingUnit] at hunit hnext ⊢
      split at hunit
      · next hfirst =>
          rw [if_pos hfirst] at hnext ⊢
          split
          · next hstop => rw [hstop]; rfl
          · next hstop =>
              rw [if_neg hstop, List.length_cons, List.drop_succ_cons] at hnext
              by_cases hrest : leadingUnit rest = []
              · rw [hrest, List.length_nil, List.drop_zero,
                  leadingUnit_eq_nil_iff.mp hrest] at hnext
                cases hnext
              · rw [List.getLast?_cons, ih hrest hnext]
                rfl
      · exact absurd rfl hunit

theorem not_overflows_roomForUnit (wrap : TextWrap) (room : Room) (unit : Text) :
    ¬ Overflows wrap.usable (roomForUnit wrap room unit) unit := by
  unfold roomForUnit
  split
  · rintro ⟨left, hleft, hfresh, -⟩
    exact hfresh (Option.some.inj hleft).symm
  · assumption

theorem Reflows.head?_cases {indent : Nat} {previous : Option Char} {old : Text}
    (hreflows : Reflows indent previous false old new) :
    new.head? = old.head? ∨ new.head? = some '\n' := by
  cases hreflows with
  | done => exact .inl rfl
  | keep => exact .inl rfl
  | newline => exact .inl rfl
  | lineBreak => exact .inr rfl

namespace Typeset

/-! The parts of a round. `hrest` is about what comes after the part. -/

theorem takeFiller
    (hrest : ∀ behind,
      (behind = true → (takeFiller wrap.usable room text).room = some 0 ∨
        startsInWord (takeFiller wrap.usable room text).rest = true ∨
        (takeFiller wrap.usable room text).rest = []) →
      Typeset wrap behind (takeFiller wrap.usable room text).room new) :
    Typeset wrap behind room
      ((takeFiller wrap.usable room text).pieces.flatMap (Piece.replacement wrap) ++ new) := by
  induction text generalizing room behind with
  | nil => exact hrest behind fun _ => .inr (.inr rfl)
  | cons char rest ih =>
      rw [Wrap.takeFiller] at hrest ⊢
      split at hrest
      · next hfull =>
          rw [if_pos hfull]
          exact hrest behind fun _ => .inl hfull
      · next hroom =>
          rw [if_neg hroom]
          split at hrest
          · next hnewline =>
              subst hnewline
              have hfresh := hrest false (absurd · Bool.false_ne_true)
              simpa [Piece.replacement] using Typeset.newline hfresh
          · next hnewline =>
              rw [if_neg hnewline]
              split at hrest
              · next hword =>
                  rw [if_pos hword]
                  exact hrest behind fun _ => .inr (.inl hword)
              · next hword =>
                  rw [if_neg hword]
                  exact .filler (by simpa using hword) hnewline hroom (ih hrest)

theorem keepUnit (hstart : behind = true → startsInWord text = true ∨ text = [])
    (hfits : ¬ Overflows wrap.usable room (leadingUnit text))
    (hflow : Continues wrap (text.drop (leadingUnit text).length) new)
    (hrest : ∀ behind, Typeset wrap behind (room.map (· - (leadingUnit text).length)) new) :
    Typeset wrap behind room (leadingUnit text ++ new) := by
  by_cases hunit : leadingUnit text = []
  · have hroom := hrest behind
    rw [hunit] at hroom ⊢
    simpa using hroom
  · refine .unit hunit (leadingUnit_leadingUnit text) (fun hbehind => ?_)
      (fun hnext => ?_) hfits (hrest true)
    · rcases hstart hbehind with hword | rfl
      · exact startsInWord_leadingUnit hword
      · exact absurd rfl hunit
    · rcases (hflow none false nofun).head?_cases with hsame | hbreak
      · exact getLast?_leadingUnit hunit (hsame ▸ hnext)
      · rw [hbreak] at hnext
        cases hnext

/-- A unit that is moved to a new line has nothing of the pass in front of it there. -/
theorem moveUnit {unit : Text}
    (hunit : ∀ front, (front = true → behind = true) →
      Typeset wrap front (roomForUnit wrap room unit) new) :
    Typeset wrap behind room
      ((if Overflows wrap.usable room unit then [Piece.lineBreak] else []).flatMap
        (Piece.replacement wrap) ++ new) := by
  unfold roomForUnit at hunit
  split
  · next hmoves =>
      rw [if_pos hmoves] at hunit
      have hfresh := hunit false (absurd · Bool.false_ne_true)
      simpa [Piece.replacement] using Typeset.newline hfresh
  · next hstays =>
      rw [if_neg hstays] at hunit
      exact hunit behind id

theorem unitAndFiller (hstart : behind = true → startsInWord text = true ∨ text = [])
    {filler : Filler}
    (hfiller : filler = Wrap.takeFiller wrap.usable
      ((roomForUnit wrap room (leadingUnit text)).map (· - (leadingUnit text).length))
      (text.drop (leadingUnit text).length))
    (hflow : Continues wrap filler.rest new)
    (hrest : ∀ behind,
      (behind = true → filler.room = some 0 ∨ startsInWord filler.rest = true ∨
        filler.rest = []) →
      Typeset wrap behind filler.room new) :
    Typeset wrap behind room
      ((if Overflows wrap.usable room (leadingUnit text) then [Piece.lineBreak] else []).flatMap
          (Piece.replacement wrap) ++
        (leadingUnit text ++ (filler.pieces.flatMap (Piece.replacement wrap) ++ new))) := by
  subst hfiller
  refine moveUnit fun front hfront => ?_
  exact keepUnit (fun hbehind => hstart (hfront hbehind))
    (not_overflows_roomForUnit wrap room (leadingUnit text)) hflow.takeFiller
    fun behind => takeFiller hrest

/-- A round. What comes after it starts with a word, unless the line is a new one. -/
theorem round (hstart : behind = true → startsInWord text = true ∨ text = [])
    (hflow : Continues wrap (round wrap room text).rest new)
    (hrest : ∀ behind,
      (behind = true → startsInWord (round wrap room text).rest = true ∨
        (round wrap room text).rest = []) →
      Typeset wrap behind (round wrap room text).room new) :
    Typeset wrap behind room
      ((round wrap room text).pieces.flatMap (Piece.replacement wrap) ++ new) := by
  rw [Wrap.round] at hflow hrest ⊢
  dsimp only at hflow hrest ⊢
  split at hflow
  · next hfull =>
      rw [if_pos hfull] at hrest ⊢
      have hset := unitAndFiller hstart rfl
        (fun _ _ hseam => .lineBreak hseam (hflow.dropSpaces hseam))
        fun _ _ => Typeset.newline (hrest false (absurd · Bool.false_ne_true))
      simpa [flatMap_replacement_kept, Piece.replacement] using hset
  · next hfull =>
      rw [if_neg hfull] at hrest ⊢
      have hset := unitAndFiller hstart rfl hflow fun behind hnext =>
        hrest behind fun hbehind => (hnext hbehind).resolve_left hfull
      simpa [flatMap_replacement_kept] using hset

end Typeset

/-- A newline ends a line whatever stands on it. -/
theorem Typeset.of_newline (hset : Typeset wrap behind room new)
    (hnewline : new.head? = some '\n') (otherBehind : Bool) (otherRoom : Room) :
    Typeset wrap otherBehind otherRoom new := by
  cases hset with
  | done => cases hnewline
  | @unit _ _ unit text hunit hwhole _ _ _ _ =>
      obtain ⟨first, others, rfl⟩ := List.exists_cons_of_ne_nil hunit
      cases hnewline
      exact absurd (isUnitChar_of_mem_unit hwhole _ List.mem_cons_self) (by decide)
  | filler _ hchar _ _ => exact absurd (Option.some.inj hnewline) hchar
  | newline hrest => exact .newline hrest

theorem typeset_layout (wrap : TextWrap) (room : Room) (text : Text) :
    ∀ behind, (behind = true → startsInWord text = true ∨ text = []) →
      Typeset wrap behind room ((layout wrap room text).flatMap (Piece.replacement wrap)) := by
  fun_induction layout wrap room text with
  | case1 room => exact fun _ _ => .done
  | case2 room text _ next ih =>
      intro behind hstart
      rw [List.flatMap_append]
      exact Typeset.round hstart (continues_layout wrap next.room next.rest) ih

/-- The room on a line behind the bytes that are taken. -/
def roomBehind (wrap : TextWrap) (taken : Text) : Room :=
  if wrap.width ≤ taken.byteLength then none
  else some (wrap.width - taken.byteLength)

end Wrap

namespace Line

open Wrap

theorem roomAt_eq {after : Text} (wrap : TextWrap) (before : Text)
    (hafter : after.head? ≠ some '\n') :
    roomAt wrap before after = roomBehind wrap before.lastRow := by
  have htaken : Text.byteLength (before.reverse.takeWhile (· ≠ '\n')) =
      before.lastRow.byteLength :=
    (Text.byteLength_reverse _).symm
  simp only [roomAt, if_neg hafter, htaken, roomBehind, Int.ofNat_le]

theorem typeset_roomAt (wrap : TextWrap) (before after : Text) :
    Typeset wrap false (roomBehind wrap before.lastRow)
      ((layout wrap (roomAt wrap before after) after).flatMap (Piece.replacement wrap)) := by
  have hset := typeset_layout wrap (roomAt wrap before after) after false nofun
  by_cases hafter : after.head? = some '\n'
  · have hreflows := continues_layout wrap (roomAt wrap before after) after none false nofun
    refine hset.of_newline ?_ false _
    rcases hreflows.head?_cases with hsame | hnewline
    · exact hsame.trans hafter
    · exact hnewline
  · rwa [roomAt_eq wrap before hafter] at hset ⊢

/-- Behind the insertion point the text stays as it is, if all of it is narrow, or else is
laid out. -/
theorem exists_laidOut {line : Line} {before after : Text} (htext : line.text = before ++ after)
    (fragment : Line) (wrap : TextWrap) :
    ∃ wrapped new,
      line.insert before.byteLength fragment (some wrap) = .ok wrapped ∧
        wrapped.text = before ++ new ∧
        (wrapped.length ≤ wrap.width ∧ new = fragment.text ++ after ∨
          new = (layout wrap (roomAt wrap before (fragment.text ++ after))
            (fragment.text ++ after)).flatMap (Piece.replacement wrap)) := by
  have hsplit := line.text_splice before after fragment
  rw [insert_some_eq htext]
  by_cases hwide : wrap.width < (line.splice before after fragment).length
  · obtain ⟨wrapped, hwrapped, hkeeps⟩ := exists_wrapFrom wrap hsplit
    rw [if_pos hwide]
    exact ⟨wrapped, _, hwrapped, hkeeps.text_eq, .inr rfl⟩
  · rw [if_neg hwide]
    exact ⟨_, _, rfl, hsplit, .inl ⟨Nat.not_lt.mp hwide, rfl⟩⟩

end Line

end LinePainter
