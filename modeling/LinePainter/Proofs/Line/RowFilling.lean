import LinePainter.Proofs.Line.Width

namespace LinePainter

namespace Wrap

open Text

/-! How a row fills up. A unit that follows something on its row is moved to a new one unless
it fits, so a run of unit characters that goes on from there ends within the width. -/

/-- Behind the last word of the text stands a full stop. -/
def UnitEnded (text : Text) : Prop :=
  ∃ earlier filler, text = earlier ++ '.' :: filler ∧
    ∀ char ∈ filler, isWordChar char = false

/-- A unit begins between the two parts of a run of unit characters. -/
def UnitBegins (front back : Text) : Prop :=
  startsInWord back = true ∧ (front = [] ∨ UnitEnded front)

/-- `run` consists of unit characters, from a word on, and does not belong to what stands
in front of it on its row, which is more than spaces. -/
structure FollowingRun (front run : Text) : Prop where
  unit_chars : ∀ char ∈ run, isUnitChar char = true
  starts_in_word : startsInWord run = true
  apart : front.getLast?.any isUnitChar = false
  not_first : ∃ char ∈ front, char ≠ ' '

/-- The runs that follow something on the row, are as long as can be and start behind
`start` characters or more end within the width, but for those that are excused. -/
def RunsEndWithin (width start : Nat) (excused : Text → Text → Prop) (row : Text) : Prop :=
  ∀ front run rest, row = front ++ run ++ rest → FollowingRun front run →
    rest.head?.any isUnitChar = false → start ≤ front.length → ¬ excused front run →
    front.length + run.length ≤ width

/-- A unit of the run begins where just the usable width is left, and is longer than that. The
columns of `taken`, the first part of the row, are counted in bytes. -/
def LongUnitBegins (wrap : TextWrap) (taken front run : Text) : Prop :=
  ∃ part rest, run = part ++ rest ∧ UnitBegins part rest ∧
    taken.byteLength + (front.length + part.length - taken.length) = wrap.indent ∧
    wrap.width - wrap.indent < (leadingUnit rest).length

/-- The run starts in `taken`, the part of the row that is not set by the pass, or that part
is full already, or the run has a unit that was too long for all of the usable width. -/
def Excused (wrap : TextWrap) (taken front run : Text) : Prop :=
  front.length < taken.length ∨ wrap.width ≤ taken.byteLength ∨
    LongUnitBegins wrap taken front run

/-- A row that begins with `taken`, and on which runs behind that only overrun the width if
they are excused. -/
structure Settled (wrap : TextWrap) (taken row : Text) : Prop where
  begins : taken <+: row
  fits : ∀ front run rest, row = front ++ run ++ rest → FollowingRun front run →
    ¬ Excused wrap taken front run → front.length + run.length ≤ wrap.width

variable {wrap : TextWrap} {behind : Bool} {room : Room} {width start : Nat}
  {taken done row front run part more text : Text}

namespace FollowingRun

theorem ne_nil (hrun : FollowingRun front run) : run ≠ [] := by
  rintro rfl
  cases hrun.starts_in_word

theorem of_append (hrun : FollowingRun front (part ++ more)) (hpart : part ≠ []) :
    FollowingRun front part where
  unit_chars char hmem := hrun.unit_chars char (List.mem_append_left more hmem)
  starts_in_word := by
    obtain ⟨first, others, rfl⟩ := List.exists_cons_of_ne_nil hpart
    exact hrun.starts_in_word
  apart := hrun.apart
  not_first := hrun.not_first

end FollowingRun

theorem UnitEnded.append (hended : UnitEnded text) {filler : Text}
    (hfiller : ∀ char ∈ filler, isWordChar char = false) : UnitEnded (text ++ filler) := by
  obtain ⟨earlier, others, rfl, hothers⟩ := hended
  refine ⟨earlier, others ++ filler, by simp, fun char hmem => ?_⟩
  exact (List.mem_append.mp hmem).elim (hothers char) (hfiller char)

theorem unitEnded_of_getLast? (hstop : text.getLast? = some '.') : UnitEnded text := by
  obtain ⟨earlier, rfl⟩ := List.getLast?_eq_some_iff.mp hstop
  exact ⟨earlier, [], rfl, nofun⟩

theorem Excused.append (hexcused : Excused wrap taken front part) (more : Text) :
    Excused wrap taken front (part ++ more) := by
  rcases hexcused with hstart | hfull | ⟨former, latter, rfl, ⟨hword, hbegins⟩, hcolumn, hlong⟩
  · exact .inl hstart
  · exact .inr (.inl hfull)
  · have hlonger := (leadingUnit_prefix_append latter more).length_le
    refine .inr (.inr ⟨former, latter ++ more, by simp, ⟨?_, hbegins⟩, hcolumn,
      Nat.lt_of_lt_of_le hlong hlonger⟩)
    cases latter with
    | nil => cases hword
    | cons first others => exact hword

theorem bounds_of_not_excused (hexcused : ¬ Excused wrap taken front run) :
    taken.length ≤ front.length ∧ taken.byteLength < wrap.width :=
  ⟨Nat.not_lt.mp fun hstart => hexcused (.inl hstart),
    Nat.not_le.mp fun hfull => hexcused (.inr (.inl hfull))⟩

/-- A run that lies in what was there before is none of the pass. -/
theorem excused_of_taken_eq {rest : Text} (hrow : taken = front ++ run ++ rest)
    (hrun : FollowingRun front run) : Excused wrap taken front run := by
  have hlength := congrArg List.length hrow
  have hpos := List.length_pos_of_ne_nil hrun.ne_nil
  simp only [List.length_append] at hlength
  exact .inl (by omega)

theorem runsEndWithin_of_length_le {excused : Text → Text → Prop} (hlength : row.length ≤ width) :
    RunsEndWithin width start excused row := by
  intro front run rest hrow _ _ _ _
  rw [hrow, List.length_append, List.length_append] at hlength
  omega

theorem Settled.runsEndWithin (hsettled : Settled wrap taken row)
    (htaken : taken.byteLength < wrap.width) :
    RunsEndWithin wrap.width taken.length (LongUnitBegins wrap taken) row := by
  intro front run rest hrow hrun _ hstart hexcused
  refine hsettled.fits front run rest hrow hrun ?_
  rintro (hearly | hfull | hbegins)
  · omega
  · omega
  · exact hexcused hbegins

/-- Nothing is excused on a row that begins with the indent. What stands within that is
spaces only. -/
theorem Settled.runsEndWithin_of_indent (hindent : wrap.indent < wrap.width)
    (hsettled : Settled wrap (List.replicate wrap.indent ' ') row) :
    RunsEndWithin wrap.width 0 (fun _ _ => False) row := by
  intro front run rest hrow hrun _ _ _
  have hlonger : wrap.indent < front.length := by
    by_contra hshort
    have hwithin : front <+: List.replicate wrap.indent ' ' := by
      refine List.prefix_of_prefix_length_le ⟨run ++ rest, ?_⟩ hsettled.begins ?_
      · rw [hrow, List.append_assoc]
      · rw [List.length_replicate]
        omega
    obtain ⟨char, hmem, hchar⟩ := hrun.not_first
    exact hchar (List.eq_of_mem_replicate (hwithin.subset hmem))
  refine hsettled.fits front run rest hrow hrun ?_
  rintro (hearly | hfull | ⟨part, latter, -, -, hcolumn, -⟩)
  · rw [List.length_replicate] at hearly
    omega
  · rw [byteLength_replicate, utf8Size_space] at hfull
    omega
  · rw [byteLength_replicate, utf8Size_space, List.length_replicate] at hcolumn
    omega

/-- A row is being set. `taken` was there before the pass, or is the indent, and `done` was
put behind it. `text` comes next. -/
structure Filling (wrap : TextWrap) (taken done : Text) (behind : Bool) (room : Room)
    (text : Text) : Prop where
  room_eq : taken.byteLength < wrap.width →
    room = some ((wrap.width : Int) - taken.byteLength - done.length)
  settled : Settled wrap taken (taken ++ done)
  behind_of_done : done ≠ [] → behind = true
  /-- A run at the end of the row is within the width in bytes, and a unit of it that goes
  on has not been cut. -/
  last_run : ∀ front run, taken ++ done = front ++ run → FollowingRun front run →
    ¬ Excused wrap taken front run →
    taken.byteLength + done.length ≤ wrap.width ∧
      (text.head?.any isUnitChar = true → UnitEnded run)

/-- Where a part of a longer row lies, seen from the row in front of `more`. -/
theorem part_cases {rest : Text} (hrow : row ++ more = front ++ run ++ rest) :
    (∃ gap, row = front ++ run ++ gap) ∨
      (∃ part tail, row = front ++ part ∧ run = part ++ tail ∧ tail ≠ [] ∧ tail <+: more) ∨
      ∃ gap, gap ≠ [] ∧ front = row ++ gap ∧ gap ++ run <+: more := by
  rcases List.append_eq_append_iff.mp hrow with ⟨reached, hreached, hmore⟩ | ⟨gap, hgap, -⟩
  · have hwithin : reached <+: more := ⟨rest, hmore.symm⟩
    by_cases hnothing : reached = []
    · exact .inl ⟨[], by simp [hreached, hnothing]⟩
    rcases List.append_eq_append_iff.mp hreached with ⟨part, hpart, hrun⟩ | ⟨gap, hfront, hgap⟩
    · exact .inr (.inl ⟨part, reached, hpart, hrun, hnothing, hwithin⟩)
    · by_cases hnogap : gap = []
      · subst hnogap
        exact .inr (.inl ⟨[], reached, by simp [hfront], by simp [hgap], hnothing, hwithin⟩)
      · exact .inr (.inr ⟨gap, hnogap, hfront, hgap ▸ hwithin⟩)
  · exact .inl ⟨gap, hgap⟩

namespace Filling

/-- Something is put on the row. A run that goes on into it has to be within the width,
no run may begin in the middle of it, and it may only end where a unit does. -/
theorem extend (hfilling : Filling wrap taken done behind room (more ++ text)) (hmore : more ≠ [])
    (hreach : ∀ front part tail, taken ++ done = front ++ part → tail ≠ [] → tail <+: more →
      FollowingRun front (part ++ tail) → ¬ Excused wrap taken front (part ++ tail) →
      taken.byteLength + done.length + tail.length ≤ wrap.width)
    (hapart : ∀ gap run, gap ≠ [] → gap ++ run <+: more →
      ¬ FollowingRun (taken ++ done ++ gap) run)
    (hended : ∀ front part, taken ++ done = front ++ part → FollowingRun front (part ++ more) →
      ¬ Excused wrap taken front (part ++ more) → text.head?.any isUnitChar = true →
      UnitEnded (part ++ more)) :
    Filling wrap taken (done ++ more) true (room.map (· - more.length)) text where
  room_eq htaken := by
    rw [hfilling.room_eq htaken, Option.map_some, List.length_append]
    exact congrArg some (by omega)
  settled := by
    refine ⟨List.prefix_append .., fun front run rest hrow hrun hexcused => ?_⟩
    rw [← List.append_assoc] at hrow
    rcases part_cases hrow with ⟨gap, hgap⟩ | ⟨part, tail, hpart, rfl, hne, hwithin⟩ |
      ⟨gap, hne, rfl, hwithin⟩
    · exact hfilling.settled.fits front run gap hgap hrun hexcused
    · have hbound := hreach front part tail hpart hne hwithin hrun hexcused
      have hlength := congrArg List.length hpart
      have htaken := length_le_byteLength taken
      simp only [List.length_append] at hlength ⊢
      omega
    · exact absurd hrun (hapart gap run hne hwithin)
  behind_of_done _ := rfl
  last_run := by
    intro front run hrow hrun hexcused
    rw [← List.append_assoc] at hrow
    have hrow' : taken ++ done ++ more = front ++ run ++ [] := by rw [hrow, List.append_nil]
    rcases part_cases hrow' with ⟨gap, hgap⟩ | ⟨part, tail, hpart, rfl, hne, hwithin⟩ |
      ⟨gap, hne, rfl, hwithin⟩
    · have hlength := congrArg List.length hgap
      have hlonger := congrArg List.length hrow
      have hpos := List.length_pos_of_ne_nil hmore
      simp only [List.length_append] at hlength hlonger
      omega
    · have hall : tail = more := by
        rw [hpart, ← List.append_assoc] at hrow
        exact (List.append_cancel_left hrow).symm
      subst hall
      refine ⟨?_, hended front part hpart hrun hexcused⟩
      rw [List.length_append, ← Nat.add_assoc]
      exact hreach front part tail hpart hne hwithin hrun hexcused
    · exact absurd hrun (hapart gap run hne hwithin)

theorem of_taken (wrap : TextWrap) (taken text : Text) :
    Filling wrap taken [] false (roomBehind wrap taken) text where
  room_eq htaken := by
    rw [roomBehind, if_neg (Nat.not_le.mpr htaken)]
    simp
  settled := by
    rw [List.append_nil]
    exact ⟨List.prefix_rfl, fun front run rest hrow hrun hexcused =>
      absurd (excused_of_taken_eq hrow hrun) hexcused⟩
  behind_of_done hdone := absurd rfl hdone
  last_run front run hrow hrun hexcused := by
    rw [List.append_nil, ← List.append_nil (front ++ run)] at hrow
    exact absurd (excused_of_taken_eq hrow hrun) hexcused

/-- As much of a unit fits as belongs to a run which is not excused. If it did not, the unit
would have overflowed, unless it began where just the usable width was left. -/
theorem unit_fits {unit tail : Text} (hfilling : Filling wrap taken done behind room (unit ++ text))
    (hindent : wrap.indent < wrap.width) (hwhole : leadingUnit unit = unit)
    (hstart : behind = true → startsInWord unit = true)
    (hfits : ¬ Overflows wrap.usable room unit)
    (hrow : taken ++ done = front ++ part) (htail : tail ≠ []) (hwithin : tail <+: unit)
    (hrun : FollowingRun front (part ++ tail))
    (hexcused : ¬ Excused wrap taken front (part ++ tail)) :
    taken.byteLength + done.length + tail.length ≤ wrap.width := by
  by_contra hlong
  obtain ⟨hstarts, htaken⟩ := bounds_of_not_excused hexcused
  have hlength := congrArg List.length hrow
  simp only [List.length_append] at hlength
  have hunit := hwithin.length_le
  have hcolumn : taken.byteLength + done.length = wrap.indent := by
    by_contra hother
    refine hfits ⟨_, hfilling.room_eq htaken, ?_, by omega⟩
    rw [usable_of_lt hindent]
    omega
  have hbegins : UnitBegins part tail := by
    by_cases hpart : part = []
    · subst hpart
      exact ⟨hrun.starts_in_word, .inl rfl⟩
    · -- The run goes on from the row, so the unit is not the first thing on it.
      have hdone : done ≠ [] := by
        have hpos := List.length_pos_of_ne_nil hpart
        rintro rfl
        rw [List.length_nil] at hlength
        omega
      obtain ⟨first, others, rfl⟩ := List.exists_cons_of_ne_nil htail
      obtain ⟨rest, rfl⟩ := hwithin
      have hended := (hfilling.last_run front part hrow (hrun.of_append hpart)
        fun hpartly => hexcused (hpartly.append _)).2
      have hfirst := isUnitChar_of_mem_unit hwhole first (by simp)
      exact ⟨hstart (hfilling.behind_of_done hdone), .inr (hended hfirst)⟩
  refine hexcused (.inr (.inr ⟨part, tail, rfl, hbegins, by omega, ?_⟩))
  rw [leadingUnit_of_prefix_unit hwhole hwithin]
  omega

theorem keepUnit {unit : Text} (hfilling : Filling wrap taken done behind room (unit ++ text))
    (hindent : wrap.indent < wrap.width) (hunit : unit ≠ []) (hwhole : leadingUnit unit = unit)
    (hstart : behind = true → startsInWord unit = true)
    (hseam : text.head?.any isUnitChar = true → unit.getLast? = some '.')
    (hfits : ¬ Overflows wrap.usable room unit) :
    Filling wrap taken (done ++ unit) true (room.map (· - unit.length)) text := by
  refine hfilling.extend hunit ?_ ?_ ?_
  · intro front part tail hrow htail hwithin hrun hexcused
    exact hfilling.unit_fits hindent hwhole hstart hfits hrow htail hwithin hrun hexcused
  · intro gap run hgap hwithin hrun
    obtain ⟨last, hlast⟩ := Option.isSome_iff_exists.mp (List.getLast?_isSome.mpr hgap)
    have hchar : isUnitChar last = true := isUnitChar_of_mem_unit hwhole last
      (hwithin.subset (List.mem_append_left run (List.mem_of_getLast? hlast)))
    have hapart := hrun.apart
    rw [List.getLast?_append, hlast, Option.some_or, Option.any_some, hchar] at hapart
    cases hapart
  · intro front part _ _ _ hnext
    apply unitEnded_of_getLast?
    rw [List.getLast?_append, hseam hnext, Option.some_or]

theorem keepFiller {char : Char} (hfilling : Filling wrap taken done behind room (char :: text))
    (hchar : isWordChar char = false) (hroom : room ≠ some 0) :
    Filling wrap taken (done ++ [char]) true (room.map (· - 1)) text := by
  -- A run does not start with filler, so the part in front of it is a run already.
  have hpart {front part : Text} (hrow : taken ++ done = front ++ part)
      (hrun : FollowingRun front (part ++ [char]))
      (hexcused : ¬ Excused wrap taken front (part ++ [char])) :
      taken.byteLength + done.length ≤ wrap.width ∧ UnitEnded part := by
    have hne : part ≠ [] := by
      rintro rfl
      have hword : isWordChar char = true := hrun.starts_in_word
      rw [hchar] at hword
      cases hword
    obtain ⟨hbound, hended⟩ := hfilling.last_run front part hrow (hrun.of_append hne)
      fun hpartly => hexcused (hpartly.append _)
    exact ⟨hbound, hended (hrun.unit_chars char (by simp))⟩
  refine hfilling.extend (List.cons_ne_nil char []) ?_ ?_ ?_
  · intro front part tail hrow htail hwithin hrun hexcused
    have hall : tail = [char] :=
      hwithin.eq_of_length (Nat.le_antisymm hwithin.length_le (List.length_pos_of_ne_nil htail))
    subst hall
    have hbound := (hpart hrow hrun hexcused).1
    have hleft : taken.byteLength + done.length ≠ wrap.width := by
      intro hfull
      refine hroom ((hfilling.room_eq (bounds_of_not_excused hexcused).2).trans ?_)
      exact congrArg some (by omega)
    rw [List.length_singleton]
    omega
  · intro gap run hgap hwithin hrun
    have hlength := hwithin.length_le
    have hgapLength := List.length_pos_of_ne_nil hgap
    have hrunLength := List.length_pos_of_ne_nil hrun.ne_nil
    simp only [List.length_append, List.length_singleton] at hlength
    omega
  · intro front part hrow hrun hexcused _
    refine (hpart hrow hrun hexcused).2.append fun other hother => ?_
    rw [List.mem_singleton.mp hother]
    exact hchar

end Filling

theorem Typeset.settles (hset : Typeset wrap behind room text)
    (hindent : wrap.indent < wrap.width) (hrow : '\n' ∉ taken ++ done)
    (hfilling : Filling wrap taken done behind room text) :
    ∃ first later, rows (taken ++ done ++ text) = first :: later ∧
      Settled wrap taken first ∧
      ∀ row ∈ later, Settled wrap (List.replicate wrap.indent ' ') row := by
  -- A newline starts the row at hand over, with the indent as what was taken.
  induction hset generalizing taken done with
  | done =>
      rw [List.append_nil, rows_of_not_mem hrow]
      exact ⟨_, [], rfl, hfilling.settled, nofun⟩
  | unit hunit hwhole hstart hseam hfits _ ih =>
      have hnext := hfilling.keepUnit hindent hunit hwhole hstart hseam hfits
      rw [← List.append_assoc, List.append_assoc taken]
      refine ih ?_ hnext
      rw [← List.append_assoc, List.mem_append, not_or]
      exact ⟨hrow, newline_not_mem_of_isUnitChar (isUnitChar_of_mem_unit hwhole)⟩
  | @filler _ _ char _ hword hchar hroom _ ih =>
      have hnext := hfilling.keepFiller hword hroom
      rw [List.append_cons, List.append_assoc taken]
      refine ih ?_ hnext
      rw [← List.append_assoc, List.mem_append, List.mem_singleton, not_or]
      exact ⟨hrow, Ne.symm hchar⟩
  | @newline _ _ text _ ih =>
      have hroom : roomBehind wrap (List.replicate wrap.indent ' ') = some wrap.usable := by
        rw [roomBehind, usable_of_lt hindent]
        simp
        omega
      have hnext := Filling.of_taken wrap (List.replicate wrap.indent ' ') text
      rw [hroom] at hnext
      obtain ⟨first, later, hrows, hfirst, hlater⟩ := ih (by simp) hnext
      rw [List.append_nil] at hrows
      rw [rows_append_newline hrow, hrows]
      exact ⟨_, first :: later, rfl, hfilling.settled,
        List.forall_mem_cons.mpr ⟨hfirst, hlater⟩⟩

/-- The rows of a text that begins with `taken`, the first one and those behind it, where
`taken` is not full. -/
structure EndWithin (wrap : TextWrap) (taken first : Text) (later : List Text) : Prop where
  first_row : taken.byteLength < wrap.width →
    RunsEndWithin wrap.width taken.length (LongUnitBegins wrap taken) first
  later_rows : ∀ row ∈ later, RunsEndWithin wrap.width 0 (fun _ _ => False) row

theorem exists_endWithin_of_length_le (hlength : ∀ row ∈ rows text, row.length ≤ wrap.width) :
    ∃ first later, rows text = first :: later ∧ EndWithin wrap taken first later := by
  obtain ⟨first, later, hrows⟩ := List.exists_cons_of_ne_nil (List.splitOn_ne_nil '\n' text)
  rw [rows, hrows] at hlength
  obtain ⟨hfirst, hlater⟩ := List.forall_mem_cons.mp hlength
  exact ⟨first, later, hrows, fun _ => runsEndWithin_of_length_le hfirst,
    fun row hmem => runsEndWithin_of_length_le (hlater row hmem)⟩

theorem Typeset.exists_endWithin (hset : Typeset wrap false (roomBehind wrap taken) text)
    (hindent : wrap.indent < wrap.width) (htaken : '\n' ∉ taken) :
    ∃ first later, rows (taken ++ text) = first :: later ∧ EndWithin wrap taken first later := by
  obtain ⟨first, later, hrows, hfirst, hlater⟩ :=
    hset.settles hindent (by rwa [List.append_nil]) (Filling.of_taken wrap taken text)
  rw [List.append_nil] at hrows
  exact ⟨first, later, hrows, hfirst.runsEndWithin,
    fun row hmem => (hlater row hmem).runsEndWithin_of_indent hindent⟩

end Wrap

end LinePainter
