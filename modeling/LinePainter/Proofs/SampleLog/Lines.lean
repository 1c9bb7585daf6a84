import LinePainter.Proofs.Line.Breaks
import LinePainter.Proofs.Line.Rejoining
import LinePainter.SampleLog

namespace LinePainter

/-! The sample has all its lines for every theme and every width: no attribute reaches past
its line, and the note is cut into a limited number of pieces. -/

@[simp] theorem mapError_ok {error error' value : Type} (f : error → error') (result : value) :
    (Except.ok result).mapError f = .ok result := rfl

namespace Text

theorem find?_sound {pattern text : Text} {start : Nat}
    (hfound : find? pattern text = some start) :
    ∃ before after, text = before ++ pattern ++ after ∧ before.byteLength = start := by
  induction text generalizing start with
  | nil =>
      simp only [find?] at hfound
      split at hfound
      · next hempty =>
          cases hfound
          exact ⟨[], [], by simp [hempty], rfl⟩
      · cases hfound
  | cons char rest ih =>
      simp only [find?] at hfound
      split at hfound
      · next hhere =>
          cases hfound
          obtain ⟨after, hafter⟩ := List.isPrefixOf_iff_prefix.mp hhere
          exact ⟨[], after, by simp [hafter], rfl⟩
      · obtain ⟨later, hlater, rfl⟩ := Option.map_eq_some_iff.mp hfound
        obtain ⟨before, after, htext, hlength⟩ := ih hlater
        exact ⟨char :: before, after, by simp [htext], by simp [hlength]⟩

end Text

namespace Line

variable {line : Line} {span : Span} {word : String}

@[simp] theorem text_addAttribute (line : Line) (span : Span) (directive : Directive) :
    (line.addAttribute span directive).text = line.text := rfl

@[simp] theorem text_mark (line : Line) (word : String) (directive : Directive) :
    (line.mark word directive).text = line.text := rfl

@[simp] theorem text_appendText (line : Line) (text : Text) :
    (line.appendText text).text = line.text ++ text := rfl

@[simp] theorem text_appendMarked (line : Line) (words : String) (directive : Directive) :
    (line.appendMarked words directive).text = line.text ++ words.toList := rfl

theorem valid_ofText (text : Text) : (ofText text).Valid := by
  simp [Valid, ofText]

theorem valid_addAttribute (hvalid : line.Valid) (hspan : span.Fits line.length)
    (directive : Directive) : (line.addAttribute span directive).Valid := by
  intro attr hattr
  rcases List.mem_append.mp hattr with hold | hnew
  · exact hvalid attr hold
  · cases List.mem_singleton.mp hnew
    exact hspan

theorem valid_appendMarked (hvalid : line.Valid) (words : String) (directive : Directive) :
    (line.appendMarked words directive).Valid := by
  refine valid_addAttribute (valid_appendText hvalid words.toList) ⟨?_, ?_⟩ directive
  · simp [length]
  · simp [length]

/-- A mark on a word of the line is valid. It would be at the front of the line if the word
were missing, and then it might be too long. -/
theorem valid_mark (hvalid : line.Valid) (hword : word.toList <:+: line.text)
    (directive : Directive) : (line.mark word directive).Valid := by
  apply valid_addAttribute hvalid
  have hwithin : (Text.find? word.toList line.text).getD 0 +
      Text.byteLength word.toList ≤ line.length := by
    cases hfound : Text.find? word.toList line.text with
    | none =>
        obtain ⟨before, after, htext⟩ := hword
        simp [length, ← htext]
        omega
    | some start =>
        obtain ⟨before, after, htext, rfl⟩ := Text.find?_sound hfound
        simp [length, htext]
  constructor
  · exact Nat.le_of_add_right_le hwithin
  · simpa using hwithin

end Line

namespace SampleLog

open Line

variable (theme : Theme)

theorem text_entry (time level : String) (levelRole : Role) (message : String) :
    (entry theme time level levelRole message).text =
      time.toList ++ ' ' :: level.toList ++ ' ' :: message.toList := by
  simp [entry]

theorem valid_entry (time level : String) (levelRole : Role) (message : String) :
    (entry theme time level levelRole message).Valid := by
  have htimed := valid_appendMarked (valid_ofText []) time (.style (theme.look .offsetTime))
  have hleveled := valid_appendMarked (valid_appendText htimed [' ']) level
    (.style (theme.look levelRole))
  exact valid_appendText (valid_appendText hleveled [' ']) message.toList

theorem infix_text_entry {word message : String} (hword : word.toList <:+: message.toList)
    (time level : String) (levelRole : Role) :
    word.toList <:+: (entry theme time level levelRole message).text := by
  rw [text_entry]
  exact hword.trans ((List.suffix_cons ' ' _).trans (List.suffix_append _ _)).isInfix

theorem valid_info : (info theme).Valid := by
  apply valid_mark (valid_entry theme _ _ _ _)
  apply infix_text_entry
  exact ⟨[], ": listening on 0.0.0.0:8080".toList, by simp⟩

theorem valid_warning : (warning theme).Valid := by
  apply valid_mark (valid_entry theme _ _ _ _)
  apply infix_text_entry
  exact ⟨"cache:\tmiss rate ".toList, " for café-menu".toList, by simp⟩

/-- The color text of the sample is well formed, so no palette is asked for its name. -/
theorem parseColor_highlight (palette : Palette) :
    palette.parseColor "#5f87af" = .ok ⟨95, 135, 175⟩ := rfl

theorem exists_error : ∃ line, error theme = .ok line ∧ line.Valid := by
  have hpath : "/var".toList <:+: "disk: /var is full, 0 bytes free".toList :=
    ⟨"disk: ".toList, " is full, 0 bytes free".toList, by simp⟩
  rw [error, parseColor_highlight]
  refine ⟨_, rfl, ?_⟩
  apply valid_mark (valid_mark (valid_entry theme _ _ _ _) ?_ _)
  · exact infix_text_entry theme hpath ..
  · exact infix_text_entry theme hpath ..

theorem valid_rule (width : Nat) : (rule width).Valid := by
  apply valid_addAttribute (valid_ofText _)
  exact ⟨Nat.zero_le _, fun _ hstop => nomatch hstop⟩

theorem valid_status : (status theme).Valid := by
  apply valid_addAttribute (valid_ofText _)
  cases theme.pairs.settings.defaultColors with
  | false => exact ⟨by decide, by decide⟩
  | true => exact ⟨by decide, by decide⟩

theorem noteText_size :
    noteText.toList.length = 138 ∧ noteText.toList.count '\n' = 0 ∧
      10 ≤ (Line.ofString noteText).length := by
  decide +kernel

/-- The note is wrapped at any width, also where nothing fits between the indent and the
width. Its breaks are limited by the length of its text alone. -/
theorem exists_note (width : Nat) :
    ∃ line, note theme width = .ok line ∧ line.Valid ∧ line.text.count '\n' ≤ 578 := by
  obtain ⟨hlength, hnone, hlong⟩ := noteText_size
  have hheading : ((Line.ofString "note: ").addAttribute ⟨0, some 4⟩
      (.style (theme.look .keyword))).Valid :=
    valid_addAttribute (valid_ofText _) ⟨by decide, by decide⟩ _
  have hbody : ((Line.ofString noteText).addAttribute ⟨0, some 10⟩
      (.style (theme.look .variableName))).Valid := by
    apply valid_addAttribute (valid_ofText _)
    refine ⟨Nat.zero_le _, fun stop hstop => ?_⟩
    cases hstop
    exact ⟨Nat.zero_le _, hlong⟩
  obtain ⟨line, hline, hvalid⟩ := exists_insert hheading hbody
    ⟨_, [], (List.append_nil _).symm, rfl⟩ (some { width, indent := 4 })
  refine ⟨line, hline, hvalid, ?_⟩
  have hbreaks := count_newline_insert ⟨_, [], (List.append_nil _).symm, rfl⟩ hline
  simpa [Line.ofString, Line.ofText, hnone, hlength] using hbreaks

/-- Every theme and every width has its sample, of a limited number of lines, and no
attribute in it reaches past its line. -/
theorem exists_lines (width : Nat) :
    ∃ lines, SampleLog.lines theme width = .ok lines ∧
      (∀ line ∈ lines, line.fault? = none) ∧ 0 < lines.length ∧ lines.length ≤ 584 := by
  obtain ⟨failure, hfailure, hvalid⟩ := exists_error theme
  obtain ⟨note, hnote, hnoteValid, hbreaks⟩ := exists_note theme width
  obtain ⟨pieces, hpieces, hcuts⟩ := exists_splitLines hnoteValid
  have hlength := hcuts.length_eq
  refine ⟨[info theme, warning theme, failure, rule width] ++ pieces ++ [status theme],
    ?_, ?_, ?_, ?_⟩
  · simp [SampleLog.lines, hfailure, hnote, hpieces, bind, Except.bind, pure, Except.pure]
  · intro line hline
    rw [← valid_iff_fault?_eq_none]
    simp only [List.mem_append, List.mem_cons, List.not_mem_nil, or_false] at hline
    rcases hline with ((rfl | rfl | rfl | rfl) | hpiece) | rfl
    · exact valid_info theme
    · exact valid_warning theme
    · exact hvalid
    · exact valid_rule width
    · exact (hcuts.valid_and_closed hnoteValid rfl line hpiece).1
    · exact valid_status theme
  · simp
  · simp only [List.length_append, List.length_cons, List.length_nil]
    omega

end SampleLog

end LinePainter
