import LinePainter.Palette.ColorText
import LinePainter.Proofs.Color.Hexadecimal

namespace LinePainter

/-! Color text that begins with a hash sign is a color in digits or malformed, and all other
text is the name of a color or unknown. -/

namespace Palette

/-- What a text means to a palette. -/
inductive Reads (palette : Palette) : String → Except ColorTextError Rgb → Prop where
  | hex {digits : List Char} {color : Rgb} (hcolor : HexColor digits color) :
      Reads palette (String.ofList ('#' :: digits)) (.ok color)
  | malformed {digits : List Char} (hnone : ∀ color, ¬ HexColor digits color) :
      Reads palette (String.ofList ('#' :: digits))
        (.error (.malformed (String.ofList ('#' :: digits))))
  | named {text : String} {before after : List PaletteEntry} {entry : PaletteEntry}
      (hplain : text.toList.head? ≠ some '#')
      (hentries : palette.entries = before ++ entry :: after) (hname : entry.name = text)
      (hfirst : ∀ earlier ∈ before, earlier.name ≠ text) :
      Reads palette text (.ok entry.rgb)
  | unknown {text : String} (hplain : text.toList.head? ≠ some '#')
      (hnone : ∀ entry ∈ palette.entries, entry.name ≠ text) :
      Reads palette text (.error (.unknownName text))

variable {palette : Palette}

theorem parseColor_hash (palette : Palette) (digits : List Char) :
    palette.parseColor (String.ofList ('#' :: digits)) =
      match Rgb.ofHexDigits? digits with
      | some color => .ok color
      | none => .error (.malformed (String.ofList ('#' :: digits))) := by
  have hhex : Rgb.ofHex? (String.ofList ('#' :: digits)) = Rgb.ofHexDigits? digits := by
    rw [Rgb.ofHex?, String.toList_ofList]
    rfl
  cases hcolor : Rgb.ofHexDigits? digits <;>
    simp only [parseColor, String.toList_ofList, List.head?_cons, if_true, hhex, hcolor]

theorem parseColor_plain {text : String} (hplain : text.toList.head? ≠ some '#') :
    palette.parseColor text =
      match palette.entries.find? (·.name = text) with
      | some entry => .ok entry.rgb
      | none => .error (.unknownName text) := by
  cases hfound : palette.entries.find? (·.name = text) <;>
    simp only [parseColor, if_neg hplain, byName?, hfound]

theorem Reads.parseColor_eq {text : String} {outcome : Except ColorTextError Rgb}
    (hreads : palette.Reads text outcome) : palette.parseColor text = outcome := by
  cases hreads with
  | hex hcolor => rw [parseColor_hash, Rgb.ofHexDigits?_of_hexColor hcolor]
  | @malformed digits hnone =>
      have hdigits : Rgb.ofHexDigits? digits = none := by
        rw [Option.eq_none_iff_forall_ne_some]
        exact fun color hcolor => hnone color (Rgb.hexColor_of_ofHexDigits? hcolor)
      rw [parseColor_hash, hdigits]
  | @named text before after entry hplain hentries hname hfirst =>
      have hfound : palette.entries.find? (·.name = text) = some entry := by
        rw [List.find?_eq_some_iff_append]
        exact ⟨by simpa using hname, before, after, hentries, by simpa using hfirst⟩
      rw [parseColor_plain hplain, hfound]
  | unknown hplain hnone =>
      have hfound : palette.entries.find? (·.name = text) = none := by
        simpa [List.find?_eq_none] using hnone
      rw [parseColor_plain hplain, hfound]

theorem reads_parseColor (palette : Palette) (text : String) :
    palette.Reads text (palette.parseColor text) := by
  by_cases hhash : text.toList.head? = some '#'
  · obtain ⟨digits, hdigits⟩ := List.head?_eq_some_iff.mp hhash
    obtain rfl : text = String.ofList ('#' :: digits) := by rw [← hdigits, String.ofList_toList]
    rw [parseColor_hash]
    cases hcolor : Rgb.ofHexDigits? digits with
    | some color => exact .hex (Rgb.hexColor_of_ofHexDigits? hcolor)
    | none =>
        refine .malformed fun color hhex => ?_
        rw [Rgb.ofHexDigits?_of_hexColor hhex] at hcolor
        cases hcolor
  · rw [parseColor_plain hhash]
    cases hfound : palette.entries.find? (·.name = text) with
    | some entry =>
        obtain ⟨hname, before, after, hentries, hfirst⟩ :=
          List.find?_eq_some_iff_append.mp hfound
        exact .named hhash hentries (by simpa using hname) (by simpa using hfirst)
    | none => exact .unknown hhash (by simpa [List.find?_eq_none] using hfound)

theorem parseColor_eq_iff {text : String} {outcome : Except ColorTextError Rgb} :
    palette.parseColor text = outcome ↔ palette.Reads text outcome := by
  constructor
  · rintro rfl
    exact reads_parseColor palette text
  · exact Reads.parseColor_eq

/-- Color text means what its first character says, whatever the other kind of text would
make of it. A color is read back from its own digits, which are those of every text in
digits for it, and it does not matter whether digits are counted as characters or bytes. -/
theorem color_text_is_read_exactly (palette : Palette) :
    (∀ text outcome, palette.parseColor text = outcome ↔ palette.Reads text outcome) ∧
      (∀ color, palette.parseColor color.toHex = .ok color) ∧
      (∀ digits color, palette.parseColor (String.ofList ('#' :: digits)) = .ok color →
        color.toHex = String.ofList ('#' :: hexExpansion digits)) ∧
      ∀ digits, Rgb.ofHexDigits? (Rgb.bytewise digits) = Rgb.ofHexDigits? digits := by
  refine ⟨fun text outcome => parseColor_eq_iff, ?_, ?_, Rgb.ofHexDigits?_bytewise⟩
  · intro color
    obtain ⟨digits, htext, hcolor⟩ := color.exists_hexColor
    rw [htext]
    exact (Reads.hex hcolor).parseColor_eq
  · intro digits color hread
    rw [parseColor_hash] at hread
    cases hdigits : Rgb.ofHexDigits? digits with
    | some read =>
        rw [hdigits] at hread
        cases hread
        exact Rgb.toHex_of_hexColor (Rgb.hexColor_of_ofHexDigits? hdigits)
    | none =>
        rw [hdigits] at hread
        cases hread

end Palette

end LinePainter
