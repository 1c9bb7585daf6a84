import LinePainter.Color.Rgb

namespace LinePainter

/-! The hexadecimal texts of a color are three or six digits of either case. Writing a color
gives the longest of them in lower case. -/

namespace HexDigit

/-- Every digit has a lower and an upper case, which are the same below ten. -/
def Spells (digit : HexDigit) (char : Char) : Prop :=
  char = digit.toChar ∨ char = digit.toChar.toUpper

theorem ofChar?_toChar (digit : HexDigit) : ofChar? digit.toChar = some digit := by
  decide +revert

theorem ofChar?_toUpper_toChar (digit : HexDigit) :
    ofChar? digit.toChar.toUpper = some digit := by
  decide +revert

theorem ofChar?_eq_none {char : Char} (hbeyond : 128 ≤ char.toNat) : ofChar? char = none := by
  have hlater (last : Char) (hlast : last.toNat < 128) (first : Char) :
      ¬ (first ≤ char ∧ char ≤ last) := fun hrange =>
    Nat.not_lt.mpr (UInt32.le_iff_toNat_le.mp hrange.2) (Nat.lt_of_lt_of_le hlast hbeyond)
  rw [ofChar?, if_neg (hlater '9' (by decide) '0'), if_neg (hlater 'f' (by decide) 'a'),
    if_neg (hlater 'F' (by decide) 'A')]

theorem spells_of_ascii : ∀ code < 128, ∀ digit ∈ ofChar? (Char.ofNat code),
    Char.ofNat code = digit.toChar ∨ Char.ofNat code = digit.toChar.toUpper := by
  decide

theorem ofChar?_eq_some_iff {char : Char} {digit : HexDigit} :
    ofChar? char = some digit ↔ digit.Spells char := by
  constructor
  · intro hdigit
    rcases Nat.lt_or_ge char.toNat 128 with hascii | hbeyond
    · have hspelled := spells_of_ascii char.toNat hascii digit
      rw [Char.ofNat_toNat] at hspelled
      exact hspelled hdigit
    · rw [ofChar?_eq_none hbeyond] at hdigit
      cases hdigit
  · rintro (rfl | rfl)
    · exact ofChar?_toChar digit
    · exact ofChar?_toUpper_toChar digit

theorem Spells.unique {char : Char} {digit other : HexDigit} (hdigit : digit.Spells char)
    (hother : other.Spells char) : digit = other := by
  rw [← ofChar?_eq_some_iff] at hdigit hother
  exact Option.some.inj (hdigit.symm.trans hother)

theorem Spells.toLower_eq {char : Char} {digit : HexDigit} (hspells : digit.Spells char) :
    char.toLower = digit.toChar := by
  rcases hspells with rfl | rfl <;> decide +revert

end HexDigit

namespace Channel

theorem ofChars?_eq_some_iff {high low : Char} {channel : Channel} :
    ofChars? high low = some channel ↔
      ∃ highDigit lowDigit : HexDigit, highDigit.Spells high ∧ lowDigit.Spells low ∧
        ofDigits highDigit lowDigit = channel := by
  simp only [ofChars?, bind, Option.bind_eq_some_iff, HexDigit.ofChar?_eq_some_iff, pure,
    Option.some_inj]
  constructor
  · rintro ⟨highDigit, hhigh, lowDigit, hlow, hchannel⟩
    exact ⟨highDigit, lowDigit, hhigh, hlow, hchannel⟩
  · rintro ⟨highDigit, lowDigit, hhigh, hlow, hchannel⟩
    exact ⟨highDigit, hhigh, lowDigit, hlow, hchannel⟩

theorem toChars_ofDigits (high low : HexDigit) :
    (ofDigits high low).toChars = [high.toChar, low.toChar] := by
  have hhigh : (16 * high.val + low.val) / 16 = high.val := by omega
  have hlow : (16 * high.val + low.val) % 16 = low.val := by omega
  simp only [toChars, ofDigits, hhigh, hlow]

theorem exists_ofDigits (channel : Channel) : ∃ high low, ofDigits high low = channel :=
  ⟨⟨channel.val / 16, by omega⟩, ⟨channel.val % 16, by omega⟩,
    Fin.ext (Nat.div_add_mod channel.val 16)⟩

end Channel

/-- The digits that make up a color: one for each channel, to be doubled, or two. -/
inductive HexColor : List Char → Rgb → Prop where
  | short {red green blue : Char} {redDigit greenDigit blueDigit : HexDigit}
      (hred : redDigit.Spells red) (hgreen : greenDigit.Spells green)
      (hblue : blueDigit.Spells blue) :
      HexColor [red, green, blue]
        ⟨.ofDigits redDigit redDigit, .ofDigits greenDigit greenDigit,
          .ofDigits blueDigit blueDigit⟩
  | long {redHigh redLow greenHigh greenLow blueHigh blueLow : Char}
      {redHighDigit redLowDigit greenHighDigit greenLowDigit blueHighDigit blueLowDigit : HexDigit}
      (hredHigh : redHighDigit.Spells redHigh) (hredLow : redLowDigit.Spells redLow)
      (hgreenHigh : greenHighDigit.Spells greenHigh) (hgreenLow : greenLowDigit.Spells greenLow)
      (hblueHigh : blueHighDigit.Spells blueHigh) (hblueLow : blueLowDigit.Spells blueLow) :
      HexColor [redHigh, redLow, greenHigh, greenLow, blueHigh, blueLow]
        ⟨.ofDigits redHighDigit redLowDigit, .ofDigits greenHighDigit greenLowDigit,
          .ofDigits blueHighDigit blueLowDigit⟩

theorem HexColor.exists_spells {digits : List Char} {color : Rgb} (hcolor : HexColor digits color) :
    ∀ char ∈ digits, ∃ digit : HexDigit, digit.Spells char := by
  cases hcolor with
  | short hred hgreen hblue =>
      simp only [List.forall_mem_cons, List.not_mem_nil]
      exact ⟨⟨_, hred⟩, ⟨_, hgreen⟩, ⟨_, hblue⟩, nofun⟩
  | long hredHigh hredLow hgreenHigh hgreenLow hblueHigh hblueLow =>
      simp only [List.forall_mem_cons, List.not_mem_nil]
      exact ⟨⟨_, hredHigh⟩, ⟨_, hredLow⟩, ⟨_, hgreenHigh⟩, ⟨_, hgreenLow⟩,
        ⟨_, hblueHigh⟩, ⟨_, hblueLow⟩, nofun⟩

/-- Six digits in lower case. -/
def hexExpansion : List Char → List Char
  | [red, green, blue] => [red, red, green, green, blue, blue].map Char.toLower
  | digits => digits.map Char.toLower

namespace Rgb

variable {digits : List Char} {color : Rgb}

theorem ofHexDigits?_of_hexColor (hcolor : HexColor digits color) :
    ofHexDigits? digits = some color := by
  cases hcolor with
  | short hred hgreen hblue =>
      have hchannel {char : Char} {digit : HexDigit} (hspells : digit.Spells char) :
          Channel.ofChars? char char = some (.ofDigits digit digit) :=
        Channel.ofChars?_eq_some_iff.mpr ⟨digit, digit, hspells, hspells, rfl⟩
      simp only [ofHexDigits?, hchannel hred, hchannel hgreen, hchannel hblue]
      rfl
  | long hredHigh hredLow hgreenHigh hgreenLow hblueHigh hblueLow =>
      have hchannel {high low : Char} {highDigit lowDigit : HexDigit}
          (hhigh : highDigit.Spells high) (hlow : lowDigit.Spells low) :
          Channel.ofChars? high low = some (.ofDigits highDigit lowDigit) :=
        Channel.ofChars?_eq_some_iff.mpr ⟨highDigit, lowDigit, hhigh, hlow, rfl⟩
      simp only [ofHexDigits?, hchannel hredHigh hredLow, hchannel hgreenHigh hgreenLow,
        hchannel hblueHigh hblueLow]
      rfl

theorem hexColor_of_ofHexDigits? (hcolor : ofHexDigits? digits = some color) :
    HexColor digits color := by
  unfold ofHexDigits? at hcolor
  split at hcolor
  · simp only [bind, Option.bind_eq_some_iff, Channel.ofChars?_eq_some_iff, pure,
      Option.some_inj] at hcolor
    obtain ⟨_, ⟨redDigit, _, hred, hred', rfl⟩, _, ⟨greenDigit, _, hgreen, hgreen', rfl⟩,
      _, ⟨blueDigit, _, hblue, hblue', rfl⟩, rfl⟩ := hcolor
    -- A single character is read twice, as the same digit.
    obtain rfl := hred.unique hred'
    obtain rfl := hgreen.unique hgreen'
    obtain rfl := hblue.unique hblue'
    exact .short hred hgreen hblue
  · simp only [bind, Option.bind_eq_some_iff, Channel.ofChars?_eq_some_iff, pure,
      Option.some_inj] at hcolor
    obtain ⟨_, ⟨_, _, hredHigh, hredLow, rfl⟩, _, ⟨_, _, hgreenHigh, hgreenLow, rfl⟩,
      _, ⟨_, _, hblueHigh, hblueLow, rfl⟩, rfl⟩ := hcolor
    exact .long hredHigh hredLow hgreenHigh hgreenLow hblueHigh hblueLow
  · cases hcolor

theorem toHex_of_hexColor (hcolor : HexColor digits color) :
    color.toHex = String.ofList ('#' :: hexExpansion digits) := by
  cases hcolor with
  | short hred hgreen hblue =>
      simp only [toHex, Channel.toChars_ofDigits, hexExpansion, List.map_cons, List.map_nil,
        hred.toLower_eq, hgreen.toLower_eq, hblue.toLower_eq]
      rfl
  | long hredHigh hredLow hgreenHigh hgreenLow hblueHigh hblueLow =>
      simp only [toHex, Channel.toChars_ofDigits, hexExpansion, List.map_cons, List.map_nil,
        hredHigh.toLower_eq, hredLow.toLower_eq, hgreenHigh.toLower_eq, hgreenLow.toLower_eq,
        hblueHigh.toLower_eq, hblueLow.toLower_eq]
      rfl

theorem exists_hexColor (color : Rgb) :
    ∃ digits, color.toHex = String.ofList ('#' :: digits) ∧ HexColor digits color := by
  obtain ⟨red, green, blue⟩ := color
  obtain ⟨redHigh, redLow, rfl⟩ := red.exists_ofDigits
  obtain ⟨greenHigh, greenLow, rfl⟩ := green.exists_ofDigits
  obtain ⟨blueHigh, blueLow, rfl⟩ := blue.exists_ofDigits
  refine ⟨_, ?_, .long (.inl rfl) (.inl rfl) (.inl rfl) (.inl rfl) (.inl rfl) (.inl rfl)⟩
  simp only [toHex, Channel.toChars_ofDigits]
  rfl

/-! Bytes in place of characters. -/

/-- The bytes of a text, each taken for a character. -/
def bytewise (digits : List Char) : List Char :=
  (digits.flatMap String.utf8EncodeChar).map fun byte => Char.ofNat byte.toNat

theorem bytewise_cons (char : Char) (rest : List Char) :
    bytewise (char :: rest) = bytewise [char] ++ bytewise rest := by
  simp only [bytewise, List.flatMap_cons, List.flatMap_nil, List.append_nil, List.map_append]

theorem bytewise_ascii {char : Char} (hascii : char.toNat < 128) : bytewise [char] = [char] := by
  have hbyte : (UInt8.ofNat char.toNat).toNat = char.toNat :=
    Nat.mod_eq_of_lt (Nat.lt_trans hascii (by decide))
  have hencoded : String.utf8EncodeChar char = [UInt8.ofNat char.toNat] :=
    if_pos (Nat.le_of_lt_succ hascii)
  rw [bytewise, List.flatMap_cons, hencoded]
  simp only [List.flatMap_nil, List.append_nil, List.map_cons, List.map_nil, hbyte,
    Char.ofNat_toNat]

theorem bytewise_of_ascii {digits : List Char} (hascii : ∀ char ∈ digits, char.toNat < 128) :
    bytewise digits = digits := by
  induction digits with
  | nil => rfl
  | cons char rest ih =>
      rw [List.forall_mem_cons] at hascii
      rw [bytewise_cons, bytewise_ascii hascii.1, ih hascii.2, List.singleton_append]

/-- The last byte of a character beyond the first 128 is not one of theirs. -/
theorem exists_mem_bytewise {char : Char} (hbeyond : 128 ≤ char.toNat) :
    ∃ byte ∈ bytewise [char], 128 ≤ byte.toNat := by
  have hlong : ¬ char.val.toNat ≤ 127 := Nat.not_le.mpr hbeyond
  have hlast : UInt8.ofNat (char.val.toNat % 64 + 128) ∈ String.utf8EncodeChar char := by
    unfold String.utf8EncodeChar
    dsimp only
    rw [if_neg hlong]
    split
    · exact .tail _ (.head _)
    · split
      · exact .tail _ (.tail _ (.head _))
      · exact .tail _ (.tail _ (.tail _ (.head _)))
  have hbyte : (UInt8.ofNat (char.val.toNat % 64 + 128)).toNat = char.val.toNat % 64 + 128 :=
    Nat.mod_eq_of_lt (by omega)
  have hvalid : (char.val.toNat % 64 + 128).isValidChar := .inl (by omega)
  refine ⟨Char.ofNat (char.val.toNat % 64 + 128), ?_, ?_⟩
  · rw [bytewise, List.flatMap_singleton, ← hbyte]
    exact List.mem_map_of_mem hlast
  · rw [Char.ofNat, dif_pos hvalid]
    exact Nat.le_add_left 128 (char.val.toNat % 64)

theorem ofHexDigits?_eq_none_of_mem {char : Char} (hmem : char ∈ digits)
    (hbeyond : 128 ≤ char.toNat) : ofHexDigits? digits = none := by
  rw [Option.eq_none_iff_forall_ne_some]
  intro color hcolor
  obtain ⟨digit, hspells⟩ := (hexColor_of_ofHexDigits? hcolor).exists_spells char hmem
  rw [← HexDigit.ofChar?_eq_some_iff, HexDigit.ofChar?_eq_none hbeyond] at hspells
  cases hspells

/-- No byte of a character beyond the first 128 is a digit, so the length of a text may be
counted in bytes. -/
theorem ofHexDigits?_bytewise (digits : List Char) :
    ofHexDigits? (bytewise digits) = ofHexDigits? digits := by
  by_cases hbeyond : ∃ char ∈ digits, 128 ≤ char.toNat
  · obtain ⟨char, hmem, hbeyond⟩ := hbeyond
    obtain ⟨byte, hbyte, hbeyond'⟩ := exists_mem_bytewise hbeyond
    obtain ⟨before, after, rfl⟩ := List.append_of_mem hmem
    have hmem' : byte ∈ bytewise (before ++ char :: after) := by
      rw [bytewise, List.flatMap_append, List.map_append, ← bytewise, ← bytewise, bytewise_cons]
      exact List.mem_append_right _ (List.mem_append_left _ hbyte)
    rw [ofHexDigits?_eq_none_of_mem hmem hbeyond, ofHexDigits?_eq_none_of_mem hmem' hbeyond']
  · rw [bytewise_of_ascii fun char hmem => Nat.lt_of_not_le fun hchar =>
      hbeyond ⟨char, hmem, hchar⟩]

end Rgb

end LinePainter
