namespace LinePainter

/-! Colors with eight bits a channel, and their hexadecimal text. -/

abbrev Channel := Fin 256

instance neZeroChannels : @NeZero Nat .ofOfNat0 256 := ⟨Nat.succ_ne_zero 255⟩

structure Rgb where
  red : Channel
  green : Channel
  blue : Channel
  deriving DecidableEq

abbrev HexDigit := Fin 16

namespace HexDigit

def ofChar? (char : Char) : Option HexDigit :=
  if '0' ≤ char ∧ char ≤ '9' then some (Fin.ofNat 16 (char.toNat - '0'.toNat))
  else if 'a' ≤ char ∧ char ≤ 'f' then some (Fin.ofNat 16 (char.toNat - 'a'.toNat + 10))
  else if 'A' ≤ char ∧ char ≤ 'F' then some (Fin.ofNat 16 (char.toNat - 'A'.toNat + 10))
  else none

def toChar (digit : HexDigit) : Char :=
  digit.val.digitChar

end HexDigit

namespace Channel

def ofDigits (high low : HexDigit) : Channel :=
  ⟨16 * high.val + low.val, by omega⟩

def ofChars? (high low : Char) : Option Channel := do
  let highDigit ← HexDigit.ofChar? high
  let lowDigit ← HexDigit.ofChar? low
  return ofDigits highDigit lowDigit

def toChars (channel : Channel) : List Char :=
  [HexDigit.toChar ⟨channel.val / 16, by omega⟩,
    HexDigit.toChar ⟨channel.val % 16, by omega⟩]

end Channel

namespace Rgb

def black : Rgb := ⟨0, 0, 0⟩

def white : Rgb := ⟨255, 255, 255⟩

/-- The short form writes every digit once instead of twice. -/
def ofHexDigits? : List Char → Option Rgb
  | [red, green, blue] => do
      return ⟨← Channel.ofChars? red red, ← Channel.ofChars? green green,
        ← Channel.ofChars? blue blue⟩
  | [redHigh, redLow, greenHigh, greenLow, blueHigh, blueLow] => do
      return ⟨← Channel.ofChars? redHigh redLow, ← Channel.ofChars? greenHigh greenLow,
        ← Channel.ofChars? blueHigh blueLow⟩
  | _ => none

def ofHex? (text : String) : Option Rgb :=
  match text.toList with
  | '#' :: digits => ofHexDigits? digits
  | _ => none

def toHex (color : Rgb) : String :=
  String.ofList
    ('#' :: (color.red.toChars ++ color.green.toChars ++ color.blue.toChars))

def describe (color : Rgb) : String :=
  s!"Rgb({color.toHex})"

end Rgb

end LinePainter
