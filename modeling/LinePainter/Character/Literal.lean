import LinePainter.Character.Invisible

namespace LinePainter

/-! Characters in quotes, for descriptions. -/

namespace Character

/-- A codepoint in braces, in the fewest hexadecimal digits. -/
def codepointEscape (char : Char) : List Char :=
  '\\' :: 'u' :: '\x7b' :: (Nat.toDigits 16 char.toNat ++ ['\x7d'])

def escape (char : Char) : List Char :=
  if char = '\x00' then ['\\', '0']
  else if char = '\t' then ['\\', 't']
  else if char = '\r' then ['\\', 'r']
  else if char = '\n' then ['\\', 'n']
  else if char = '\'' ∨ char = '\\' then ['\\', char]
  else if isInvisible char then codepointEscape char
  else [char]

def literal (char : Char) : String :=
  String.ofList ('\'' :: (escape char ++ ['\'']))

end Character

end LinePainter
