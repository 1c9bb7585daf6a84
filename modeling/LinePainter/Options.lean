import LinePainter.PairTable

namespace LinePainter

/-! The command line: switches, and flags that are followed by a number. A later flag
overrides an earlier one. -/

structure Options where
  capabilities : Capabilities := {}
  settings : ColorSettings := {}
  width : Nat := 72
  deriving DecidableEq

inductive Switch where
  | dim
  | defaultColors
  deriving DecidableEq

inductive NumberFlag where
  | colors
  | pairs
  | width
  deriving DecidableEq

namespace Switch

def text : Switch → String
  | dim => "--dim"
  | defaultColors => "--default-colors"

def all : List Switch := [dim, defaultColors]

def ofText? (argument : String) : Option Switch :=
  all.find? (·.text = argument)

end Switch

namespace NumberFlag

def text : NumberFlag → String
  | colors => "--colors"
  | pairs => "--pairs"
  | width => "--width"

def all : List NumberFlag := [colors, pairs, width]

def ofText? (argument : String) : Option NumberFlag :=
  all.find? (·.text = argument)

end NumberFlag

inductive OptionError where
  | unknownArgument (argument : String)
  | missingValue (flag : NumberFlag)
  | notANumber (flag : NumberFlag) (value : String)
  | zeroWidth
  deriving DecidableEq

namespace OptionError

def message : OptionError → String
  | unknownArgument argument => s!"unknown argument: {argument}"
  | missingValue flag => s!"{flag.text} needs a value"
  | notANumber flag value => s!"{flag.text}: not a number: {value}"
  | zeroWidth => "--width must be at least 1"

end OptionError

/-- The value of a decimal number, the digits read so far being worth `value`. -/
def digitsValue? (value : Nat) : List Char → Option Nat
  | [] => some value
  | char :: rest =>
      if char.isDigit then digitsValue? (10 * value + (char.toNat - '0'.toNat)) rest
      else none

/-- Reads an optional plus sign and decimal digits, with a value below 2^16. -/
def readNumber? (text : String) : Option Nat := do
  let digits :=
    match text.toList with
    | '+' :: rest => rest
    | chars => chars
  let value ← if digits = [] then none else digitsValue? 0 digits
  if value < 65536 then some value else none

namespace Options

def turnOn (options : Options) : Switch → Options
  | .dim => { options with settings := { options.settings with dimText := true } }
  | .defaultColors =>
      { options with settings := { options.settings with defaultColors := true } }

def set (options : Options) (number : Nat) : NumberFlag → Options
  | .colors => { options with capabilities := { options.capabilities with colors := number } }
  | .pairs =>
      { options with capabilities := { options.capabilities with colorPairs := number } }
  | .width => { options with width := number }

def read (options : Options) : List String → Except OptionError Options
  | [] => .ok options
  | argument :: rest =>
      match Switch.ofText? argument, NumberFlag.ofText? argument with
      | some switch, _ => read (options.turnOn switch) rest
      | none, none => .error (.unknownArgument argument)
      | none, some flag =>
          match rest with
          | [] => .error (.missingValue flag)
          | value :: rest =>
              match readNumber? value with
              | some number => read (options.set number flag) rest
              | none => .error (.notANumber flag value)

def parse (arguments : List String) : Except OptionError Options := do
  let options ← read {} arguments
  if options.width = 0 then throw .zeroWidth
  return options

end Options

end LinePainter
