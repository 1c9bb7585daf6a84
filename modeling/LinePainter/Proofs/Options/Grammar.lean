import Mathlib.Data.List.Induction
import Mathlib.Data.Nat.Digits.Defs
import Mathlib.Tactic.Ring
import LinePainter.Options

namespace LinePainter

/-! A command line is a list of tokens, read from left to right: switches, and flags with a
number. The last number of a flag counts, and the first fault is the one complained about. -/

/-- The number that digits stand for, the last digit being the ones. -/
def digitsValue (digits : List Char) : Nat :=
  Nat.ofDigits 10 (digits.map fun char => char.toNat - '0'.toNat).reverse

/-- A text of a number: digits behind at most one plus sign. -/
def Numeral (text : String) (value : Nat) : Prop :=
  ∃ sign digits, text.toList = sign ++ digits ∧ (sign = [] ∨ sign = ['+']) ∧
    digits ≠ [] ∧ (∀ char ∈ digits, char.isDigit) ∧ digitsValue digits = value

theorem digitsValue_cons (char : Char) (rest : List Char) :
    digitsValue (char :: rest) =
      digitsValue rest + 10 ^ rest.length * (char.toNat - '0'.toNat) := by
  rw [digitsValue, List.map_cons, List.reverse_cons, Nat.ofDigits_append, Nat.ofDigits_singleton,
    List.length_reverse, List.length_map, digitsValue]

/-- Digits read so far count for as much more as there are digits to come. -/
theorem digitsValue?_eq_some_iff {start value : Nat} {digits : List Char} :
    digitsValue? start digits = some value ↔
      (∀ char ∈ digits, char.isDigit) ∧
        digitsValue digits + 10 ^ digits.length * start = value := by
  induction digits generalizing start with
  | nil => simp [digitsValue?, digitsValue]
  | cons char rest ih =>
      rw [digitsValue?, List.forall_mem_cons]
      split
      · next hdigit =>
          have hstart : digitsValue rest +
                10 ^ rest.length * (10 * start + (char.toNat - '0'.toNat)) =
              digitsValue (char :: rest) + 10 ^ (char :: rest).length * start := by
            rw [digitsValue_cons, List.length_cons]
            ring
          rw [ih, hstart]
          simp only [hdigit, true_and]
      · next hother => simp only [hother, false_and, reduceCtorEq]

/-- A text without the plus sign it may begin with. -/
def unsigned : List Char → List Char
  | '+' :: rest => rest
  | chars => chars

theorem exists_sign (chars : List Char) :
    ∃ sign, chars = sign ++ unsigned chars ∧ (sign = [] ∨ sign = ['+']) := by
  unfold unsigned
  split
  · exact ⟨['+'], rfl, .inr rfl⟩
  · exact ⟨[], rfl, .inl rfl⟩

theorem unsigned_append {sign digits : List Char} (hsign : sign = [] ∨ sign = ['+'])
    (hdigits : ∀ char ∈ digits, char.isDigit) : unsigned (sign ++ digits) = digits := by
  rcases hsign with rfl | rfl
  · rw [List.nil_append]
    unfold unsigned
    split
    · exact absurd (hdigits '+' (List.mem_cons_self ..)) (by decide)
    · rfl
  · rfl

theorem readNumber?_eq (text : String) :
    readNumber? text =
      if unsigned text.toList = [] then none
      else (digitsValue? 0 (unsigned text.toList)).bind fun value =>
        if value < 65536 then some value else none :=
  rfl

theorem readNumber?_eq_some_iff {text : String} {value : Nat} :
    readNumber? text = some value ↔ Numeral text value ∧ value ≤ 65535 := by
  rw [readNumber?_eq]
  constructor
  · intro hread
    obtain ⟨hne, hread⟩ := Option.ite_none_left_eq_some.mp hread
    obtain ⟨read, hvalue, hkept⟩ := Option.bind_eq_some_iff.mp hread
    obtain ⟨hsmall, hsame⟩ := Option.ite_none_right_eq_some.mp hkept
    obtain rfl := Option.some.inj hsame
    obtain ⟨hdigits, hvalue⟩ := digitsValue?_eq_some_iff.mp hvalue
    obtain ⟨sign, htext, hsign⟩ := exists_sign text.toList
    exact ⟨⟨sign, _, htext, hsign, hne, hdigits, hvalue⟩, Nat.le_of_lt_succ hsmall⟩
  · rintro ⟨⟨sign, digits, htext, hsign, hne, hdigits, hvalue⟩, hsmall⟩
    have hread : digitsValue? 0 digits = some value :=
      digitsValue?_eq_some_iff.mpr ⟨hdigits, hvalue⟩
    rw [htext, unsigned_append hsign hdigits, if_neg hne, hread, Option.bind_some,
      if_pos (Nat.lt_succ_of_le hsmall)]

inductive OptionToken where
  | switch (switch : Switch)
  | number (flag : NumberFlag) (value : Nat)
  deriving DecidableEq

/-- How tokens are spelt, one after the other. -/
inductive Spelt : List String → List OptionToken → Prop where
  | nil : Spelt [] []
  | switch (switch : Switch) {rest : List String} {tokens : List OptionToken}
      (hrest : Spelt rest tokens) : Spelt (switch.text :: rest) (.switch switch :: tokens)
  | number (flag : NumberFlag) {text : String} {value : Nat} {rest : List String}
      {tokens : List OptionToken} (hnumeral : Numeral text value) (hsmall : value ≤ 65535)
      (hrest : Spelt rest tokens) :
      Spelt (flag.text :: text :: rest) (.number flag value :: tokens)

/-- Why no token begins here. -/
inductive Fault : List String → OptionError → Prop where
  | unknown {argument : String} {rest : List String}
      (hswitch : ∀ switch : Switch, switch.text ≠ argument)
      (hflag : ∀ flag : NumberFlag, flag.text ≠ argument) :
      Fault (argument :: rest) (.unknownArgument argument)
  | missing (flag : NumberFlag) : Fault [flag.text] (.missingValue flag)
  | notANumber (flag : NumberFlag) {text : String} {rest : List String}
      (hbad : ∀ value, Numeral text value → 65535 < value) :
      Fault (flag.text :: text :: rest) (.notANumber flag text)

namespace OptionToken

def number? (flag : NumberFlag) : OptionToken → Option Nat
  | switch _ => none
  | number other value => if other = flag then some value else none

end OptionToken

def lastNumber? (tokens : List OptionToken) (flag : NumberFlag) : Option Nat :=
  (tokens.filterMap (·.number? flag)).getLast?

namespace Options

/-- A number is that of its last token, and a switch is set if it has one. -/
def ofTokens (tokens : List OptionToken) : Options where
  capabilities := {
    colors := (lastNumber? tokens .colors).getD 256
    colorPairs := (lastNumber? tokens .pairs).getD 32767 }
  settings := {
    defaultColors := decide (.switch .defaultColors ∈ tokens)
    dimText := decide (.switch .dim ∈ tokens) }
  width := (lastNumber? tokens .width).getD 72

def obey (options : Options) : OptionToken → Options
  | .switch switch => options.turnOn switch
  | .number flag value => options.set value flag

theorem ofTokens_concat (tokens : List OptionToken) (token : OptionToken) :
    ofTokens (tokens ++ [token]) = (ofTokens tokens).obey token := by
  rcases token with (_ | _) | ⟨_ | _ | _, value⟩ <;>
    simp [ofTokens, obey, turnOn, set, lastNumber?, OptionToken.number?, List.filterMap_append]

theorem foldl_obey (tokens : List OptionToken) : tokens.foldl obey {} = ofTokens tokens := by
  induction tokens using List.reverseRecOn with
  | nil => rfl
  | append_singleton tokens token ih =>
      rw [List.foldl_append, ih, ofTokens_concat]
      rfl

end Options

/-- What comes of a command line. A width of zero is complained about last. -/
inductive CommandLine : List String → Except OptionError Options → Prop where
  | accepted {arguments : List String} {tokens : List OptionToken}
      (hspelt : Spelt arguments tokens) (hwidth : (Options.ofTokens tokens).width ≠ 0) :
      CommandLine arguments (.ok (Options.ofTokens tokens))
  | zeroWidth {arguments : List String} {tokens : List OptionToken}
      (hspelt : Spelt arguments tokens) (hwidth : (Options.ofTokens tokens).width = 0) :
      CommandLine arguments (.error .zeroWidth)
  | faulty {before rest : List String} {tokens : List OptionToken} {error : OptionError}
      (hspelt : Spelt before tokens) (hfault : Fault rest error) :
      CommandLine (before ++ rest) (.error error)

/-! Names of switches and flags. -/

namespace Switch

theorem ofText?_text (switch : Switch) : ofText? switch.text = some switch := by
  cases switch <;> decide

theorem ofText?_flag (flag : NumberFlag) : ofText? flag.text = none := by
  cases flag <;> decide

theorem ofText?_eq_some_iff {argument : String} {switch : Switch} :
    ofText? argument = some switch ↔ switch.text = argument := by
  constructor
  · intro hfound
    unfold ofText? at hfound
    simpa using List.find?_some hfound
  · rintro rfl
    exact switch.ofText?_text

end Switch

namespace NumberFlag

theorem ofText?_text (flag : NumberFlag) : ofText? flag.text = some flag := by
  cases flag <;> decide

theorem ofText?_eq_some_iff {argument : String} {flag : NumberFlag} :
    ofText? argument = some flag ↔ flag.text = argument := by
  constructor
  · intro hfound
    unfold ofText? at hfound
    simpa using List.find?_some hfound
  · rintro rfl
    exact flag.ofText?_text

end NumberFlag

namespace Options

variable {rest arguments : List String} {tokens : List OptionToken}

theorem read_switch (options : Options) (switch : Switch) (rest : List String) :
    options.read (switch.text :: rest) = (options.turnOn switch).read rest := by
  simp only [read, Switch.ofText?_text]

theorem read_flag (options : Options) (flag : NumberFlag) (text : String) (rest : List String) :
    options.read (flag.text :: text :: rest) =
      match readNumber? text with
      | some number => (options.set number flag).read rest
      | none => .error (.notANumber flag text) := by
  cases hnumber : readNumber? text <;>
    simp only [read, Switch.ofText?_flag, NumberFlag.ofText?_text, hnumber]

theorem read_append_of_spelt (hspelt : Spelt arguments tokens) (options : Options)
    (rest : List String) :
    options.read (arguments ++ rest) = (tokens.foldl obey options).read rest := by
  induction hspelt generalizing options with
  | nil => rfl
  | switch switch hrest ih => rw [List.cons_append, read_switch, ih, List.foldl_cons, obey]
  | number flag hnumeral hsmall hrest ih =>
      rw [List.cons_append, List.cons_append, read_flag,
        readNumber?_eq_some_iff.mpr ⟨hnumeral, hsmall⟩]
      exact ih _

theorem read_of_fault {error : OptionError} (hfault : Fault rest error) (options : Options) :
    options.read rest = .error error := by
  cases hfault with
  | @unknown argument rest hswitch hflag =>
      have hnoSwitch : Switch.ofText? argument = none :=
        Option.eq_none_iff_forall_ne_some.mpr fun switch hfound =>
          hswitch switch (Switch.ofText?_eq_some_iff.mp hfound)
      have hnoFlag : NumberFlag.ofText? argument = none :=
        Option.eq_none_iff_forall_ne_some.mpr fun flag hfound =>
          hflag flag (NumberFlag.ofText?_eq_some_iff.mp hfound)
      simp only [read, hnoSwitch, hnoFlag]
  | missing flag => simp only [read, Switch.ofText?_flag, NumberFlag.ofText?_text]
  | @notANumber flag text rest hbad =>
      have hnone : readNumber? text = none := by
        refine Option.eq_none_iff_forall_ne_some.mpr fun value hvalue => ?_
        obtain ⟨hnumeral, hsmall⟩ := readNumber?_eq_some_iff.mp hvalue
        exact absurd (hbad value hnumeral) (Nat.not_lt.mpr hsmall)
      rw [read_flag, hnone]

/-- Tokens can be read up to the end or up to the first fault. -/
theorem exists_split (arguments : List String) :
    ∃ before rest tokens, arguments = before ++ rest ∧ Spelt before tokens ∧
      (rest = [] ∨ ∃ error, Fault rest error) := by
  have hstop {rest : List String} {error : OptionError} (hfault : Fault rest error) :
      ∃ before after tokens, rest = before ++ after ∧ Spelt before tokens ∧
        (after = [] ∨ ∃ error, Fault after error) :=
    ⟨[], rest, [], rfl, .nil, .inr ⟨error, hfault⟩⟩
  fun_induction read {} arguments with
  | case1 => exact ⟨[], [], [], rfl, .nil, .inl rfl⟩
  | case2 _ argument rest switch hswitch ih =>
      obtain ⟨before, after, tokens, rfl, hspelt, hafter⟩ := ih
      obtain rfl := Switch.ofText?_eq_some_iff.mp hswitch
      exact ⟨_, after, _, rfl, .switch switch hspelt, hafter⟩
  | case3 _ argument rest hnoFlag hnoSwitch =>
      have hfault : Fault (argument :: rest) (.unknownArgument argument) := by
        constructor
        · intro switch htext
          rw [Switch.ofText?_eq_some_iff.mpr htext] at hnoSwitch
          cases hnoSwitch
        · intro flag htext
          rw [NumberFlag.ofText?_eq_some_iff.mpr htext] at hnoFlag
          cases hnoFlag
      exact hstop hfault
  | case4 _ argument flag hflag _ =>
      obtain rfl := NumberFlag.ofText?_eq_some_iff.mp hflag
      exact hstop (.missing flag)
  | case5 _ argument flag hflag _ text rest value hvalue ih =>
      obtain ⟨before, after, tokens, rfl, hspelt, hafter⟩ := ih
      obtain rfl := NumberFlag.ofText?_eq_some_iff.mp hflag
      obtain ⟨hnumeral, hsmall⟩ := readNumber?_eq_some_iff.mp hvalue
      exact ⟨_, after, _, rfl, .number flag hnumeral hsmall hspelt, hafter⟩
  | case6 _ argument flag hflag _ text rest hnone =>
      obtain rfl := NumberFlag.ofText?_eq_some_iff.mp hflag
      refine hstop (.notANumber flag fun value hnumeral => Nat.lt_of_not_le fun hsmall => ?_)
      rw [readNumber?_eq_some_iff.mpr ⟨hnumeral, hsmall⟩] at hnone
      cases hnone

theorem parse_eq (arguments : List String) :
    parse arguments =
      match read {} arguments with
      | .ok options => if options.width = 0 then .error .zeroWidth else .ok options
      | .error error => .error error := by
  rw [parse]
  cases read {} arguments with
  | error error => rfl
  | ok options =>
      by_cases hwidth : options.width = 0
      · exact (if_pos hwidth).trans (if_pos hwidth).symm
      · exact (if_neg hwidth).trans (if_neg hwidth).symm

theorem parse_of_commandLine {outcome : Except OptionError Options}
    (hline : CommandLine arguments outcome) : parse arguments = outcome := by
  have hread {arguments : List String} {tokens : List OptionToken}
      (hspelt : Spelt arguments tokens) : read {} arguments = .ok (ofTokens tokens) := by
    have happend := read_append_of_spelt hspelt {} []
    rwa [List.append_nil, foldl_obey, read] at happend
  cases hline with
  | accepted hspelt hwidth => simp only [parse_eq, hread hspelt, if_neg hwidth]
  | zeroWidth hspelt hwidth => simp only [parse_eq, hread hspelt, if_pos hwidth]
  | faulty hspelt hfault =>
      simp only [parse_eq, read_append_of_spelt hspelt, read_of_fault hfault]

theorem exists_commandLine (arguments : List String) :
    ∃ outcome, CommandLine arguments outcome := by
  obtain ⟨before, rest, tokens, rfl, hspelt, rfl | ⟨error, hfault⟩⟩ := exists_split arguments
  · rw [List.append_nil]
    by_cases hwidth : (ofTokens tokens).width = 0
    · exact ⟨_, .zeroWidth hspelt hwidth⟩
    · exact ⟨_, .accepted hspelt hwidth⟩
  · exact ⟨_, .faulty hspelt hfault⟩

/-- A command line is read as its tokens say if it is made of tokens and asks for some
width, and else is complained about at its first fault. -/
theorem arguments_follow_grammar (arguments : List String)
    (outcome : Except OptionError Options) :
    parse arguments = outcome ↔ CommandLine arguments outcome := by
  constructor
  · rintro rfl
    obtain ⟨outcome, hline⟩ := exists_commandLine arguments
    rwa [parse_of_commandLine hline]
  · exact parse_of_commandLine

end Options

end LinePainter
