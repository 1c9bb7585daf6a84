import LinePainter.Terminal.Signal

namespace LinePainter

/-! A terminal, as far as frames need one. It understands cursor positions and renditions
and gives up on any other control sequence. Every other character is printed at the cursor,
which moves one column on. -/

/-- How characters printed from now on look. -/
structure Pen where
  bold : Bool := false
  dim : Bool := false
  italic : Bool := false
  underline : Bool := false
  blink : Bool := false
  reverse : Bool := false
  hidden : Bool := false
  foreground : CellColor := .terminalDefault
  background : CellColor := .terminalDefault
  deriving DecidableEq

namespace Pen

def plain : Pen := {}

/-- Eight parameters in a row, from `first` on, that stand for the colors from `color` on. -/
def colorFrom? (first color parameter : Nat) : Option CellColor :=
  if first ≤ parameter ∧ parameter < first + 8 then
    some (.indexed (Fin.ofNat 256 (color + (parameter - first))))
  else none

def foreground? (parameter : Nat) : Option CellColor :=
  if parameter = 39 then some .terminalDefault
  else (colorFrom? 30 0 parameter).or (colorFrom? 90 8 parameter)

def background? (parameter : Nat) : Option CellColor :=
  if parameter = 49 then some .terminalDefault
  else (colorFrom? 40 0 parameter).or (colorFrom? 100 8 parameter)

/-- What a parameter does that stands by itself. -/
def change? (pen : Pen) : Nat → Option Pen
  | 0 => some plain
  | 1 => some { pen with bold := true }
  | 2 => some { pen with dim := true }
  | 3 => some { pen with italic := true }
  | 4 => some { pen with underline := true }
  | 5 => some { pen with blink := true }
  | 7 => some { pen with reverse := true }
  | 8 => some { pen with hidden := true }
  | parameter =>
      ((foreground? parameter).map fun color => { pen with foreground := color }).or
        ((background? parameter).map fun color => { pen with background := color })

/-- What `38;5;id` and `48;5;id` do. -/
def extendedChange? (pen : Pen) (parameter id : Nat) : Option Pen :=
  if hid : id < 256 then
    if parameter = 38 then some { pen with foreground := .indexed ⟨id, hid⟩ }
    else if parameter = 48 then some { pen with background := .indexed ⟨id, hid⟩ }
    else none
  else none

def select (pen : Pen) : List Nat → Option Pen
  | [] => some pen
  | parameter :: rest =>
      match pen.change? parameter with
      | some changed => select changed rest
      | none =>
          match rest with
          | 5 :: id :: rest => (pen.extendedChange? parameter id).bind (select · rest)
          | _ => none

end Pen

/-- What a terminal shows: characters and how they look, by column and row. -/
@[ext] structure Display where
  row : Nat
  column : Nat
  pen : Pen
  shown : Nat → Nat → Option (Char × Pen)

namespace Display

def print (display : Display) (char : Char) : Display :=
  { display with
    column := display.column + 1
    shown := fun x y =>
      if y = display.row ∧ x = display.column then some (char, display.pen)
      else display.shown x y }

theorem shown_print (display : Display) (char : Char) (x y : Nat) :
    (display.print char).shown x y =
      if y = display.row ∧ x = display.column then some (char, display.pen)
      else display.shown x y := rfl

/-- Rows and columns of a cursor position are counted from one. -/
def obey (display : Display) : Signal → Option Display
  | .moveTo row column =>
      if 0 < row ∧ 0 < column then
        some { display with row := row - 1, column := column - 1 }
      else none
  | .rendition parameters =>
      (display.pen.select parameters).map fun pen => { display with pen }
  | .print char => some (display.print char)

def obeyAll (display : Display) (signals : List Signal) : Option Display :=
  signals.foldlM obey display

@[simp] theorem obeyAll_nil (display : Display) : display.obeyAll [] = some display := rfl

@[simp] theorem obeyAll_cons (display : Display) (signal : Signal) (rest : List Signal) :
    display.obeyAll (signal :: rest) = (display.obey signal).bind (·.obeyAll rest) :=
  List.foldlM_cons

theorem obeyAll_append (display : Display) (first second : List Signal) :
    display.obeyAll (first ++ second) =
      (display.obeyAll first).bind (·.obeyAll second) :=
  List.foldlM_append

end Display

/-- Where a terminal is in the text it reads. -/
inductive Reading where
  | plain
  | escape
  /-- In a control sequence, behind the parameters `read` and the digits of `current`. -/
  | control (read : List Nat) (current : Option Nat)

structure Terminal where
  reading : Reading
  display : Display

namespace Terminal

/-- The control sequences that are understood, by their last character. -/
def signal? : Char → List Nat → Option Signal
  | 'H', [row, column] => some (.moveTo row column)
  | 'm', parameters => some (.rendition parameters)
  | _, _ => none

def feed : Terminal → Char → Option Terminal
  | ⟨.plain, display⟩, char =>
      if char = '\x1b' then some ⟨.escape, display⟩ else some ⟨.plain, display.print char⟩
  | ⟨.escape, display⟩, char => if char = '[' then some ⟨.control [] none, display⟩ else none
  | ⟨.control read current, display⟩, char =>
      if char.isDigit then
        some ⟨.control read (some (10 * current.getD 0 + (char.toNat - '0'.toNat))), display⟩
      else
        match current with
        | none => none
        | some number =>
            if char = ';' then some ⟨.control (read ++ [number]) none, display⟩
            else
              (signal? char (read ++ [number])).bind fun signal =>
                (display.obey signal).map (mk .plain)

def feedAll (terminal : Terminal) (text : List Char) : Option Terminal :=
  text.foldlM feed terminal

/-- A terminal is sent bytes, which are read as UTF-8. -/
def receive (terminal : Terminal) (bytes : ByteArray) : Option Terminal :=
  (String.fromUTF8? bytes).bind fun text => terminal.feedAll text.toList

@[simp] theorem feedAll_cons (terminal : Terminal) (char : Char) (rest : List Char) :
    terminal.feedAll (char :: rest) = (terminal.feed char).bind (·.feedAll rest) :=
  List.foldlM_cons

theorem feedAll_append (terminal : Terminal) (first second : List Char) :
    terminal.feedAll (first ++ second) =
      (terminal.feedAll first).bind (·.feedAll second) :=
  List.foldlM_append

theorem receive_toUTF8 (terminal : Terminal) (text : String) :
    terminal.receive text.toUTF8 = terminal.feedAll text.toList := by
  have hdecoded : String.fromUTF8? text.toUTF8 = some text := dif_pos text.isValidUTF8
  rw [receive, hdecoded]
  rfl

/-! Every signal is read as what it says. -/

variable (display : Display) (read : List Nat)

theorem feedAll_digits {digits : List Char} (hdigits : ∀ char ∈ digits, char.isDigit = true)
    (number : Nat) :
    feedAll ⟨.control read (some number), display⟩ digits =
      some ⟨.control read (some (Nat.ofDigitChars 10 digits number)), display⟩ := by
  induction digits generalizing number with
  | nil => rfl
  | cons digit rest ih =>
      have hdigit := hdigits digit List.mem_cons_self
      rw [feedAll_cons, feed, if_pos hdigit, Option.bind_some, Nat.ofDigitChars_cons]
      exact ih (fun char hchar => hdigits char (List.mem_cons_of_mem _ hchar)) _

theorem feedAll_decimal (number : Nat) :
    feedAll ⟨.control read none, display⟩ (Signal.decimal number) =
      some ⟨.control read (some number), display⟩ := by
  have hdigits : ∀ char ∈ Signal.decimal number, char.isDigit = true :=
    fun char hchar => Nat.isDigit_of_mem_toDigits (by decide) (by decide) hchar
  have hvalue : Nat.ofDigitChars 10 (Signal.decimal number) 0 = number :=
    Nat.ofDigitChars_toDigits (by decide) (by decide)
  -- The first digit starts the number, as if a zero had been read in front of it.
  have hnonempty : Signal.decimal number ≠ [] := Nat.toDigits_ne_nil
  obtain ⟨first, rest, hdecimal⟩ := List.exists_cons_of_ne_nil hnonempty
  have hstart : feedAll ⟨.control read none, display⟩ (Signal.decimal number) =
      feedAll ⟨.control read (some 0), display⟩ (Signal.decimal number) := by
    rw [hdecimal] at hdigits ⊢
    have hfirst := hdigits first List.mem_cons_self
    rw [feedAll_cons, feedAll_cons, feed, feed, if_pos hfirst, if_pos hfirst]
    rfl
  rw [hstart, feedAll_digits display read hdigits, hvalue]

theorem feedAll_parameters {final : Char} (hdigit : final.isDigit = false)
    (hseparator : final ≠ ';') (number : Nat) (rest : List Nat) :
    feedAll ⟨.control read none, display⟩
        ([';'].intercalate ((number :: rest).map Signal.decimal) ++ [final]) =
      (signal? final (read ++ number :: rest)).bind fun signal =>
        (display.obey signal).map (mk .plain) := by
  induction rest generalizing number read with
  | nil =>
      rw [List.map_singleton, List.intercalate_singleton, feedAll_append, feedAll_decimal,
        Option.bind_some, feedAll_cons, feed, if_neg (ne_true_of_eq_false hdigit),
        if_neg hseparator]
      exact Option.bind_fun_some _
  | cons next rest ih =>
      have hnext := ih (read ++ [number]) next
      rw [List.append_assoc, List.singleton_append] at hnext
      rw [← hnext, List.map_cons, List.map_cons, List.intercalate_cons_cons,
        List.append_assoc, List.append_assoc, feedAll_append, feedAll_decimal,
        Option.bind_some]
      rfl

theorem feedAll_control {final : Char} (hdigit : final.isDigit = false)
    (hseparator : final ≠ ';') {parameters : List Nat} (hparameters : parameters ≠ []) :
    feedAll ⟨.plain, display⟩ (Signal.control parameters final) =
      (signal? final parameters).bind fun signal => (display.obey signal).map (mk .plain) := by
  obtain ⟨number, rest, rfl⟩ := List.exists_cons_of_ne_nil hparameters
  exact feedAll_parameters display [] hdigit hseparator number rest

end Terminal

namespace Signal

/-- A signal that cannot be taken for the beginning of another one. -/
def Legible : Signal → Prop
  | .moveTo _ _ => True
  | .rendition parameters => parameters ≠ []
  | .print char => char ≠ '\x1b'

end Signal

namespace Terminal

theorem feedAll_encode (display : Display) {signal : Signal} (hlegible : signal.Legible) :
    feedAll ⟨.plain, display⟩ signal.encode = (display.obey signal).map (mk .plain) := by
  cases signal with
  | moveTo row column =>
      exact feedAll_control display rfl (by decide) (List.cons_ne_nil _ _)
  | rendition parameters =>
      exact feedAll_control display rfl (by decide) hlegible
  | print char =>
      rw [Signal.encode, feedAll_cons, feed, if_neg hlegible]
      rfl

theorem feedAll_encodeAll (display : Display) {signals : List Signal}
    (hlegible : ∀ signal ∈ signals, signal.Legible) :
    feedAll ⟨.plain, display⟩ (Signal.encodeAll signals) =
      (display.obeyAll signals).map (mk .plain) := by
  induction signals generalizing display with
  | nil => rfl
  | cons signal rest ih =>
      rw [Signal.encodeAll, List.flatMap_cons, feedAll_append,
        feedAll_encode display (hlegible signal List.mem_cons_self), Display.obeyAll_cons]
      cases display.obey signal with
      | none => rfl
      | some next => exact ih next fun other hother => hlegible other (List.mem_cons_of_mem _ hother)

end Terminal

end LinePainter
