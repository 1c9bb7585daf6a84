import LinePainter.Proofs.Line.Wrapping

namespace LinePainter

namespace Text

/-! Blanks are what word wrap works with. Words are what it leaves in one piece. -/

def isBlank (char : Char) : Bool :=
  char == ' ' || char == '\n'

/-- The longest runs of letters, digits and underscores. -/
def words (text : Text) : List Text :=
  (text.splitOnP fun char => !Wrap.isWordChar char).filter (· ≠ [])

def startsInWord (text : Text) : Bool :=
  text.head?.any Wrap.isWordChar

@[simp] theorem startsInWord_cons (char : Char) (rest : Text) :
    startsInWord (char :: rest) = Wrap.isWordChar char := rfl

@[simp] theorem words_nil : words [] = [] := rfl

theorem words_cons_of_not_word {char : Char} (hchar : Wrap.isWordChar char = false)
    (rest : Text) : words (char :: rest) = words rest := by
  rw [words, List.splitOnP_cons_eq_if_modifyHead, hchar]
  rfl

theorem words_cons_of_word {char : Char} (hchar : Wrap.isWordChar char = true)
    (rest : Text) :
    words (char :: rest) =
      if startsInWord rest then (words rest).modifyHead (char :: ·)
      else [char] :: words rest := by
  rw [words, List.splitOnP_cons_eq_if_modifyHead, hchar]
  cases rest with
  | nil => rfl
  | cons next rest =>
      rw [words, List.splitOnP_cons_eq_if_modifyHead, startsInWord_cons]
      cases Wrap.isWordChar next with
      | false => rfl
      | true =>
          obtain ⟨first, others, hsplit⟩ := List.exists_cons_of_ne_nil
            (List.splitOnP_ne_nil (fun char => !Wrap.isWordChar char) rest)
          rw [hsplit]
          rfl

theorem words_replicate_append {char : Char} (hchar : Wrap.isWordChar char = false)
    (count : Nat) (rest : Text) :
    words (List.replicate count char ++ rest) = words rest := by
  induction count with
  | zero => rfl
  | succ count ih =>
      rw [List.replicate_succ, List.cons_append, words_cons_of_not_word hchar, ih]

theorem words_ne_nil {text : Text} (hstart : startsInWord text = true) : words text ≠ [] := by
  cases text with
  | nil => cases hstart
  | cons char rest =>
      rw [words_cons_of_word hstart]
      split
      · next hrest =>
          rw [ne_eq, List.modifyHead_eq_nil_iff]
          exact words_ne_nil hrest
      · exact List.cons_ne_nil _ _

theorem getLast?_cons_or (char : Char) (rest : Text) (previous : Option Char) :
    (char :: rest).getLast?.or previous = rest.getLast?.or (some char) := by
  rw [List.getLast?_cons]
  cases rest.getLast? <;> rfl

end Text

namespace Wrap

open Text

/-! What a wrap pass may do to a text. -/

/-- There is no word that `previous` belongs to and that goes on in `text`. -/
def CanBreak (previous : Option Char) (text : Text) : Prop :=
  previous.any isWordChar = true → startsInWord text = false

theorem words_append {left right : Text} (hseam : CanBreak left.getLast? right) :
    words (left ++ right) = words left ++ words right := by
  induction left with
  | nil => rfl
  | cons char left ih =>
      rw [List.cons_append]
      cases left with
      | nil =>
          cases hchar : isWordChar char with
          | false => rw [List.nil_append, words_cons_of_not_word hchar,
              words_cons_of_not_word hchar, words_nil, List.nil_append]
          | true =>
              rw [List.nil_append, words_cons_of_word hchar, words_cons_of_word hchar,
                if_neg (ne_true_of_eq_false (hseam hchar))]
              rfl
      | cons next left =>
          have hleft := ih hseam
          cases hchar : isWordChar char with
          | false => rw [words_cons_of_not_word hchar, words_cons_of_not_word hchar, hleft]
          | true =>
              rw [words_cons_of_word hchar, words_cons_of_word hchar, hleft,
                List.cons_append, startsInWord_cons, startsInWord_cons]
              split
              · next hnext =>
                  have hfirst : words (next :: left) ≠ [] := words_ne_nil hnext
                  obtain ⟨first, others, hwords⟩ := List.exists_cons_of_ne_nil hfirst
                  rw [hwords]
                  rfl
              · rfl

/-- `new` comes from `old` by line breaks put in outside of words, an indent put in
behind every newline, and spaces taken out right behind a line break. `previous` is the
character of the old text in front of `old`, and `fresh` says that a line break was just
put in. -/
inductive Reflows (indent : Nat) : Option Char → Bool → Text → Text → Prop
  | done {previous : Option Char} {fresh : Bool} : Reflows indent previous fresh [] []
  | keep {previous : Option Char} {fresh : Bool} {char : Char} {old new : Text} :
      char ≠ '\n' → Reflows indent (some char) false old new →
      Reflows indent previous fresh (char :: old) (char :: new)
  | newline {previous : Option Char} {fresh : Bool} {old new : Text} :
      Reflows indent (some '\n') false old new →
      Reflows indent previous fresh ('\n' :: old)
        ('\n' :: (List.replicate indent ' ' ++ new))
  | lineBreak {previous : Option Char} {fresh : Bool} {old new : Text} :
      CanBreak previous old → Reflows indent previous true old new →
      Reflows indent previous fresh old ('\n' :: (List.replicate indent ' ' ++ new))
  | dropSpace {previous : Option Char} {old new : Text} :
      Reflows indent (some ' ') true old new →
      Reflows indent previous true (' ' :: old) new

/-- What reads the same in both texts. Newlines can only come in addition. -/
structure SameReading (old new : Text) : Prop where
  nonblank_eq : new.filter (!isBlank ·) = old.filter (!isBlank ·)
  nonspace_sublist : (old.filter (· ≠ ' ')).Sublist (new.filter (· ≠ ' '))
  words_eq : words new = words old

namespace SameReading

variable {old new : Text}

theorem refl (text : Text) : SameReading text text :=
  ⟨rfl, List.Sublist.refl _, rfl⟩

theorem append_left {before : Text} (hsame : SameReading old new)
    (hseam : CanBreak before.getLast? old)
    (hstart : startsInWord new = true → startsInWord old = true) :
    SameReading (before ++ old) (before ++ new) where
  nonblank_eq := by rw [List.filter_append, List.filter_append, hsame.nonblank_eq]
  nonspace_sublist := by
    rw [List.filter_append, List.filter_append]
    exact hsame.nonspace_sublist.append_left _
  words_eq := by
    have hseam' : CanBreak before.getLast? new := fun hword =>
      Bool.eq_false_iff.mpr fun hnew =>
        ne_true_of_eq_false (hseam hword) (hstart hnew)
    rw [words_append hseam, words_append hseam', hsame.words_eq]

end SameReading

namespace Reflows

variable {indent : Nat} {previous : Option Char} {fresh : Bool} {old new : Text}

theorem filter_nonblank_eq (hreflows : Reflows indent previous fresh old new) :
    new.filter (!isBlank ·) = old.filter (!isBlank ·) := by
  induction hreflows with
  | done => rfl
  | keep _ _ ih => rw [List.filter_cons, List.filter_cons, ih]
  | newline _ ih => simpa [isBlank] using ih
  | lineBreak _ _ ih => simpa [isBlank] using ih
  | dropSpace _ ih => simpa [isBlank] using ih

theorem filter_nonspace_sublist (hreflows : Reflows indent previous fresh old new) :
    (old.filter (· ≠ ' ')).Sublist (new.filter (· ≠ ' ')) := by
  induction hreflows with
  | done => exact List.Sublist.slnil
  | @keep _ _ char _ _ _ _ ih =>
      rw [List.filter_cons, List.filter_cons]
      split
      · exact ih.cons_cons char
      · exact ih
  | newline _ ih => simpa using ih
  | lineBreak _ _ ih => simpa using ih.trans (List.sublist_cons_self '\n' _)
  | dropSpace _ ih => simpa using ih

/-- The new text starts in a word only where the old one does. -/
theorem startsInWord_of_new (hreflows : Reflows indent previous false old new)
    (hnew : startsInWord new = true) : startsInWord old = true := by
  cases hreflows with
  | done => exact hnew
  | keep => exact hnew
  | newline => exact hnew
  | lineBreak => cases hnew

/-- A word that has begun goes on in both texts or in none. -/
theorem startsInWord_eq {char : Char} (hchar : isWordChar char = true)
    (hreflows : Reflows indent (some char) false old new) :
    startsInWord new = startsInWord old := by
  cases hreflows with
  | done => rfl
  | keep => rfl
  | newline => rfl
  | lineBreak hseam _ => exact (hseam hchar).symm

theorem words_eq (hreflows : Reflows indent previous fresh old new) :
    words new = words old := by
  have hspace : isWordChar ' ' = false := rfl
  have hnewline : isWordChar '\n' = false := rfl
  induction hreflows with
  | done => rfl
  | @keep _ _ char old new _ hrest ih =>
      cases hchar : isWordChar char with
      | false => rw [words_cons_of_not_word hchar, words_cons_of_not_word hchar, ih]
      | true =>
          rw [words_cons_of_word hchar, words_cons_of_word hchar, ih,
            startsInWord_eq hchar hrest]
  | newline _ ih =>
      rw [words_cons_of_not_word hnewline, words_cons_of_not_word hnewline,
        words_replicate_append hspace, ih]
  | lineBreak _ _ ih =>
      rw [words_cons_of_not_word hnewline, words_replicate_append hspace, ih]
  | dropSpace _ ih => rw [words_cons_of_not_word hspace, ih]

theorem sameReading (hreflows : Reflows indent previous fresh old new) :
    SameReading old new :=
  ⟨hreflows.filter_nonblank_eq, hreflows.filter_nonspace_sublist, hreflows.words_eq⟩

theorem keepAll {kept : Text} (hkept : '\n' ∉ kept)
    (hrest : ∀ fresh, Reflows indent (kept.getLast?.or previous) fresh old new) :
    Reflows indent previous fresh (kept ++ old) (kept ++ new) := by
  induction kept generalizing previous fresh with
  | nil => exact hrest fresh
  | cons char kept ih =>
      rw [List.mem_cons, not_or] at hkept
      refine .keep (Ne.symm hkept.1) (ih hkept.2 fun fresh => ?_)
      have hlast := hrest fresh
      rwa [getLast?_cons_or] at hlast

end Reflows

/-! The pass does no more than that. What is left to do after each part of a round stands
between two words, so the next part may begin with a line break. -/

variable {previous : Option Char} {fresh : Bool}

theorem canBreak_of_not_word {char : Char} (hchar : isWordChar char = false) (text : Text) :
    CanBreak (some char) text := by
  intro hword
  rw [Option.any_some, hchar] at hword
  cases hword

theorem newline_not_mem_leadingUnit (text : Text) : '\n' ∉ leadingUnit text := by
  have hnewline : isUnitChar '\n' = false := rfl
  induction text with
  | nil => exact List.not_mem_nil
  | cons char rest ih =>
      rw [leadingUnit]
      split
      · next hunit =>
          have hchar : '\n' ≠ char := by
            rintro rfl
            rw [hnewline] at hunit
            cases hunit
          split
          · simp [hchar]
          · simp [hchar, ih]
      · exact List.not_mem_nil

theorem startsInWord_of_leadingUnit_eq_nil {text : Text} (hunit : leadingUnit text = []) :
    startsInWord text = false := by
  cases text with
  | nil => rfl
  | cons first rest => exact isWordChar_eq_false_of_leadingUnit_eq_nil hunit

/-- No word reaches across the end of a unit. -/
theorem canBreak_behind_leadingUnit {text : Text}
    (hseam : leadingUnit text = [] → CanBreak previous text) :
    CanBreak ((leadingUnit text).getLast?.or previous)
      (text.drop (leadingUnit text).length) := by
  induction text generalizing previous with
  | nil => exact hseam rfl
  | cons char rest ih =>
      rw [leadingUnit] at hseam ⊢
      split
      · split
        · next hstop =>
            subst hstop
            exact canBreak_of_not_word rfl _
        · have hrest := @ih (some char) fun hunit _ =>
            startsInWord_of_leadingUnit_eq_nil hunit
          rwa [getLast?_cons_or, List.length_cons, List.drop_succ_cons]
      · next hunit =>
          rw [if_neg hunit] at hseam
          exact hseam rfl

/-- `new` is a way to go on with `rest` wherever no word is cut. -/
def Continues (wrap : TextWrap) (rest new : Text) : Prop :=
  ∀ previous fresh, CanBreak previous rest → Reflows wrap.indent previous fresh rest new

variable {wrap : TextWrap} {new : Text}

theorem Continues.keepUnit {text : Text}
    (hrest : Continues wrap (text.drop (leadingUnit text).length) new) :
    Continues wrap text (leadingUnit text ++ new) := by
  intro previous fresh hseam
  have hkept : Reflows wrap.indent previous fresh
      (leadingUnit text ++ text.drop (leadingUnit text).length) (leadingUnit text ++ new) :=
    Reflows.keepAll (newline_not_mem_leadingUnit text) fun fresh =>
      hrest _ fresh (canBreak_behind_leadingUnit fun _ => hseam)
  rwa [leadingUnit_append_drop] at hkept

theorem Continues.takeFiller {text : Text} {usable : Nat} {room : Room}
    (hrest : Continues wrap (takeFiller usable room text).rest new) :
    Continues wrap text
      ((takeFiller usable room text).pieces.flatMap (Piece.replacement wrap) ++ new) := by
  induction text generalizing room with
  | nil => exact hrest
  | cons char rest ih =>
      rw [Wrap.takeFiller] at hrest ⊢
      split at hrest
      · next hfull => rwa [if_pos hfull]
      · next hroom =>
          rw [if_neg hroom]
          split at hrest
          · next hnewline =>
              subst hnewline
              intro previous fresh _
              simpa [Piece.replacement] using
                Reflows.newline (hrest _ false (canBreak_of_not_word rfl _))
          · next hnewline =>
              rw [if_neg hnewline]
              split at hrest
              · next hword => rwa [if_pos hword]
              · next hword =>
                  rw [if_neg hword]
                  intro previous fresh _
                  exact .keep hnewline
                    (ih hrest _ false (canBreak_of_not_word (by simpa using hword) _))

theorem Continues.dropSpaces {text : Text}
    (hrest : Continues wrap (text.drop (text.takeWhile (· = ' ')).length) new)
    (hseam : CanBreak previous text) : Reflows wrap.indent previous true text new := by
  induction text generalizing previous with
  | nil => exact hrest previous true hseam
  | cons char rest ih =>
      by_cases hspace : char = ' '
      · subst hspace
        exact .dropSpace (ih (by simpa using hrest) (canBreak_of_not_word rfl _))
      · have hnothing : (char :: rest).takeWhile (· = ' ') = [] := by simp [hspace]
        rw [hnothing] at hrest
        exact hrest previous true hseam

theorem Continues.moveUnit {text : Text} (hrest : Continues wrap text new) (room : Room)
    (unit : Text) :
    Continues wrap text
      ((if Overflows wrap.usable room unit then [Piece.lineBreak] else []).flatMap
        (Piece.replacement wrap) ++ new) := by
  intro previous fresh hseam
  split
  · simpa [Piece.replacement] using Reflows.lineBreak hseam (hrest previous true hseam)
  · exact hrest previous fresh hseam

theorem flatMap_replacement_kept (wrap : TextWrap) (text : Text) :
    (text.map Piece.kept).flatMap (Piece.replacement wrap) = text := by
  rw [List.flatMap_map]
  exact List.flatMap_singleton' text

theorem Continues.round {text : Text} {room : Room}
    (hrest : Continues wrap (round wrap room text).rest new) :
    Continues wrap text
      ((round wrap room text).pieces.flatMap (Piece.replacement wrap) ++ new) := by
  rw [Wrap.round] at hrest ⊢
  dsimp only at hrest ⊢
  split at hrest
  · next hfull =>
      have hbroken : Continues wrap (Wrap.takeFiller wrap.usable
          ((roomForUnit wrap room (leadingUnit text)).map (· - (leadingUnit text).length))
          (text.drop (leadingUnit text).length)).rest
          ('\n' :: (List.replicate wrap.indent ' ' ++ new)) :=
        fun previous fresh hseam => .lineBreak hseam (hrest.dropSpaces hseam)
      rw [if_pos hfull]
      simpa [flatMap_replacement_kept, Piece.replacement] using
        (hbroken.takeFiller.keepUnit).moveUnit room (leadingUnit text)
  · next hfull =>
      rw [if_neg hfull]
      simpa [flatMap_replacement_kept] using
        (hrest.takeFiller.keepUnit).moveUnit room (leadingUnit text)

theorem continues_layout (wrap : TextWrap) (room : Room) (text : Text) :
    Continues wrap text ((layout wrap room text).flatMap (Piece.replacement wrap)) := by
  fun_induction layout wrap room text with
  | case1 room => exact fun _ _ _ => .done
  | case2 room text _ next ih =>
      rw [List.flatMap_append]
      exact Continues.round ih

end Wrap

namespace Line

open Wrap

/-- Insertion with word wrap leaves the text in front of the insertion point alone. Behind
it, a line wider than asked for is reflowed, and any other stays as it is. What can be read
there stays the same, and so does what can be read in the whole text unless the insertion
point lies in a word, which may then be broken there. -/
theorem insert_reflows {line : Line} {index : Nat} (hindex : line.text.IsBoundary index)
    (fragment : Line) (wrap : TextWrap) :
    ∃ plain wrapped before after reflowed,
      line.insert index fragment none = .ok plain ∧
        line.insert index fragment (some wrap) = .ok wrapped ∧
        before.byteLength = index ∧
        plain.text = before ++ after ∧
        wrapped.text = before ++ reflowed ∧
        (plain.length ≤ wrap.width → wrapped = plain) ∧
        (wrap.width < plain.length → Reflows wrap.indent none false after reflowed) ∧
        SameReading after reflowed ∧
        (CanBreak before.getLast? after → SameReading plain.text wrapped.text) := by
  obtain ⟨before, behind, htext, rfl⟩ := hindex
  have hsplit := line.text_splice before behind fragment
  rw [insert_none_eq htext, insert_some_eq htext]
  by_cases hwide : wrap.width < (line.splice before behind fragment).length
  · obtain ⟨wrapped, hwrapped, hkeeps⟩ := exists_wrapFrom wrap hsplit
    have hreflows := continues_layout wrap (roomAt wrap before (fragment.text ++ behind))
      (fragment.text ++ behind) none false nofun
    rw [if_pos hwide]
    refine ⟨_, wrapped, before, _, _, rfl, hwrapped, rfl, hsplit, hkeeps.text_eq,
      fun hnarrow => absurd hwide (Nat.not_lt.mpr hnarrow), fun _ => hreflows,
      hreflows.sameReading, fun hseam => ?_⟩
    rw [hsplit, hkeeps.text_eq]
    exact hreflows.sameReading.append_left hseam hreflows.startsInWord_of_new
  · rw [if_neg hwide]
    exact ⟨_, _, before, _, _, rfl, rfl, rfl, hsplit, hsplit, fun _ => rfl,
      fun hlong => absurd hlong hwide, .refl _, fun _ => .refl _⟩

theorem insert_reflows_full_line :
    let line : Line := ⟨['a', '\n', 'é'], [⟨⟨9, some 2⟩, .graphic '─'⟩]⟩
    let fragment : Line := ⟨['b', '.', 'c', ' ', ' ', 'd', '\n', 'e'], []⟩
    ∃ plain wrapped before after reflowed,
      line.insert 4 fragment none = .ok plain ∧
        line.insert 4 fragment (some ⟨5, 2⟩) = .ok wrapped ∧
        before.byteLength = 4 ∧
        plain.text = before ++ after ∧
        wrapped.text = before ++ reflowed ∧
        Reflows 2 none false after reflowed ∧
        SameReading after reflowed := by
  intro line fragment
  have hindex : line.text.IsBoundary 4 := by decide
  obtain ⟨plain, wrapped, before, after, reflowed, hplain, hwrapped, hbefore, hsplit, htext,
    -, hwide, hsame, -⟩ := insert_reflows hindex fragment ⟨5, 2⟩
  have hlong : 5 < plain.length := by
    cases hplain
    decide
  exact ⟨plain, wrapped, before, after, reflowed, hplain, hwrapped, hbefore, hsplit, htext,
    hwide hlong, hsame⟩

end Line

end LinePainter
