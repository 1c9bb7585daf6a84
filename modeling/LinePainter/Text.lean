namespace LinePainter

/-! Text is a list of characters. Offsets into it count the bytes of its UTF-8
form and are only used between characters. -/

abbrev Text := List Char

namespace Text

def byteLength : Text → Nat
  | [] => 0
  | char :: rest => char.utf8Size + byteLength rest

@[simp] theorem byteLength_nil : byteLength [] = 0 := rfl

@[simp] theorem byteLength_cons (char : Char) (rest : Text) :
    byteLength (char :: rest) = char.utf8Size + byteLength rest := rfl

@[simp] theorem byteLength_append (before after : Text) :
    byteLength (before ++ after) = byteLength before + byteLength after := by
  induction before with
  | nil => simp
  | cons char rest ih =>
      rw [List.cons_append, byteLength_cons, byteLength_cons, ih, Nat.add_assoc]

/-- The text in front of a byte offset and the text from there on, unless the offset
lies inside a character or past the end. -/
def splitAt? : Nat → Text → Option (Text × Text)
  | 0, text => some ([], text)
  | _ + 1, [] => none
  | offset + 1, char :: rest =>
      if char.utf8Size ≤ offset + 1 then
        (splitAt? (offset + 1 - char.utf8Size) rest).map
          fun (before, after) => (char :: before, after)
      else none

@[simp] theorem splitAt?_zero (text : Text) : splitAt? 0 text = some ([], text) := by
  cases text <;> rfl

theorem splitAt?_append (before after : Text) :
    splitAt? (byteLength before) (before ++ after) = some (before, after) := by
  induction before with
  | nil => simp
  | cons char rest ih =>
      have hsize := char.utf8Size_pos
      obtain ⟨offset, hoffset⟩ :
          ∃ offset, byteLength (char :: rest) = offset + 1 :=
        ⟨byteLength (char :: rest) - 1, by rw [byteLength_cons]; omega⟩
      rw [hoffset, List.cons_append, splitAt?,
        if_pos (by rw [byteLength_cons] at hoffset; omega)]
      rw [show offset + 1 - char.utf8Size = byteLength rest by
        rw [byteLength_cons] at hoffset; omega]
      rw [ih]
      rfl

/-- Splitting loses nothing, and the first part has as many bytes as asked for. -/
theorem splitAt?_sound {offset : Nat} {text before after : Text}
    (hsplit : splitAt? offset text = some (before, after)) :
    text = before ++ after ∧ byteLength before = offset := by
  induction text generalizing offset before with
  | nil =>
      cases offset with
      | zero => cases hsplit; exact ⟨rfl, rfl⟩
      | succ offset => cases hsplit
  | cons char rest ih =>
      cases offset with
      | zero => cases hsplit; exact ⟨rfl, rfl⟩
      | succ offset =>
          rw [splitAt?] at hsplit
          split at hsplit
          · obtain ⟨⟨front, back⟩, hfront, heq⟩ := Option.map_eq_some_iff.mp hsplit
            cases heq
            obtain ⟨hrest, hlength⟩ := ih hfront
            refine ⟨by rw [hrest, List.cons_append], ?_⟩
            rw [byteLength_cons, hlength]
            omega
          · cases hsplit

def slice? (start stop : Nat) (text : Text) : Option Text := do
  let (_, fromStart) ← splitAt? start text
  let (between, _) ← if start ≤ stop then splitAt? (stop - start) fromStart else none
  return between

def find? (pattern : Text) : Text → Option Nat
  | [] => if pattern = [] then some 0 else none
  | char :: rest =>
      if pattern.isPrefixOf (char :: rest) then some 0
      else (find? pattern rest).map (char.utf8Size + ·)

end Text

end LinePainter
