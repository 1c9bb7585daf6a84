import LinePainter.Proofs.Span.Motion

namespace LinePainter

/-! What each edit makes of a valid line, with the texts around the edit in place of
offsets. No offset saturates on a valid line, since the limit is past its end. -/

namespace Text

@[simp] theorem utf8Size_space : ' '.utf8Size = 1 := rfl

@[simp] theorem utf8Size_newline : '\n'.utf8Size = 1 := rfl

@[simp] theorem byteLength_replicate (count : Nat) (char : Char) :
    byteLength (List.replicate count char) = count * char.utf8Size := by
  induction count with
  | zero => simp
  | succ count ih =>
      rw [List.replicate_succ, byteLength_cons, ih, Nat.succ_mul, Nat.add_comm]

theorem eq_nil_of_byteLength_eq_zero {text : Text} (hzero : byteLength text = 0) :
    text = [] := by
  cases text with
  | nil => rfl
  | cons char rest =>
      have hsize := char.utf8Size_pos
      rw [byteLength_cons] at hzero
      omega

/-- The offset lies between two characters, or at an end. -/
def IsBoundary (text : Text) (offset : Nat) : Prop :=
  ∃ before after, text = before ++ after ∧ before.byteLength = offset

theorem isBoundary_iff {text : Text} {offset : Nat} :
    text.IsBoundary offset ↔ (splitAt? offset text).isSome := by
  constructor
  · rintro ⟨before, after, rfl, rfl⟩
    rw [splitAt?_append]
    rfl
  · intro hsome
    obtain ⟨⟨before, after⟩, hsplit⟩ := Option.isSome_iff_exists.mp hsome
    obtain ⟨htext, hlength⟩ := splitAt?_sound hsplit
    exact ⟨before, after, htext, hlength⟩

instance (text : Text) (offset : Nat) : Decidable (text.IsBoundary offset) :=
  decidable_of_iff _ isBoundary_iff.symm

theorem IsBoundary.le {text : Text} {offset : Nat} (hoffset : text.IsBoundary offset) :
    offset ≤ text.byteLength := by
  obtain ⟨before, after, rfl, rfl⟩ := hoffset
  rw [byteLength_append]
  exact Nat.le_add_right ..

/-- Two boundaries in order cut a text in three. -/
theorem exists_between {text : Text} {start stop : Nat} (hle : start ≤ stop)
    (hstart : text.IsBoundary start) (hstop : text.IsBoundary stop) :
    ∃ before between after, text = before ++ between ++ after ∧
      before.byteLength = start ∧ between.byteLength = stop - start := by
  obtain ⟨before, fromStart, rfl, rfl⟩ := hstart
  obtain ⟨upToStop, after, htext, rfl⟩ := hstop
  rcases List.append_eq_append_iff.mp htext with ⟨between, rfl, rfl⟩ | ⟨extra, rfl, rfl⟩
  · refine ⟨before, between, after, by simp, rfl, ?_⟩
    rw [byteLength_append]
    omega
  · have hextra : extra = [] := by
      apply eq_nil_of_byteLength_eq_zero
      rw [byteLength_append] at hle
      omega
    subst hextra
    exact ⟨upToStop, [], fromStart, by simp, by simp, by simp⟩

end Text

namespace Attribute

@[simp] theorem mapSpan_id : mapSpan (fun span => span) = id := rfl

@[simp] theorem directive_mapSpan (move : Span → Span) (attr : Attribute) :
    (attr.mapSpan move).directive = attr.directive := rfl

@[simp] theorem span_mapSpan (move : Span → Span) (attr : Attribute) :
    (attr.mapSpan move).span = move attr.span := rfl

end Attribute

namespace Line

def Valid (line : Line) : Prop :=
  ∀ attr ∈ line.attributes, attr.span.Fits line.length

theorem valid_iff_fault?_eq_none {line : Line} : line.Valid ↔ line.fault? = none := by
  simp only [Valid, fault?, List.findSome?_eq_none_iff, Span.fault?_eq_none_iff]

variable {line : Line} {before after : Text}

theorem length_eq (htext : line.text = before ++ after) :
    line.length = before.byteLength + after.byteLength := by
  rw [length, htext, Text.byteLength_append]

theorem valid_mapSpan (hvalid : line.Valid) {text : Text} {move : Span → Span}
    (hmove : ∀ span : Span, span.Fits line.length → (move span).Fits text.byteLength) :
    Valid ⟨text, line.attributes.map (Attribute.mapSpan move)⟩ := by
  intro attr hattr
  obtain ⟨old, hold, rfl⟩ := List.mem_map.mp hattr
  exact hmove old.span (hvalid old hold)

theorem shiftAttributes_eq (hvalid : line.Valid) {text : Text} {index amount : Nat}
    (htext : text.byteLength = line.length + amount) :
    line.shiftAttributes text index amount =
      line.attributes.map (Attribute.mapSpan (·.pushed index amount)) := by
  apply List.map_congr_left
  intro attr hattr
  have hlimit : line.length + amount ≤ text.offsetLimit := by
    rw [Text.offsetLimit, htext]
    exact Nat.le_max_right ..
  rw [Attribute.mapSpan, Span.shiftedWithin_eq_pushed (hvalid attr hattr) hlimit,
    Attribute.mapSpan]

/-! Inserting characters. -/

def pushedApart (line : Line) (before run after : Text) : Line where
  text := before ++ run ++ after
  attributes := line.attributes.map
    (Attribute.mapSpan (·.pushed before.byteLength run.byteLength))

theorem insertChars_eq (hvalid : line.Valid) (htext : line.text = before ++ after)
    (count : Nat) (char : Char) :
    line.insertChars before.byteLength count char =
      .ok (line.pushedApart before (List.replicate count char) after) := by
  rw [insertChars, htext, Text.splitAt?_append]
  dsimp only
  split
  · next hcount =>
      subst hcount
      obtain ⟨text, attributes⟩ := line
      cases htext
      simp [pushedApart]
  · rw [shiftAttributes_eq hvalid (by
      rw [length_eq htext, Text.byteLength_append, Text.byteLength_append]
      omega)]
    rfl

theorem valid_pushedApart (hvalid : line.Valid) (htext : line.text = before ++ after)
    (run : Text) : (line.pushedApart before run after).Valid := by
  apply valid_mapSpan hvalid
  intro span hfits
  have hlength : (before ++ run ++ after).byteLength = line.length + run.byteLength := by
    rw [length_eq htext, Text.byteLength_append, Text.byteLength_append]
    omega
  rw [hlength]
  exact hfits.pushed ..

/-! Removing characters. -/

/-- The line without the text between `before` and `after`, `amount` bytes long. -/
def closedUp (line : Line) (before after : Text) (amount : Nat) : Line where
  text := before ++ after
  attributes := line.attributes.map (Attribute.mapSpan (·.erased before.byteLength amount))

theorem erase_eq {removed : Text} (htext : line.text = before ++ removed ++ after) :
    line.erase before.byteLength removed.byteLength =
      .ok (line.closedUp before after removed.byteLength) := by
  unfold erase
  rw [htext, List.append_assoc, Text.splitAt?_append]
  simp only [Option.bind_eq_bind, Option.bind_some]
  rw [Text.splitAt?_append]
  rfl

theorem valid_closedUp {removed : Text} (hvalid : line.Valid)
    (htext : line.text = before ++ removed ++ after) :
    (line.closedUp before after removed.byteLength).Valid := by
  apply valid_mapSpan hvalid
  intro span hfits
  have hlength : line.length = (before ++ after).byteLength + removed.byteLength := by
    rw [length_eq htext, Text.byteLength_append, Text.byteLength_append]
    omega
  rw [hlength] at hfits
  exact hfits.erased (by rw [Text.byteLength_append]; omega)

/-! Inserting a line. -/

/-- The attributes of a line after another one was put in. At the end of the text they
stay as they are. -/
def partedAttributes (line : Line) (index amount : Nat) : List Attribute :=
  if index < line.length then
    line.attributes.map (Attribute.mapSpan (·.pushed index amount))
  else line.attributes

def embeddedAttributes (fragment : Line) (index : Nat) : List Attribute :=
  fragment.attributes.map (Attribute.mapSpan (·.embedded index fragment.length))

theorem splice_eq (hvalid : line.Valid) (htext : line.text = before ++ after)
    (fragment : Line) :
    line.splice before after fragment =
      { text := before ++ fragment.text ++ after
        attributes :=
          line.partedAttributes before.byteLength fragment.length ++
            fragment.embeddedAttributes before.byteLength } := by
  rw [splice, partedAttributes, shiftAttributes_eq hvalid (by
    rw [length_eq htext, length, Text.byteLength_append, Text.byteLength_append]
    omega)]
  rfl

theorem valid_splice {fragment : Line} (hvalid : line.Valid) (hfragment : fragment.Valid)
    (htext : line.text = before ++ after) : (line.splice before after fragment).Valid := by
  have hlength : (line.splice before after fragment).length =
      line.length + fragment.length := by
    rw [splice_eq hvalid htext, length, length_eq htext, length,
      Text.byteLength_append, Text.byteLength_append]
    omega
  intro attr hattr
  rw [hlength]
  rw [splice_eq hvalid htext] at hattr
  rcases List.mem_append.mp hattr with hold | hnew
  · unfold partedAttributes at hold
    split at hold
    · obtain ⟨old, hmem, rfl⟩ := List.mem_map.mp hold
      exact (hvalid old hmem).pushed ..
    · exact (hvalid attr hold).mono (Nat.le_add_right ..)
  · obtain ⟨old, hmem, rfl⟩ := List.mem_map.mp hnew
    exact (hfragment old hmem).embedded (by rw [length_eq htext]; omega)

theorem insertPlain_eq (htext : line.text = before ++ after) (fragment : Line) :
    line.insertPlain before.byteLength fragment = .ok (line.splice before after fragment) := by
  rw [insertPlain, htext, Text.splitAt?_append]

theorem valid_append {fragment : Line} (hvalid : line.Valid) (hfragment : fragment.Valid) :
    (line.append fragment).Valid :=
  valid_splice hvalid hfragment (List.append_nil _).symm

theorem valid_appendText (hvalid : line.Valid) (text : Text) :
    (line.appendText text).Valid := by
  intro attr hattr
  have hlength : (line.appendText text).length = line.length + text.byteLength :=
    Text.byteLength_append ..
  rw [hlength]
  exact (hvalid attr hattr).mono (Nat.le_add_right ..)

end Line

end LinePainter
