import LinePainter.Line.Edit

namespace LinePainter

namespace Span

/-! Spans that lie within a text, and where insertions and removals take them. -/

structure Fits (span : Span) (length : Nat) : Prop where
  start_le : span.start ≤ length
  stop_within : ∀ stop ∈ span.stop, span.start ≤ stop ∧ stop ≤ length

theorem fault?_eq_none_iff {span : Span} {length : Nat} :
    span.fault? length = none ↔ span.Fits length := by
  have hfits : span.Fits length ↔
      ¬ span.stopOr span.start < span.start ∧
        ¬ (length < span.start ∨ length < span.stopOr length) := by
    obtain ⟨start, stop⟩ := span
    cases stop with
    | none =>
        simp only [stopOr, Option.getD_none]
        constructor
        · intro hfits
          have hstart : start ≤ length := hfits.start_le
          omega
        · intro hbounds
          exact ⟨Nat.le_of_not_lt fun hlt => hbounds.2 (.inl hlt), fun _ hmem => nomatch hmem⟩
    | some stop =>
        simp only [stopOr, Option.getD_some]
        constructor
        · intro hfits
          have hstop : start ≤ stop ∧ stop ≤ length := hfits.stop_within stop rfl
          omega
        · intro hbounds
          refine ⟨by dsimp only; omega, fun other hother => ?_⟩
          cases hother
          exact ⟨by dsimp only; omega, by omega⟩
  rw [hfits]
  unfold fault?
  split
  · simp_all
  · split <;> simp_all

/-- Where an offset goes when `amount` bytes come in at `index`. -/
def pushOffset (index amount offset : Nat) : Nat :=
  if index ≤ offset then offset + amount else offset

theorem pushOffset_lt_pushOffset {index amount left right : Nat} :
    pushOffset index amount left < pushOffset index amount right ↔ left < right := by
  unfold pushOffset
  split <;> split <;> omega

theorem pushOffset_le_pushOffset {index amount left right : Nat} :
    pushOffset index amount left ≤ pushOffset index amount right ↔ left ≤ right := by
  rw [← Nat.not_lt, pushOffset_lt_pushOffset, Nat.not_lt]

theorem pushOffset_le {index amount offset length : Nat} (hoffset : offset ≤ length) :
    pushOffset index amount offset ≤ length + amount := by
  unfold pushOffset
  split <;> omega

def pushed (span : Span) (index amount : Nat) : Span where
  start := pushOffset index amount span.start
  stop := span.stop.map (pushOffset index amount)

@[simp] theorem pushed_zero (span : Span) (index : Nat) : span.pushed index 0 = span := by
  obtain ⟨start, stop⟩ := span
  cases stop <;> simp [pushed, pushOffset]

/-- Without saturation, and with the stop not in front of the start, a shift moves
both ends on their own. -/
theorem shiftedWithin_eq_pushed {limit length index amount : Nat} {span : Span}
    (hfits : span.Fits length) (hlimit : length + amount ≤ limit) :
    span.shiftedWithin limit index amount = span.pushed index amount := by
  have hmove (offset : Nat) (hoffset : offset ≤ length) :
      (if index ≤ offset then moveOffset limit amount offset else offset) =
        pushOffset index amount offset := by
    unfold moveOffset pushOffset
    split
    · omega
    · rfl
  obtain ⟨start, stop⟩ := span
  cases stop with
  | none =>
      simp only [shiftedWithin, pushed, Option.map_none, hmove start hfits.start_le]
  | some stop =>
      obtain ⟨hordered, hstop⟩ := hfits.stop_within stop rfl
      simp only [shiftedWithin, pushed, Option.map_some, hmove start hfits.start_le,
        hmove stop hstop]
      rw [Nat.max_eq_left (pushOffset_le_pushOffset.mpr hordered)]

theorem Fits.pushed {span : Span} {length : Nat} (hfits : span.Fits length)
    (index amount : Nat) : (span.pushed index amount).Fits (length + amount) := by
  refine ⟨pushOffset_le hfits.start_le, ?_⟩
  intro stop hstop
  obtain ⟨old, hold, rfl⟩ := Option.map_eq_some_iff.mp hstop
  obtain ⟨hordered, hle⟩ := hfits.stop_within old hold
  exact ⟨pushOffset_le_pushOffset.mpr hordered, pushOffset_le hle⟩

theorem squeezeOffset_mono {index length left right : Nat} (hle : left ≤ right) :
    squeezeOffset index length left ≤ squeezeOffset index length right := by
  unfold squeezeOffset
  split <;> split <;> (try split) <;> (try split) <;> omega

theorem squeezeOffset_le {index length offset total : Nat} (hindex : index ≤ total)
    (hoffset : offset ≤ total + length) : squeezeOffset index length offset ≤ total := by
  unfold squeezeOffset
  split <;> (try split) <;> omega

theorem Fits.erased {span : Span} {index length total : Nat} (hindex : index ≤ total)
    (hfits : span.Fits (total + length)) : (span.erased index length).Fits total := by
  refine ⟨squeezeOffset_le hindex hfits.start_le, ?_⟩
  intro stop hstop
  obtain ⟨old, hold, rfl⟩ := Option.map_eq_some_iff.mp hstop
  obtain ⟨hordered, hle⟩ := hfits.stop_within old hold
  exact ⟨squeezeOffset_mono hordered, squeezeOffset_le hindex hle⟩

/-- Where a span of a text goes when the text, `length` bytes long, is put in at
`index`. An open span is closed at the end of that text. -/
def embedded (span : Span) (index length : Nat) : Span where
  start := span.start + index
  stop := some ((span.stop.map (· + index)).getD (index + length))

theorem Fits.mono {span : Span} {length total : Nat} (hfits : span.Fits length)
    (hle : length ≤ total) : span.Fits total := by
  refine ⟨Nat.le_trans hfits.start_le hle, fun stop hstop => ?_⟩
  obtain ⟨hordered, hstop⟩ := hfits.stop_within stop hstop
  exact ⟨hordered, Nat.le_trans hstop hle⟩

theorem Fits.embedded {span : Span} {length total : Nat} (hfits : span.Fits length)
    {index : Nat} (hindex : index ≤ total) : (span.embedded index length).Fits (total + length) := by
  have hstart := hfits.start_le
  refine ⟨by simp only [Span.embedded]; omega, fun stop hstop => ?_⟩
  cases hstop
  simp only [Span.embedded]
  cases hold : span.stop with
  | none =>
      simp only [Option.map_none, Option.getD_none]
      omega
  | some stop =>
      obtain ⟨hordered, hle⟩ := hfits.stop_within stop hold
      simp only [Option.map_some, Option.getD_some]
      omega

/-! What a moved span contains. -/

theorem contains_pushed_iff (span : Span) {index amount offset : Nat} :
    (span.pushed index amount).Contains (pushOffset index amount offset) ↔
      span.Contains offset := by
  simp only [Contains, pushed, pushOffset_le_pushOffset, Option.mem_def,
    Option.map_eq_some_iff, forall_exists_index, and_imp, forall_apply_eq_imp_iff₂,
    pushOffset_lt_pushOffset]

/-- A span that an insertion at `index` stretches: it starts in front of `index` and
does not stop there. -/
def Straddles (span : Span) (index : Nat) : Prop :=
  span.start < index ∧ ∀ stop ∈ span.stop, index ≤ stop

instance (span : Span) (index : Nat) : Decidable (span.Straddles index) :=
  inferInstanceAs (Decidable (_ ∧ _))

theorem contains_pushed_inserted_iff {span : Span} {index amount offset : Nat}
    (hoffset : offset < amount) :
    (span.pushed index amount).Contains (index + offset) ↔ span.Straddles index := by
  simp only [Contains, Straddles, pushed, Option.mem_def, Option.map_eq_some_iff,
    forall_exists_index, and_imp, forall_apply_eq_imp_iff₂]
  refine and_congr ?_ (forall_congr' fun stop => imp_congr_right fun _ => ?_)
  · unfold pushOffset
    split <;> omega
  · unfold pushOffset
    split <;> omega

theorem contains_erased_iff (span : Span) {index length offset : Nat}
    (hsurvives : offset < index ∨ index + length ≤ offset) :
    (span.erased index length).Contains (squeezeOffset index length offset) ↔
      span.Contains offset := by
  simp only [Contains, erased, Option.mem_def, Option.map_eq_some_iff,
    forall_exists_index, and_imp, forall_apply_eq_imp_iff₂]
  refine and_congr ?_ (forall_congr' fun stop => imp_congr_right fun _ => ?_)
  · unfold squeezeOffset
    split <;> (try split) <;> (try split) <;> (try split) <;> omega
  · unfold squeezeOffset
    split <;> (try split) <;> (try split) <;> (try split) <;> omega

theorem contains_embedded_iff {span : Span} {index length offset : Nat}
    (hoffset : offset < length) :
    (span.embedded index length).Contains (index + offset) ↔ span.Contains offset := by
  obtain ⟨start, stop⟩ := span
  cases stop with
  | none =>
      simp only [Contains, embedded, Option.map_none, Option.getD_none, Option.mem_def,
        Option.some.injEq, forall_eq', reduceCtorEq, false_imp_iff, implies_true, and_true]
      omega
  | some stop =>
      simp only [Contains, embedded, Option.map_some, Option.getD_some, Option.mem_def,
        Option.some.injEq, forall_eq']
      omega

theorem Fits.not_contains_embedded {span : Span} {index length offset : Nat}
    (hfits : span.Fits length) (houtside : offset < index ∨ index + length ≤ offset) :
    ¬ (span.embedded index length).Contains offset := by
  rintro ⟨hstart, hstop⟩
  have hend := (hfits.embedded (Nat.le_refl index)).stop_within _ rfl
  have hbefore := hstop _ rfl
  simp only [Span.embedded] at hstart hend hbefore
  omega

theorem Fits.contains_past_iff {span : Span} {length offset : Nat} (hfits : span.Fits length)
    (hoffset : length ≤ offset) : span.Contains offset ↔ span.stop = none := by
  constructor
  · rintro ⟨-, hstop⟩
    rw [Option.eq_none_iff_forall_not_mem]
    intro stop hmem
    have hbefore := hstop stop hmem
    have hwithin := hfits.stop_within stop hmem
    omega
  · intro hopen
    refine ⟨Nat.le_trans hfits.start_le hoffset, fun stop hmem => ?_⟩
    rw [hopen] at hmem
    cases hmem

end Span

end LinePainter
